import SocialNetworkApp.Config.Parser

/-!
# The grammar of configuration files

`config ::= statement*` and `statement ::= NORMAL+ ( ';' | '{' statement* '}' )`, each phrase with
the tree it stands for. The parser is followed token by token: its stack is at any time the list of
the trees of the blocks that are still open.
-/

namespace SocialNetworkApp

open SocialNetworkApp.Core

mutual
/-- `config ::= statement*`. -/
inductive ConfigOf : List Token → List NginxConfigStatement → Prop
  | nil : ConfigOf [] []
  | cons {ts ts' : List Token} {s : NginxConfigStatement} {ss : List NginxConfigStatement}
      (hs : StatementOf ts s) (hss : ConfigOf ts' ss) : ConfigOf (ts ++ ts') (s :: ss)

/-- `statement ::= NORMAL+ ( ';' | '{' statement* '}' )`. -/
inductive StatementOf : List Token → NginxConfigStatement → Prop
  | simple {vs : List Str} {semicolon : Token} (hvs : vs ≠ [])
      (hsemicolon : semicolon.type = .statementEnd) :
      StatementOf (vs.map (Token.mk .normal) ++ [semicolon]) (.mk vs none)
  | block {vs : List Str} {opening closing : Token} {ts : List Token}
      {ss : List NginxConfigStatement} (hvs : vs ≠ []) (hopening : opening.type = .startBlock)
      (hclosing : closing.type = .endBlock) (hss : ConfigOf ts ss) :
      StatementOf (vs.map (Token.mk .normal) ++ opening :: (ts ++ [closing]))
        (.mk vs (some (.mk ss)))
end

/-- Does the grammar derive the tokens? -/
def Derivable (ts : List Token) : Prop := ∃ ss, ConfigOf ts ss

/-- Tokens behind which blocks are still open, with the statements of these blocks. -/
inductive OpenOf : List Token → List (List NginxConfigStatement) → Prop
  | root {ts : List Token} {ss : List NginxConfigStatement} (hss : ConfigOf ts ss) :
      OpenOf ts [ss]
  | block {ts ts' : List Token} {vs : List Str} {opening : Token}
      {top ss : List NginxConfigStatement} {below : List (List NginxConfigStatement)}
      (h : OpenOf ts (top :: below)) (hvs : vs ≠ []) (hopening : opening.type = .startBlock)
      (hss : ConfigOf ts' ss) :
      OpenOf (ts ++ vs.map (Token.mk .normal) ++ opening :: ts')
        (ss :: (top ++ [.mk vs (some (.mk []))]) :: below)

/-! ### Phrases side by side -/

lemma ConfigOf.append {ts us : List Token} {ss rs : List NginxConfigStatement}
    (hts : ConfigOf ts ss) (hus : ConfigOf us rs) : ConfigOf (ts ++ us) (ss ++ rs) := by
  match hts with
  | .nil => exact hus
  | .cons hs hss =>
    rw [List.append_assoc]
    exact .cons hs (hss.append hus)

lemma StatementOf.toConfigOf {ts : List Token} {s : NginxConfigStatement} (h : StatementOf ts s) :
    ConfigOf ts [s] := by
  simpa using ConfigOf.cons h .nil

lemma ConfigOf.snoc {ts us : List Token} {ss : List NginxConfigStatement}
    {s : NginxConfigStatement} (hts : ConfigOf ts ss) (hs : StatementOf us s) :
    ConfigOf (ts ++ us) (ss ++ [s]) :=
  hts.append hs.toConfigOf

lemma OpenOf.snoc {ts us : List Token} {top : List NginxConfigStatement}
    {below : List (List NginxConfigStatement)} {s : NginxConfigStatement}
    (h : OpenOf ts (top :: below)) (hs : StatementOf us s) :
    OpenOf (ts ++ us) ((top ++ [s]) :: below) := by
  cases h with
  | root hss => exact .root (hss.snoc hs)
  | block h hvs hopening hss =>
    rw [List.append_assoc, List.cons_append]
    exact .block h hvs hopening (hss.snoc hs)

/-- A closing brace stores the innermost block in its parent. -/
lemma OpenOf.close {ts : List Token} {closing : Token} {top parent : List NginxConfigStatement}
    {below : List (List NginxConfigStatement)} (h : OpenOf ts (top :: parent :: below))
    (hclosing : closing.type = .endBlock) :
    ∃ parent', resetChild (.mk top) parent = some parent' ∧
      OpenOf (ts ++ [closing]) (parent' :: below) := by
  cases h with
  | @block ts ts' vs opening top' _ _ h hvs hopening hss =>
    refine ⟨top' ++ [.mk vs (some (.mk top))], by simp [resetChild], ?_⟩
    rw [List.append_assoc, List.append_assoc, List.cons_append]
    exact h.snoc (.block hvs hopening hclosing hss)

lemma OpenOf.ne_nil {ts : List Token} {stack : List (List NginxConfigStatement)}
    (h : OpenOf ts stack) : stack ≠ [] := by
  cases h <;> simp

/-- Closing all blocks but the root. -/
lemma OpenOf.closeAll {ts : List Token} {stack : List (List NginxConfigStatement)}
    (h : OpenOf ts stack) {closing : Token} (hclosing : closing.type = .endBlock) {k : Nat}
    (hk : stack.length = k + 1) :
    ConfigOf (ts ++ List.replicate k closing) (closeBlocks stack).statements := by
  induction k generalizing ts stack with
  | zero =>
    cases h with
    | root hss => simpa [closeBlocks, closeInto] using hss
    | block => simp at hk
  | succ k ih =>
    match stack, h, hk with
    | top :: parent :: below, h, hk =>
      obtain ⟨parent', hreset, hopen⟩ := h.close hclosing
      have := ih hopen (by simpa using hk)
      rw [List.replicate_succ, List.append_cons]
      simpa [closeBlocks, closeInto, hreset] using this

/-- In a tree that is derived every statement has a token. -/
lemma ConfigOf.tokens_ne_nil {ts : List Token} {ss : List NginxConfigStatement}
    (h : ConfigOf ts ss) : ∀ s ∈ ss, s.tokens ≠ [] := by
  induction ss generalizing ts with
  | nil => simp
  | cons s ss ih =>
    cases h with
    | cons hs hss =>
      intro s' hs'
      rcases List.mem_cons.mp hs' with rfl | hs'
      · cases hs with
        | simple hvs => exact hvs
        | block hvs => exact hvs
      · exact ih hss s' hs'

end SocialNetworkApp
