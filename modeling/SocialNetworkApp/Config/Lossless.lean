import SocialNetworkApp.Config.Lexemes

/-!
# Nothing is dropped

A text is covered by the values of tokens when these, blanks and comments make it up. The values the
lexer returns cover the file, unless it ends within a token without quotes: that token is read and
not returned, and `Parse` returns true nevertheless where a statement has just ended.
-/

namespace SocialNetworkApp

open SocialNetworkApp.Core

/-- The values stand in the text in this order, with blanks and comments around them. -/
inductive Covers : Str → List Str → Prop
  | nil : Covers [] []
  | blank {c : Char} {s : Str} {vs : List Str} (hc : isBlank c = true) (h : Covers s vs) :
      Covers (c :: s) vs
  | comment {t s : Str} {vs : List Str} (ht : CommentText t)
      (hs : ∀ c ∈ s.head?, endsComment c = true) (h : Covers s vs) : Covers (t ++ s) vs
  | value {v s : Str} {vs : List Str} (h : Covers s vs) : Covers (v ++ s) (v :: vs)

/-- The texts of the `NORMAL` tokens. -/
def texts (ts : List Token) : List Str :=
  (ts.filter fun t => t.type = .normal).map Token.value

/-- What the lexer returns covers the file, and a tree that is accepted holds all texts. -/
structure Lossless (input : Str) (ts : List Token) : Prop where
  covers : Covers input ((withoutComments ts).map Token.value)
  tree : ∀ c, parse input = .returned true c →
    c.allStatements.flatMap NginxConfigStatement.tokens = texts ts

/-- The last token has no quotes, and neither a blank nor a delimiter behind it. -/
def EndsInBareToken (input : Str) : Prop := ∃ us t, Reads input us t ∧ BareText t

/-! ### Values in a text -/

/-- A text that begins neither with a blank nor with a comment. -/
def Visible (v : Str) : Prop := ∃ c s, v = c :: s ∧ isBlank c = false ∧ c ≠ '#'

lemma BareText.visible {t : Str} (h : BareText t) : Visible t := by
  obtain ⟨hc, hs⟩ := h
  refine ⟨_, _, rfl, ?_, ?_⟩
  · simp_all [beginsBare, endsToken, isBlank]
  · simp_all [beginsBare]

lemma TokenText.visible {t : Str} (h : TokenText t) : Visible t := by
  cases h with
  | bare hc hs => exact (BareText.mk hc hs).visible
  | quoted hq hs => exact ⟨_, _, rfl, by rcases hq with rfl | rfl <;> decide⟩

lemma Delimiter.visible {c : Char} {type : TokenType} (h : Delimiter c type) : Visible [c] := by
  cases h <;> exact ⟨_, _, rfl, by decide, by decide⟩

lemma Reads.visible {input rest : Str} {us : List Token} (h : Reads input us rest) :
    ∀ v ∈ us.map Token.value, Visible v := by
  induction h with
  | done => simp
  | blank hc h ih => exact ih
  | comment ht hc h ih => exact ih
  | delimiter hc h ih => exact List.forall_mem_cons.mpr ⟨hc.visible, ih⟩
  | text ht hd h ih => exact List.forall_mem_cons.mpr ⟨ht.visible, ih⟩

lemma isBlank_of_endsComment {c : Char} (hc : endsComment c = true) : isBlank c = true := by
  simp only [endsComment, Bool.or_eq_true, decide_eq_true_eq] at hc
  rcases hc with rfl | rfl <;> rfl

/-- A comment ends with its first end. -/
lemma eq_of_append_endsComment {a b s s' : Str} {c : Char} (ha : ∀ x ∈ a, endsComment x = false)
    (hb : ∀ x ∈ b, endsComment x = false) (hc : endsComment c = true)
    (hs' : ∀ x ∈ s'.head?, endsComment x = true) (h : a ++ c :: s = b ++ s') : s' = c :: s := by
  rcases List.append_eq_append_iff.mp h with ⟨e, rfl, htail⟩ | ⟨e, rfl, htail⟩
  · cases e with
    | nil => exact htail.symm
    | cons x e =>
      obtain ⟨rfl, -⟩ := List.cons.inj htail
      rw [hb c (by simp)] at hc
      cases hc
  · cases e with
    | nil => exact htail
    | cons x e =>
      rw [htail] at hs'
      have hx := ha x (by simp)
      rw [hs' x rfl] at hx
      cases hx

namespace Covers

variable {s : Str} {vs : List Str}

lemma of_blank {c : Char} (hc : isBlank c = true) (hvs : ∀ v ∈ vs, Visible v)
    (h : Covers (c :: s) vs) : Covers s vs := by
  generalize hinput : c :: s = input at h
  cases h with
  | nil => cases hinput
  | blank hc' h =>
    obtain ⟨-, rfl⟩ := List.cons.inj hinput
    exact h
  | comment ht hs h =>
    obtain ⟨ht⟩ := ht
    obtain ⟨rfl, -⟩ := List.cons.inj hinput
    cases hc
  | value h =>
    obtain ⟨d, v, rfl, hd, -⟩ := hvs _ List.mem_cons_self
    obtain ⟨rfl, -⟩ := List.cons.inj hinput
    rw [hc] at hd
    cases hd

lemma of_value {v : Str} (hv : Visible v) (h : Covers (v ++ s) (v :: vs)) : Covers s vs := by
  obtain ⟨c, v, rfl, hc, hcomment⟩ := hv
  generalize hinput : c :: v ++ s = input at h
  cases h with
  | blank hc' h =>
    obtain ⟨rfl, -⟩ := List.cons.inj hinput
    rw [hc'] at hc
    cases hc
  | comment ht hs h =>
    obtain ⟨ht⟩ := ht
    exact absurd (List.cons.inj hinput).1 hcomment
  | value h =>
    obtain rfl := List.append_cancel_left hinput
    exact h

lemma of_comment {t : Str} (ht : CommentText t) {c : Char} (hc : endsComment c = true)
    (hvs : ∀ v ∈ vs, Visible v) (h : Covers (t ++ c :: s) vs) : Covers s vs := by
  obtain ⟨ht⟩ := ht
  generalize hinput : _ ++ c :: s = input at h
  cases h with
  | nil => cases hinput
  | blank hc' h =>
    obtain ⟨rfl, -⟩ := List.cons.inj hinput
    cases hc'
  | comment ht' hs h =>
    obtain ⟨ht'⟩ := ht'
    obtain rfl := eq_of_append_endsComment ht ht' hc hs (List.cons.inj hinput).2
    exact h.of_blank (isBlank_of_endsComment hc) hvs
  | value h =>
    obtain ⟨d, v, rfl, -, hcomment⟩ := hvs _ List.mem_cons_self
    exact absurd (List.cons.inj hinput).1.symm hcomment

end Covers

/-- The values of the tokens cover the way that was read. -/
lemma Reads.covers {input rest : Str} {us : List Token} (h : Reads input us rest)
    (hrest : Covers rest []) : Covers input (us.map Token.value) := by
  induction h with
  | done => exact hrest
  | blank hc h ih => exact .blank hc (ih hrest)
  | comment ht hc h ih =>
    refine .comment ht ?_ (.blank ?_ (ih hrest))
    · simpa using hc
    · exact isBlank_of_endsComment hc
  | @delimiter c type s rest us hc h ih => exact Covers.value (v := [c]) (ih hrest)
  | text ht hd h ih => exact .value (ih hrest)

/-- The text that is left must be covered without them. -/
lemma Reads.covers_rest {input rest : Str} {us : List Token} (h : Reads input us rest)
    (hinput : Covers input (us.map Token.value)) : Covers rest [] := by
  induction h with
  | done => exact hinput
  | blank hc h ih => exact ih (hinput.of_blank hc h.visible)
  | comment ht hc h ih => exact ih (hinput.of_comment ht hc h.visible)
  | delimiter hc h ih => exact ih (Covers.of_value hc.visible hinput)
  | text ht hd h ih => exact ih (Covers.of_value ht.visible hinput)

lemma Ending.covers_iff {s : Str} (h : Ending s) : Covers s [] ↔ ¬ BareText s := by
  constructor
  · intro hcovers hbare
    obtain ⟨c, s, rfl, hc, hcomment⟩ := hbare.visible
    generalize hinput : c :: s = input at hcovers
    cases hcovers with
    | nil => cases hinput
    | blank hc' h =>
      obtain ⟨rfl, -⟩ := List.cons.inj hinput
      rw [hc'] at hc
      cases hc
    | comment ht hs h =>
      obtain ⟨ht⟩ := ht
      exact hcomment (List.cons.inj hinput).1
  · intro hbare
    rcases h with rfl | hcomment | hbare'
    · exact .nil
    · simpa using Covers.comment (s := []) hcomment (by simp) .nil
    · exact absurd hbare' hbare

/-! ### Texts in a tree -/

lemma texts_append (ts us : List Token) : texts (ts ++ us) = texts ts ++ texts us := by
  rw [texts, List.filter_append, List.map_append]
  rfl

lemma texts_normals (vs : List Str) : texts (vs.map (Token.mk .normal)) = vs := by
  simp [texts, List.filter_map, Function.comp_def]

lemma texts_cons_of_ne {t : Token} (ht : t.type ≠ .normal) (ts : List Token) :
    texts (t :: ts) = texts ts := by
  rw [texts, List.filter_cons_of_neg (by simpa using ht)]
  rfl

lemma texts_replicate {t : Token} (ht : t.type ≠ .normal) (k : Nat) :
    texts (List.replicate k t) = [] := by
  rw [texts, List.filter_eq_nil_iff.mpr, List.map_nil]
  intro u hu
  simpa [List.eq_of_mem_replicate hu] using ht

lemma texts_withoutComments (ts : List Token) : texts (withoutComments ts) = texts ts := by
  rw [texts, texts, withoutComments, List.filter_filter]
  congr 2
  funext t
  cases t.type <;> rfl

mutual
lemma ConfigOf.flatMap_tokens {ts : List Token} {ss : List NginxConfigStatement}
    (h : ConfigOf ts ss) : (allStatementsOf ss).flatMap NginxConfigStatement.tokens = texts ts := by
  match h with
  | .nil => rfl
  | .cons hs hss =>
    rw [allStatementsOf, List.flatMap_append, hs.flatMap_tokens, hss.flatMap_tokens, texts_append]

lemma StatementOf.flatMap_tokens {ts : List Token} {s : NginxConfigStatement}
    (h : StatementOf ts s) : s.allStatements.flatMap NginxConfigStatement.tokens = texts ts := by
  match h with
  | .simple hvs hsemicolon =>
    rw [texts_append, texts_normals, texts_cons_of_ne (by simp [hsemicolon])]
    simp [NginxConfigStatement.allStatements, texts]
  | .block hvs hopening hclosing hss =>
    rw [texts_append, texts_normals, texts_cons_of_ne (by simp [hopening]), texts_append,
      texts_cons_of_ne (by simp [hclosing]), ← hss.flatMap_tokens]
    simp [NginxConfigStatement.allStatements, NginxConfig.allStatements, texts]
end

/-- Blocks that are left open hold the texts read so far. -/
lemma OpenOf.flatMap_tokens {ts : List Token} {stack : List (List NginxConfigStatement)}
    (h : OpenOf ts stack) :
    (closeBlocks stack).allStatements.flatMap NginxConfigStatement.tokens = texts ts := by
  obtain ⟨k, hk⟩ := Nat.exists_eq_succ_of_ne_zero (List.length_eq_zero_iff.not.mpr h.ne_nil)
  have hclosed := h.closeAll (show Token.type ⟨.endBlock, ['}']⟩ = .endBlock from rfl) hk
  rw [NginxConfig.allStatements_eq, hclosed.flatMap_tokens, texts_append,
    texts_replicate (by simp), List.append_nil]

lemma flatMap_tokens_of_parse {input : Str} {ts : List Token} (hts : tokenize input = some ts)
    {c : NginxConfig} (h : parse input = .returned true c) :
    c.allStatements.flatMap NginxConfigStatement.tokens = texts ts := by
  obtain ⟨stack, hopen, rfl, -⟩ := (parse_eq_returned_true_iff hts).mp h
  rw [hopen.flatMap_tokens, texts_withoutComments]

/-! ### Files -/

lemma Lossless.not_endsInBareToken {input : Str} {ts : List Token}
    (hts : tokenize input = some ts) (h : Lossless input ts) : ¬ EndsInBareToken input := by
  rintro ⟨us, t, hreads, ht⟩
  have hending : Ending t := Or.inr (Or.inr ht)
  obtain ⟨ts', hts', rfl⟩ := hreads.continues.tokenize_eq hending
  obtain rfl : ts' = ts := Option.some.inj (hts'.symm.trans hts)
  exact hending.covers_iff.mp (hreads.covers_rest h.covers) ht

/-- The lexer drops nothing, exactly if the file does not end within a token without quotes. -/
theorem tokenize_lossless_iff {input : Str} {ts : List Token} (hts : tokenize input = some ts) :
    Lossless input ts ↔ ¬ EndsInBareToken input := by
  refine ⟨fun h => h.not_endsInBareToken hts, fun hends => ?_⟩
  obtain ⟨rest, hreads, hrest⟩ := exists_reads_of_tokenize hts
  refine ⟨hreads.covers (hrest.covers_iff.mpr fun hbare => hends ⟨_, rest, hreads, hbare⟩), ?_⟩
  exact fun c hc => flatMap_tokens_of_parse hts hc

/-- One statement, and a token behind it. -/
lemma reads_statement_token : Reads ['a', ';', 'b']
    [⟨.normal, ['a']⟩, ⟨.statementEnd, [';']⟩] ['b'] :=
  .text (t := ['a']) (.bare rfl (by simp)) rfl (.delimiter .statementEnd .done)

lemma bareText_b : BareText ['b'] := .mk rfl (by simp)

theorem tokenize_lossless_iff_simple :
    ∃ ts, tokenize ['a', ';', 'b'] = some ts ∧
      (Lossless ['a', ';', 'b'] ts ↔ ¬ EndsInBareToken ['a', ';', 'b']) := by
  obtain ⟨ts, hts, -⟩ := reads_statement_token.continues.tokenize_eq (Or.inr (Or.inr bareText_b))
  exact ⟨ts, hts, tokenize_lossless_iff hts⟩

/-- `Parse` returns true for `a;b` and the last token is lost. -/
theorem parse_loses_token :
    ∃ ts c, tokenize ['a', ';', 'b'] = some ts ∧ parse ['a', ';', 'b'] = .returned true c ∧
      ¬ Lossless ['a', ';', 'b'] ts := by
  have hending : Ending ['b'] := Or.inr (Or.inr bareText_b)
  obtain ⟨ts, hts, -⟩ := reads_statement_token.continues.tokenize_eq hending
  have hconfig := (StatementOf.simple (show [['a']] ≠ [] by simp)
    (show Token.type ⟨.statementEnd, [';']⟩ = .statementEnd from rfl)).toConfigOf
  refine ⟨ts, _, hts, reads_statement_token.parse_eq hending hconfig, fun h => ?_⟩
  exact h.not_endsInBareToken hts ⟨_, _, reads_statement_token, bareText_b⟩

end SocialNetworkApp
