import SocialNetworkApp.Config.Grammar

/-!
# The parser and the grammar

What the grammar derives, the parser runs through, and it leaves the tree of the derivation; what
the parser has run through is the beginning of a configuration, some blocks of which may be open.
The parser does not ask whether they have been closed when the file ends.
-/

namespace SocialNetworkApp

open SocialNetworkApp.Core

/-- May a statement begin behind a token of this type? -/
def TokenType.MayBegin (last : TokenType) : Prop := last = .start ∨ last.endsStatement = true

/-- The types of the tokens that end a statement. -/
def TokenType.Ends (last : TokenType) : Prop := last = .statementEnd ∨ last = .endBlock

lemma TokenType.Ends.mayBegin {last : TokenType} (h : last.Ends) : last.MayBegin := by
  rcases h with rfl | rfl <;> simp [MayBegin, endsStatement]

lemma TokenType.MayBegin.ne_normal {last : TokenType} (h : last.MayBegin) : last ≠ .normal := by
  rintro rfl
  simp [MayBegin, endsStatement] at h

/-! ### Running through a derivation -/

lemma pushToken_concat (v : Str) (top : List NginxConfigStatement) (vs : List Str)
    (c : Option NginxConfig) :
    pushToken v (top ++ [.mk vs c]) = some (top ++ [.mk (vs ++ [v]) c]) := by
  simp [pushToken]

lemma resetChild_concat (block : NginxConfig) (top : List NginxConfigStatement) (vs : List Str)
    (c : Option NginxConfig) :
    resetChild block (top ++ [.mk vs c]) = some (top ++ [.mk vs (some block)]) := by
  simp [resetChild]

lemma run_push (vs ws : List Str) (c : Option NginxConfig) (top : List NginxConfigStatement)
    (below : List (List NginxConfigStatement)) :
    ParserState.run ⟨.normal, (top ++ [.mk ws c]) :: below⟩ (vs.map (Token.mk .normal)) =
      some ⟨.normal, (top ++ [.mk (ws ++ vs) c]) :: below⟩ := by
  induction vs generalizing ws with
  | nil => simp [ParserState.run]
  | cons v vs ih =>
    rw [List.map_cons, ParserState.run]
    simp [ParserState.step, pushToken_concat, ih]

/-- The first tokens of a statement open it at the end of the innermost block. -/
lemma run_normals {last : TokenType} (hlast : last.MayBegin) {vs : List Str} (hvs : vs ≠ [])
    (top : List NginxConfigStatement) (below : List (List NginxConfigStatement)) :
    ParserState.run ⟨last, top :: below⟩ (vs.map (Token.mk .normal)) =
      some ⟨.normal, (top ++ [.mk vs none]) :: below⟩ := by
  obtain ⟨v, vs, rfl⟩ := List.exists_cons_of_ne_nil hvs
  have hstep : ParserState.step ⟨last, top :: below⟩ ⟨.normal, v⟩ =
      .next ⟨.normal, (top ++ [.mk [v] none]) :: below⟩ := by
    have hpush := pushToken_concat v top [] none
    simp only [List.nil_append] at hpush
    simp only [ParserState.step, hpush, hlast.ne_normal, ne_eq, not_false_eq_true, if_true]
    exact if_pos (hlast.elim Or.inl fun h => Or.inr (Or.inl h))
  rw [List.map_cons, ParserState.run, hstep]
  exact run_push vs [v] none top below

mutual
lemma run_configOf {ts : List Token} {ss : List NginxConfigStatement} (h : ConfigOf ts ss)
    {last : TokenType} (hlast : last.MayBegin) (top : List NginxConfigStatement)
    (below : List (List NginxConfigStatement)) :
    ∃ last', ParserState.run ⟨last, top :: below⟩ ts = some ⟨last', (top ++ ss) :: below⟩ ∧
      (last' = last ∨ last'.Ends) := by
  match h with
  | .nil => exact ⟨last, by simp [ParserState.run], Or.inl rfl⟩
  | .cons hs hss =>
    obtain ⟨mid, hmid, hends⟩ := run_statementOf hs hlast top below
    obtain ⟨last', hrun, hlast'⟩ := run_configOf hss hends.mayBegin _ below
    refine ⟨last', ?_, ?_⟩
    · rw [ParserState.run_append, hmid, Option.bind_some, hrun, List.append_assoc,
        List.singleton_append]
    · rcases hlast' with rfl | hlast'
      · exact Or.inr hends
      · exact Or.inr hlast'

lemma run_statementOf {ts : List Token} {s : NginxConfigStatement} (h : StatementOf ts s)
    {last : TokenType} (hlast : last.MayBegin) (top : List NginxConfigStatement)
    (below : List (List NginxConfigStatement)) :
    ∃ last', ParserState.run ⟨last, top :: below⟩ ts = some ⟨last', (top ++ [s]) :: below⟩ ∧
      last'.Ends := by
  match h with
  | @StatementOf.simple vs semicolon hvs hsemicolon =>
    refine ⟨.statementEnd, ?_, Or.inl rfl⟩
    rw [ParserState.run_append, run_normals hlast hvs]
    simp [ParserState.run, ParserState.step, hsemicolon]
  | @StatementOf.block vs opening closing ts ss hvs hopening hclosing hss =>
    refine ⟨.endBlock, ?_, Or.inr rfl⟩
    obtain ⟨mid, hmid, hmid'⟩ := run_configOf hss (show TokenType.startBlock.MayBegin from Or.inr rfl) []
      ((top ++ [.mk vs (some (.mk []))]) :: below)
    have hends : mid.endsStatement = true := by
      rcases hmid' with rfl | rfl | rfl <;> rfl
    have hopen : ParserState.step ⟨.normal, (top ++ [.mk vs none]) :: below⟩ opening =
        .next ⟨.startBlock, [] :: (top ++ [.mk vs (some (.mk []))]) :: below⟩ := by
      simp [ParserState.step, hopening, resetChild_concat]
    have hclose : ParserState.step ⟨mid, ([] ++ ss) :: (top ++ [.mk vs (some (.mk []))]) :: below⟩
        closing = .next ⟨.endBlock, (top ++ [.mk vs (some (.mk ss))]) :: below⟩ := by
      simp [ParserState.step, hclosing, resetChild_concat, hends]
    rw [ParserState.run_append, run_normals hlast hvs, Option.bind_some, ParserState.run, hopen]
    simp only [ParserState.run_append, hmid, Option.bind_some, ParserState.run, hclose]
end

/-! ### What has been run through -/

/-- The tokens behind which the loop is in a state. -/
inductive Consumed : List Token → ParserState → Prop
  | start : Consumed [] ⟨.start, [[]]⟩
  | between {ts : List Token} {last : TokenType} {stack : List (List NginxConfigStatement)}
      (h : OpenOf ts stack) (hlast : last.endsStatement = true)
      (hts : ts.getLast?.map Token.type = some last) : Consumed ts ⟨last, stack⟩
  | within {ts : List Token} {vs : List Str} {top : List NginxConfigStatement}
      {below : List (List NginxConfigStatement)} (h : OpenOf ts (top :: below)) (hvs : vs ≠ []) :
      Consumed (ts ++ vs.map (Token.mk .normal)) ⟨.normal, (top ++ [.mk vs none]) :: below⟩

/-- A token that begins a statement. -/
lemma Consumed.begin {ts : List Token} {last : TokenType} {stack : List (List NginxConfigStatement)}
    (h : Consumed ts ⟨last, stack⟩) (hlast : last ≠ .normal) : OpenOf ts stack := by
  cases h with
  | start => exact .root .nil
  | between h => exact h
  | within => exact absurd rfl hlast

/-- Behind a `NORMAL` token stands a statement with tokens and without a block. -/
lemma Consumed.of_normal {ts : List Token} {st : ParserState} (h : Consumed ts st)
    (hlast : st.last = .normal) : ∃ us vs top below, OpenOf us (top :: below) ∧ vs ≠ [] ∧
      ts = us ++ vs.map (Token.mk .normal) ∧ st.stack = (top ++ [.mk vs none]) :: below := by
  cases h with
  | start => cases hlast
  | @between ts last stack hopen hends =>
    obtain rfl : last = .normal := hlast
    cases hends
  | within hopen hvs => exact ⟨_, _, _, _, hopen, hvs, rfl, rfl⟩

lemma step_consumed {ts : List Token} {st st' : ParserState} {token : Token}
    (h : Consumed ts st) (hcomment : token.type ≠ .comment) (hstep : st.step token = .next st') :
    Consumed (ts ++ [token]) st' := by
  obtain ⟨type, value⟩ := token
  obtain ⟨last, stack⟩ := st
  cases type with
  | start => simp [ParserState.step] at hstep
  | comment => exact absurd rfl hcomment
  | eof => exact absurd rfl (ParserState.type_of_step_next hstep).1
  | error => exact absurd rfl (ParserState.type_of_step_next hstep).2
  | normal =>
    simp only [ParserState.step] at hstep
    split_ifs at hstep with hlast hnormal
    · have hopen := h.begin hnormal
      obtain ⟨top, below, rfl⟩ := List.exists_cons_of_ne_nil hopen.ne_nil
      have hpush := pushToken_concat value top [] none
      simp only [hpush, ParserStep.next.injEq] at hstep
      subst hstep
      exact .within hopen (show [value] ≠ [] by simp)
    · obtain ⟨us, vs, top, below, hopen, hvs, rfl, rfl⟩ := h.of_normal (not_not.mp hnormal)
      simp only [pushToken_concat, ParserStep.next.injEq] at hstep
      subst hstep
      have hnext := Consumed.within hopen (show vs ++ [value] ≠ [] by simp)
      rwa [List.map_append, List.map_singleton, ← List.append_assoc] at hnext
  | statementEnd =>
    simp only [ParserState.step] at hstep
    split_ifs at hstep with hlast
    obtain ⟨us, vs, top, below, hopen, hvs, rfl, rfl⟩ := h.of_normal (not_not.mp hlast)
    simp only [ParserStep.next.injEq] at hstep
    subst hstep
    rw [List.append_assoc]
    exact .between (hopen.snoc (.simple hvs rfl)) rfl (by simp)
  | startBlock =>
    simp only [ParserState.step] at hstep
    split_ifs at hstep with hlast
    obtain ⟨us, vs, top, below, hopen, hvs, rfl, rfl⟩ := h.of_normal (not_not.mp hlast)
    simp only [resetChild_concat, ParserStep.next.injEq] at hstep
    subst hstep
    exact .between (.block hopen hvs rfl .nil) rfl (by simp)
  | endBlock =>
    simp only [ParserState.step] at hstep
    split_ifs at hstep with hlast hroot
    have hopen := h.begin (by rintro rfl; simp [TokenType.endsStatement] at hlast)
    match stack, hopen, hstep with
    | top :: parent :: below, hopen, hstep =>
      obtain ⟨parent', hreset, hclosed⟩ := hopen.close (show Token.type ⟨.endBlock, value⟩ = .endBlock from rfl)
      simp only [hreset, ParserStep.next.injEq] at hstep
      subst hstep
      exact .between hclosed rfl (by simp)

/-- The tokens the loop does not skip. -/
def withoutComments (ts : List Token) : List Token := ts.filter fun t => t.type ≠ .comment

lemma run_withoutComments (st : ParserState) (ts : List Token) :
    st.run (withoutComments ts) = st.run ts := by
  induction ts generalizing st with
  | nil => rfl
  | cons t ts ih =>
    by_cases ht : t.type = .comment
    · have hstep : st.step t = .next st := by simp [ParserState.step, ht]
      rw [ParserState.run, hstep]
      change _ = st.run ts
      rw [← ih st]
      simp [withoutComments, ht]
    · have hfilter : withoutComments (t :: ts) = t :: withoutComments ts := by
        simp [withoutComments, ht]
      rw [hfilter, ParserState.run, ParserState.run]
      cases st.step t with
      | next st' => exact ih st'
      | _ => rfl

lemma run_consumed {ts us : List Token} {st st' : ParserState} (h : Consumed ts st)
    (hus : ∀ u ∈ us, u.type ≠ .comment) (hrun : st.run us = some st') : Consumed (ts ++ us) st' := by
  induction us generalizing ts st with
  | nil =>
    obtain rfl : st = st' := by simpa [ParserState.run] using hrun
    simpa using h
  | cons u us ih =>
    rw [ParserState.run] at hrun
    cases hstep : st.step u with
    | next mid =>
      rw [hstep] at hrun
      have := ih (step_consumed h (hus u (by simp)) hstep) (fun v hv => hus v (by simp [hv])) hrun
      rwa [List.append_cons]
    | _ => rw [hstep] at hrun; cases hrun

/-- The parser runs through tokens behind which blocks are open, and keeps their statements. -/
lemma run_openOf {ts : List Token} {stack : List (List NginxConfigStatement)}
    (h : OpenOf ts stack) :
    ∃ last, ParserState.run ⟨.start, [[]]⟩ ts = some ⟨last, stack⟩ ∧ last.MayBegin := by
  induction h with
  | root hss =>
    obtain ⟨last, hrun, hlast⟩ := run_configOf hss (Or.inl rfl) [] []
    refine ⟨last, by simpa using hrun, ?_⟩
    rcases hlast with rfl | hlast
    · exact Or.inl rfl
    · exact hlast.mayBegin
  | @block ts ts' vs opening top ss below h hvs hopening hss ih =>
    obtain ⟨mid, hmid, hbegin⟩ := ih
    obtain ⟨last, hrun, hlast⟩ := run_configOf hss (show TokenType.startBlock.MayBegin from Or.inr rfl)
      [] ((top ++ [.mk vs (some (.mk []))]) :: below)
    have hopen : ParserState.step ⟨.normal, (top ++ [.mk vs none]) :: below⟩ opening =
        .next ⟨.startBlock, [] :: (top ++ [.mk vs (some (.mk []))]) :: below⟩ := by
      simp [ParserState.step, hopening, resetChild_concat]
    refine ⟨last, ?_, ?_⟩
    · rw [ParserState.run_append, ParserState.run_append, hmid, Option.bind_some,
        run_normals hbegin hvs, Option.bind_some, ParserState.run, hopen]
      exact hrun
    · rcases hlast with rfl | hlast
      · exact Or.inr rfl
      · exact hlast.mayBegin

/-- The state behind tokens that are not comments says which blocks they leave open. -/
lemma openOf_iff_run {ts : List Token} (hts : ∀ t ∈ ts, t.type ≠ .comment)
    {stack : List (List NginxConfigStatement)} :
    OpenOf ts stack ↔
      ∃ last, ParserState.run ⟨.start, [[]]⟩ ts = some ⟨last, stack⟩ ∧ last.MayBegin := by
  refine ⟨run_openOf, ?_⟩
  rintro ⟨last, hrun, hlast⟩
  have := run_consumed .start hts hrun
  exact this.begin hlast.ne_normal

lemma not_comment_of_mem_withoutComments {ts : List Token} :
    ∀ t ∈ withoutComments ts, t.type ≠ .comment := by
  intro t ht
  simpa using (List.mem_filter.mp ht).2

/-- `Parse` returns true when the file may be the beginning of a configuration, and its last token
does not open a block; the tree it leaves is that of the statements read so far. -/
theorem parse_eq_returned_true_iff {input : Str} {ts : List Token} (hts : tokenize input = some ts)
    {c : NginxConfig} :
    parse input = .returned true c ↔
      ∃ stack, OpenOf (withoutComments ts) stack ∧ closeBlocks stack = c ∧
        (withoutComments ts).getLast?.map Token.type ≠ some .startBlock := by
  rw [parse, parseLoop_eq_returned_true_iff]
  constructor
  · rintro ⟨ts', ⟨last, stack⟩, hts', hrun, hfinal, hc⟩
    obtain rfl : ts = ts' := by simpa [hts] using hts'
    rw [← run_withoutComments] at hrun
    refine ⟨stack, ?_, hc, ?_⟩
    · refine (openOf_iff_run not_comment_of_mem_withoutComments).mpr ⟨last, hrun, ?_⟩
      rcases hfinal with h | h | h <;> simp only at h <;> subst h <;>
        simp [TokenType.MayBegin, TokenType.endsStatement]
    · have hconsumed := run_consumed .start not_comment_of_mem_withoutComments hrun
      rw [List.nil_append] at hconsumed
      generalize withoutComments ts = us at hconsumed
      cases hconsumed with
      | start => simp
      | between h hlast hus =>
        rw [hus]
        rintro ⟨⟩
        simp [ParserState.Final] at hfinal
      | within => simp [ParserState.Final] at hfinal
  · rintro ⟨stack, hopen, hc, hlast⟩
    obtain ⟨last, hrun, hbegin⟩ := run_openOf hopen
    refine ⟨ts, ⟨last, stack⟩, hts, by rwa [← run_withoutComments], ?_, hc⟩
    have hconsumed := run_consumed .start not_comment_of_mem_withoutComments hrun
    rw [List.nil_append] at hconsumed
    generalize withoutComments ts = us at hconsumed hlast
    cases hconsumed with
    | start => exact Or.inr (Or.inr rfl)
    | between h hends hus =>
      rw [hus] at hlast
      cases last <;> simp_all [ParserState.Final, TokenType.endsStatement]
    | within => exact absurd rfl hbegin.ne_normal

lemma parse_accepted_iff {input : Str} {ts : List Token} (hts : tokenize input = some ts) :
    (parse input).accepted = true ↔
      ∃ stack, OpenOf (withoutComments ts) stack ∧
        (withoutComments ts).getLast?.map Token.type ≠ some .startBlock := by
  constructor
  · intro h
    cases hparse : parse input with
    | undefined => simp [hparse, ParseResult.accepted] at h
    | returned flag c =>
      obtain rfl : flag = true := by simpa [hparse, ParseResult.accepted] using h
      obtain ⟨stack, hopen, -, hlast⟩ := (parse_eq_returned_true_iff hts).mp hparse
      exact ⟨stack, hopen, hlast⟩
  · rintro ⟨stack, hopen, hlast⟩
    rw [(parse_eq_returned_true_iff hts).mpr ⟨stack, hopen, rfl, hlast⟩]
    rfl

/-! ### Blocks that are not closed -/

lemma derivable_iff_openOf {ts : List Token} : Derivable ts ↔ ∃ ss, OpenOf ts [ss] := by
  constructor
  · rintro ⟨ss, hss⟩
    exact ⟨ss, .root hss⟩
  · rintro ⟨ss, hopen⟩
    cases hopen with
    | root hss => exact ⟨ss, hss⟩

/-- A configuration does not end with an opening brace. -/
lemma ConfigOf.getLast_ne_startBlock {ts : List Token} {ss : List NginxConfigStatement}
    (h : ConfigOf ts ss) : ts.getLast?.map Token.type ≠ some .startBlock := by
  match h with
  | .nil => simp
  | .cons hs hss =>
    have hlast := hss.getLast_ne_startBlock
    rw [List.getLast?_append]
    intro heq
    cases htail : List.getLast? _ with
    | some t => rw [htail] at heq hlast; exact hlast heq
    | none =>
      rw [htail, Option.none_or] at heq
      cases hs with
      | simple hvs hsemicolon => simp [hsemicolon] at heq
      | @block vs opening closing ts ss hvs hopening hclosing hss =>
        rw [← List.cons_append, ← List.append_assoc, List.getLast?_concat] at heq
        simp [hclosing] at heq

/-- A closing brace may only follow where a block other than the root is open. -/
lemma length_of_run_closing {last : TokenType} {stack : List (List NginxConfigStatement)}
    {closing : Token} (hclosing : closing.type = .endBlock) {ts : List Token} {st : ParserState}
    (hrun : ParserState.run ⟨last, stack⟩ (closing :: ts) = some st) :
    last.MayBegin ∧ 2 ≤ stack.length := by
  rw [ParserState.run] at hrun
  split at hrun
  · rename_i hstep
    simp only [ParserState.step, hclosing] at hstep
    split_ifs at hstep with hlast hroot
    refine ⟨Or.inr (by simpa using hlast), ?_⟩
    match stack, hstep with
    | _ :: _ :: _, _ => simp
  · cases hrun

/-- Closing braces complete the tokens to a configuration exactly when blocks are open. -/
lemma derivable_closing_iff {ts : List Token} (hts : ∀ t ∈ ts, t.type ≠ .comment)
    {closing : Token} (hclosing : closing.type = .endBlock) :
    (∃ k, Derivable (ts ++ List.replicate (k + 1) closing)) ↔
      ∃ stack, OpenOf ts stack ∧ 2 ≤ stack.length := by
  constructor
  · rintro ⟨k, ss, hss⟩
    obtain ⟨last', hrun, -⟩ := run_openOf (.root hss)
    rw [ParserState.run_append, List.replicate_succ] at hrun
    obtain ⟨⟨last, stack⟩, hmid, hrest⟩ := Option.bind_eq_some_iff.mp hrun
    obtain ⟨hbegin, hlength⟩ := length_of_run_closing hclosing hrest
    exact ⟨stack, (openOf_iff_run hts).mpr ⟨last, hmid, hbegin⟩, hlength⟩
  · rintro ⟨stack, hopen, hlength⟩
    obtain ⟨k, hk⟩ := Nat.exists_eq_add_of_le hlength
    exact ⟨k, _, hopen.closeAll hclosing (by omega)⟩

/-- The tokens leave open the same blocks, however they are derived. -/
lemma OpenOf.unique {ts : List Token} {stack stack' : List (List NginxConfigStatement)}
    (h : OpenOf ts stack) (h' : OpenOf ts stack') : stack = stack' := by
  obtain ⟨last, hrun, -⟩ := run_openOf h
  obtain ⟨last', hrun', -⟩ := run_openOf h'
  rw [hrun] at hrun'
  simp only [Option.some.injEq, ParserState.mk.injEq] at hrun'
  exact hrun'.2

/-- `Parse` accepts exactly the grammar, except for files that only lack closing braces and do not
end with an opening one: these it accepts too. -/
theorem parse_accepts_grammar_iff {input : Str} {ts : List Token} (hts : tokenize input = some ts) :
    ((parse input).accepted = true ↔ Derivable (withoutComments ts)) ↔
      ¬ ((∃ k, Derivable (withoutComments ts ++ List.replicate (k + 1) ⟨.endBlock, ['}']⟩)) ∧
        (withoutComments ts).getLast?.map Token.type ≠ some .startBlock) := by
  have hcomments := @not_comment_of_mem_withoutComments ts
  rw [parse_accepted_iff hts,
    derivable_closing_iff hcomments (show Token.type ⟨.endBlock, ['}']⟩ = .endBlock from rfl),
    derivable_iff_openOf]
  constructor
  · rintro h ⟨⟨stack, hopen, hlength⟩, hlast⟩
    obtain ⟨ss, hroot⟩ := h.mp ⟨stack, hopen, hlast⟩
    rw [hopen.unique hroot] at hlength
    simp at hlength
  · intro h
    constructor
    · rintro ⟨stack, hopen, hlast⟩
      match stack, hopen with
      | [], hopen => exact absurd rfl hopen.ne_nil
      | [ss], hopen => exact ⟨ss, hopen⟩
      | _ :: _ :: _, hopen => exact absurd ⟨⟨_, hopen, by simp⟩, hlast⟩ h
    · intro hderivable
      obtain ⟨ss, hss⟩ := derivable_iff_openOf.mpr hderivable
      exact ⟨[ss], .root hss, hss.getLast_ne_startBlock⟩

/-- A statement in a block in a block. -/
def nestedBlocks : Str := ['a', '{', 'b', '{', 'c', ';', '}', '}']

/-- A block within a block, and both are closed. -/
theorem parse_accepts_grammar_iff_nested :
    ∃ ts, tokenize nestedBlocks = some ts ∧ ts.length = 8 ∧
      (((parse nestedBlocks).accepted = true ↔ Derivable (withoutComments ts)) ↔
        ¬ ((∃ k, Derivable (withoutComments ts ++
            List.replicate (k + 1) ⟨.endBlock, ['}']⟩)) ∧
          (withoutComments ts).getLast?.map Token.type ≠ some .startBlock)) := by
  have hts : tokenize nestedBlocks =
      some [⟨.normal, ['a']⟩, ⟨.startBlock, ['{']⟩, ⟨.normal, ['b']⟩, ⟨.startBlock, ['{']⟩,
        ⟨.normal, ['c']⟩, ⟨.statementEnd, [';']⟩, ⟨.endBlock, ['}']⟩, ⟨.endBlock, ['}']⟩] := by
    rw [nestedBlocks, tokenize_of_token (by decide) (by decide),
      tokenize_of_token (by decide) (by decide), tokenize_of_token (by decide) (by decide),
      tokenize_of_token (by decide) (by decide), tokenize_of_token (by decide) (by decide),
      tokenize_of_token (by decide) (by decide), tokenize_of_token (by decide) (by decide),
      tokenize_of_token (by decide) (by decide), tokenize_of_eof (by decide)]
    rfl
  exact ⟨_, hts, rfl, parse_accepts_grammar_iff hts⟩

/-- `Parse` returns true for `a{b;`, where the block is not closed. -/
theorem parse_accepts_unclosed_block :
    ∃ ts, tokenize ['a', '{', 'b', ';'] = some ts ∧
      ¬ ((parse ['a', '{', 'b', ';']).accepted = true ↔ Derivable (withoutComments ts)) := by
  have hts : tokenize ['a', '{', 'b', ';'] =
      some [⟨.normal, ['a']⟩, ⟨.startBlock, ['{']⟩, ⟨.normal, ['b']⟩, ⟨.statementEnd, [';']⟩] := by
    rw [tokenize_of_token (by decide) (by decide), tokenize_of_token (by decide) (by decide),
      tokenize_of_token (by decide) (by decide), tokenize_of_token (by decide) (by decide),
      tokenize_of_eof (by decide)]
    rfl
  have hopen : OpenOf [⟨.normal, ['a']⟩, ⟨.startBlock, ['{']⟩, ⟨.normal, ['b']⟩,
      ⟨.statementEnd, [';']⟩] [[.mk [['b']] none], [.mk [['a']] (some (.mk []))]] :=
    (openOf_iff_run (by decide)).mpr ⟨.statementEnd, rfl, Or.inr rfl⟩
  refine ⟨_, hts, ?_⟩
  intro h
  have haccepted := (parse_accepted_iff hts).mpr ⟨_, hopen, by decide⟩
  obtain ⟨ss, hroot⟩ := derivable_iff_openOf.mp (h.mp haccepted)
  cases hopen.unique hroot

end SocialNetworkApp
