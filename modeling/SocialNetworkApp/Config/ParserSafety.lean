import SocialNetworkApp.Config.ParserCorrect

/-!
# The loop of the parser

Every iteration of `Parse` finds what it relies on: an open block on the stack, a statement in it
where one is extended, and behind this statement no block yet.
-/

namespace SocialNetworkApp

open SocialNetworkApp.Core

/-- After `n` iterations the loop of `Parse` is in the state `st`, with `rest` still unread. -/
inductive Reached (input : Str) : Nat → ParserState → Str → Prop
  | start : Reached input 0 ⟨.start, [[]]⟩ input
  | next {n : Nat} {st st' : ParserState} {rest : Str} (h : Reached input n st rest)
      (hstep : st.step (parseToken rest).1 = .next st') :
      Reached input (n + 1) st' (parseToken rest).2

/-- An iteration that reads `token` is safe. -/
structure SafeIteration (st : ParserState) (token : Token) : Prop where
  /-- No call is without a meaning. -/
  defined : st.step token ≠ .undefined
  /-- `config_stack` is not empty where `top` or `pop` is called. -/
  stack_ne_nil : st.stack ≠ []
  /-- Nor are the statements of its top where `back` is called on them as they are. -/
  top_ne_nil : st.last = .normal → ∀ top ∈ st.stack.head?, top ≠ []
  /-- The statement that receives a block has tokens, and no block yet. -/
  receiver : token.type = .startBlock → st.last = .normal → ∃ top s below,
    st.stack = (top ++ [s]) :: below ∧ s.tokens ≠ [] ∧ s.childBlock = none
  /-- All statements of the tree have tokens. -/
  tokens_ne_nil : ∀ s ∈ (closeBlocks st.stack).allStatements, s.tokens ≠ []

/-! ### The tree -/

mutual
lemma ConfigOf.allStatements_tokens {ts : List Token} {ss : List NginxConfigStatement}
    (h : ConfigOf ts ss) : ∀ s ∈ allStatementsOf ss, s.tokens ≠ [] := by
  match h with
  | .nil => exact fun s hs => nomatch hs
  | .cons hs hss =>
    intro s hmem
    rcases List.mem_append.mp hmem with hmem | hmem
    · exact hs.allStatements_tokens s hmem
    · exact hss.allStatements_tokens s hmem

lemma StatementOf.allStatements_tokens {ts : List Token} {s : NginxConfigStatement}
    (h : StatementOf ts s) : ∀ s' ∈ s.allStatements, s'.tokens ≠ [] := by
  match h with
  | .simple hvs hsemicolon =>
    intro s' hmem
    obtain rfl := List.mem_singleton.mp hmem
    exact hvs
  | .block hvs hopening hclosing hss =>
    intro s' hmem
    rcases List.mem_cons.mp hmem with rfl | hmem
    · exact hvs
    · exact hss.allStatements_tokens s' hmem
end

/-- However many blocks are open, all statements of the tree have tokens. -/
lemma OpenOf.allStatements_tokens {ts : List Token} {stack : List (List NginxConfigStatement)}
    (h : OpenOf ts stack) : ∀ s ∈ (closeBlocks stack).allStatements, s.tokens ≠ [] := by
  obtain ⟨k, hk⟩ := Nat.exists_eq_succ_of_ne_zero (List.length_eq_zero_iff.not.mpr h.ne_nil)
  rw [NginxConfig.allStatements_eq]
  exact (h.closeAll (show Token.type ⟨.endBlock, ['}']⟩ = .endBlock from rfl) hk).allStatements_tokens

/-! ### Iterations -/

namespace Consumed

variable {ts : List Token} {st : ParserState}

/-- A statement that has begun may as well be ended. -/
lemma exists_openOf (h : Consumed ts st) : ∃ us, OpenOf us st.stack := by
  cases h with
  | start => exact ⟨_, .root .nil⟩
  | between hopen => exact ⟨_, hopen⟩
  | within hopen hvs =>
    exact ⟨_, hopen.snoc (.simple hvs (show Token.type ⟨.statementEnd, [';']⟩ = .statementEnd from rfl))⟩

lemma step_ne_undefined (h : Consumed ts st) (token : Token) : st.step token ≠ .undefined := by
  obtain ⟨us, hopen⟩ := h.exists_openOf
  obtain ⟨top, below, hstack⟩ := List.exists_cons_of_ne_nil hopen.ne_nil
  obtain ⟨type, value⟩ := token
  cases type with
  | start | comment | error => exact ParserStep.noConfusion
  | statementEnd =>
    simp only [ParserState.step]
    split_ifs <;> exact ParserStep.noConfusion
  | eof =>
    simp only [ParserState.step]
    split_ifs <;> exact ParserStep.noConfusion
  | normal =>
    simp only [ParserState.step, hstack]
    split_ifs with hmay hlast
    · have hpush := pushToken_concat value top [] none
      simp only [hpush]
      exact ParserStep.noConfusion
    · obtain ⟨-, vs, top', below', -, -, -, hstack'⟩ := h.of_normal (not_not.mp hlast)
      obtain ⟨rfl, rfl⟩ := List.cons.inj (hstack.symm.trans hstack')
      simp only [pushToken_concat]
      exact ParserStep.noConfusion
    · exact ParserStep.noConfusion
  | startBlock =>
    simp only [ParserState.step]
    split_ifs with hlast
    · exact ParserStep.noConfusion
    · obtain ⟨-, vs, top', below', -, -, -, hstack'⟩ := h.of_normal (not_not.mp hlast)
      simp only [hstack', resetChild_concat]
      exact ParserStep.noConfusion
  | endBlock =>
    cases below with
    | nil =>
      simp only [ParserState.step, hstack, List.length_singleton, if_true]
      split_ifs <;> exact ParserStep.noConfusion
    | cons parent below =>
      rw [hstack] at hopen
      obtain ⟨parent', hreset, -⟩ :=
        hopen.close (show Token.type ⟨.endBlock, value⟩ = .endBlock from rfl)
      simp only [ParserState.step, hstack, hreset]
      split_ifs <;> exact ParserStep.noConfusion

lemma safeIteration (h : Consumed ts st) (token : Token) : SafeIteration st token := by
  obtain ⟨us, hopen⟩ := h.exists_openOf
  refine ⟨h.step_ne_undefined token, hopen.ne_nil, fun hlast top htop => ?_, fun _ hlast => ?_,
    hopen.allStatements_tokens⟩
  · obtain ⟨-, vs, top', below, -, -, -, hstack⟩ := h.of_normal hlast
    rw [hstack] at htop
    obtain rfl := Option.some.inj htop
    exact List.append_ne_nil_of_right_ne_nil _ (List.cons_ne_nil _ _)
  · obtain ⟨-, vs, top, below, -, hvs, -, hstack⟩ := h.of_normal hlast
    exact ⟨top, _, below, hstack, hvs, rfl⟩

end Consumed

namespace Reached

variable {input rest : Str} {n : Nat} {st : ParserState}

/-- The state belongs to the tokens read so far, comments left out. -/
lemma consumed (h : Reached input n st rest) : ∃ ts, Consumed ts st := by
  induction h with
  | start => exact ⟨[], .start⟩
  | @next n st st' rest h hstep ih =>
    obtain ⟨ts, hts⟩ := ih
    by_cases hcomment : (parseToken rest).1.type = .comment
    · simp only [ParserState.step, hcomment, ParserStep.next.injEq] at hstep
      exact ⟨ts, hstep ▸ hts⟩
    · exact ⟨_, step_consumed hts hcomment hstep⟩

/-- Every iteration reads something. -/
lemma length_le (h : Reached input n st rest) : n + rest.length ≤ input.length := by
  induction h with
  | start => rw [Nat.zero_add]
  | next h hstep ih =>
    obtain ⟨heof, herror⟩ := ParserState.type_of_step_next hstep
    have hlt := parseToken_length_lt heof herror
    omega

/-- From any iteration on, the loop ends and returns. -/
lemma exists_returned (h : Reached input n st rest) :
    ∃ flag c, parseLoop st rest = .returned flag c := by
  fun_induction parseLoop st rest generalizing n with
  | case1 st rest st' hstep ih => exact ih (h.next hstep)
  | case2 st rest hstep => exact ⟨true, _, rfl⟩
  | case3 st rest hstep => exact ⟨false, _, rfl⟩
  | case4 st rest hstep =>
    obtain ⟨ts, hts⟩ := h.consumed
    exact absurd hstep (hts.step_ne_undefined _)

end Reached

/-- A token that is returned shortens what is unread, so the loop ends; and all its iterations are
safe. -/
theorem parse_safe (input : Str) :
    (∀ rest, (parseToken rest).1.type ≠ .eof → (parseToken rest).1.type ≠ .error →
      (parseToken rest).2.length < rest.length) ∧
    (∃ flag c, parse input = .returned flag c) ∧
    ∀ n st rest, Reached input n st rest →
      n + rest.length ≤ input.length ∧ SafeIteration st (parseToken rest).1 := by
  refine ⟨fun rest heof herror => parseToken_length_lt heof herror,
    (Reached.start).exists_returned, fun n st rest h => ⟨h.length_le, ?_⟩⟩
  obtain ⟨ts, hts⟩ := h.consumed
  exact hts.safeIteration _

end SocialNetworkApp
