import SocialNetworkApp.Config.Lexer

/-!
# The parser of configuration files

`Parse` is a loop over the tokens with a stack of pointers to open blocks. The stack is modelled by
the statements of the blocks it points to, innermost first: the block of the last statement of a
frame is the frame above it, and `closeBlocks` follows these pointers to the tree below the root.
-/

namespace SocialNetworkApp

open SocialNetworkApp.Core

/-- The variables of the loop of `Parse`. -/
structure ParserState where
  last : TokenType
  stack : List (List NginxConfigStatement)

/-- What one iteration does: `undefined` where the C++ has no defined meaning (`top` or `pop` of an
empty stack, `back` of an empty vector). -/
inductive ParserStep where
  | next (st : ParserState)
  | accept
  | reject
  | undefined

/-- `statements_.back().get()->tokens_.push_back(token)`. -/
def pushToken (value : Str) (statements : List NginxConfigStatement) :
    Option (List NginxConfigStatement) :=
  statements.getLast?.map fun s => statements.dropLast ++ [.mk (s.tokens ++ [value]) s.childBlock]

/-- `statements_.back().get()->child_block_.reset(block)`. -/
def resetChild (block : NginxConfig) (statements : List NginxConfigStatement) :
    Option (List NginxConfigStatement) :=
  statements.getLast?.map fun s => statements.dropLast ++ [.mk s.tokens (some block)]

/-- May a statement or a block end follow? -/
def TokenType.endsStatement : TokenType → Bool
  | .statementEnd | .startBlock | .endBlock => true
  | _ => false

/-- One iteration of the loop of `Parse`. -/
def ParserState.step (st : ParserState) (token : Token) : ParserStep :=
  match token.type with
  | .error => .reject
  | .comment => .next st
  | .start => .reject
  | .normal =>
    if st.last = .start ∨ st.last.endsStatement ∨ st.last = .normal then
      match st.stack with
      | [] => .undefined
      | top :: below =>
        let top := if st.last ≠ .normal then top ++ [.mk [] none] else top
        match pushToken token.value top with
        | none => .undefined
        | some top => .next ⟨.normal, top :: below⟩
    else .reject
  | .statementEnd =>
    if st.last ≠ .normal then .reject else .next ⟨.statementEnd, st.stack⟩
  | .startBlock =>
    if st.last ≠ .normal then .reject
    else
      match st.stack with
      | [] => .undefined
      | top :: below =>
        match resetChild (.mk []) top with
        | none => .undefined
        | some top => .next ⟨.startBlock, [] :: top :: below⟩
  | .endBlock =>
    if ¬ st.last.endsStatement then .reject
    else if st.stack.length = 1 then .reject
    else
      match st.stack with
      | top :: parent :: below =>
        -- the pointer in the parent sees what the block has become
        match resetChild (.mk top) parent with
        | none => .undefined
        | some parent => .next ⟨.endBlock, parent :: below⟩
      | _ => .undefined
  | .eof =>
    if st.last ≠ .statementEnd ∧ st.last ≠ .endBlock ∧ st.last ≠ .start then .reject else .accept

/-- Store the block `top` behind the last statement of each frame below it in turn. -/
def closeInto (top : List NginxConfigStatement) : List (List NginxConfigStatement) → NginxConfig
  | [] => .mk top
  | parent :: below => closeInto ((resetChild (.mk top) parent).getD parent) below

/-- The tree the root pointer reaches while the blocks of the stack are open. -/
def closeBlocks : List (List NginxConfigStatement) → NginxConfig
  | [] => .mk []
  | top :: below => closeInto top below

/-- The result of `Parse`: the flag it returns and the tree it leaves in `config`. -/
inductive ParseResult where
  | returned (flag : Bool) (config : NginxConfig)
  | undefined

lemma ParserState.type_of_step_next {st st' : ParserState} {token : Token}
    (h : st.step token = .next st') : token.type ≠ .eof ∧ token.type ≠ .error := by
  constructor
  · intro heof
    simp only [step, heof] at h
    split_ifs at h
  · intro herror
    simp [step, herror] at h

/-- The loop of `Parse`. -/
def parseLoop (st : ParserState) (input : Str) : ParseResult :=
  match _hstep : st.step (parseToken input).1 with
  | .next st' => parseLoop st' (parseToken input).2
  | .accept => .returned true (closeBlocks st.stack)
  | .reject => .returned false (closeBlocks st.stack)
  | .undefined => .undefined
termination_by input.length
decreasing_by
  have h := ParserState.type_of_step_next _hstep
  exact parseToken_length_lt h.1 h.2

/-- `NginxConfigParser::Parse` into a fresh `NginxConfig`. -/
def parse (input : Str) : ParseResult := parseLoop ⟨.start, [[]]⟩ input

/-- Does `Parse` return true? -/
def ParseResult.accepted : ParseResult → Bool
  | .returned flag _ => flag
  | .undefined => false

/-! ### The loop over a list of tokens -/

/-- The state after `tokens`, when the loop is still running. -/
def ParserState.run (st : ParserState) : List Token → Option ParserState
  | [] => some st
  | token :: tokens =>
    match st.step token with
    | .next st' => st'.run tokens
    | _ => none

/-- May the file end here? -/
def ParserState.Final (st : ParserState) : Prop :=
  st.last = .statementEnd ∨ st.last = .endBlock ∨ st.last = .start

lemma ParserState.run_append (st : ParserState) (ts us : List Token) :
    st.run (ts ++ us) = (st.run ts).bind fun st' => st'.run us := by
  induction ts generalizing st with
  | nil => rfl
  | cons t ts ih =>
    simp only [List.cons_append, run]
    cases st.step t with
    | next st' => exact ih st'
    | _ => rfl

lemma ParserState.step_eq_accept_iff {st : ParserState} {token : Token} :
    st.step token = .accept ↔ token.type = .eof ∧ st.Final := by
  constructor
  · intro h
    simp only [step] at h
    split at h <;> (try split_ifs at h) <;> (try split at h) <;> (try split at h) <;> try cases h
    rename_i heof hlast
    refine ⟨heof, ?_⟩
    simp only [Final]
    tauto
  · rintro ⟨heof, hfinal⟩
    simp only [step, heof, Final] at hfinal ⊢
    rw [if_neg]
    tauto

/-- A loop that stops at the next token without accepting does not run to a final state. -/
lemma not_run_final_of_step {st : ParserState} {input : Str}
    (hnext : ∀ st', st.step (parseToken input).1 ≠ .next st')
    (haccept : st.step (parseToken input).1 ≠ .accept) {ts : List Token} {st' : ParserState}
    (hts : tokenize input = some ts) (hrun : st.run ts = some st') : ¬ st'.Final := by
  intro hfinal
  by_cases heof : (parseToken input).1.type = .eof
  · obtain rfl : [] = ts := by simpa [tokenize_of_eof heof] using hts
    obtain rfl : st = st' := by simpa [ParserState.run] using hrun
    exact haccept (ParserState.step_eq_accept_iff.mpr ⟨heof, hfinal⟩)
  · by_cases herror : (parseToken input).1.type = .error
    · simp [tokenize_of_error herror] at hts
    · rw [tokenize_of_token heof herror] at hts
      obtain ⟨ts', -, rfl⟩ := Option.map_eq_some_iff.mp hts
      rw [ParserState.run] at hrun
      split at hrun
      · exact hnext _ ‹_›
      · cases hrun

/-- `Parse` returns true when it runs through all tokens and may stop at the end of the file. -/
lemma parseLoop_eq_returned_true_iff {st : ParserState} {input : Str} {c : NginxConfig} :
    parseLoop st input = .returned true c ↔
      ∃ ts st', tokenize input = some ts ∧ st.run ts = some st' ∧ st'.Final ∧
        closeBlocks st'.stack = c := by
  fun_induction parseLoop st input with
  | case1 st input st' hstep ih =>
    obtain ⟨heof, herror⟩ := ParserState.type_of_step_next hstep
    rw [ih, tokenize_of_token heof herror]
    constructor
    · rintro ⟨ts, st'', hts, hrun, hfinal⟩
      refine ⟨(parseToken input).1 :: ts, st'', by rw [hts]; rfl, ?_, hfinal⟩
      rw [ParserState.run, hstep]
      exact hrun
    · rintro ⟨ts, st'', hts, hrun, hfinal⟩
      obtain ⟨ts', hts', rfl⟩ := Option.map_eq_some_iff.mp hts
      rw [ParserState.run, hstep] at hrun
      exact ⟨ts', st'', hts', hrun, hfinal⟩
  | case2 st input hstep =>
    obtain ⟨heof, hfinal⟩ := ParserState.step_eq_accept_iff.mp hstep
    simp [tokenize_of_eof heof, ParserState.run, hfinal]
  | case3 st input hstep =>
    simp only [ParseResult.returned.injEq, Bool.false_eq_true, false_and, false_iff]
    rintro ⟨ts, st', hts, hrun, hfinal, -⟩
    exact not_run_final_of_step (by simp [hstep]) (by simp [hstep]) hts hrun hfinal
  | case4 st input hstep =>
    simp only [reduceCtorEq, false_iff]
    rintro ⟨ts, st', hts, hrun, hfinal, -⟩
    exact not_run_final_of_step (by simp [hstep]) (by simp [hstep]) hts hrun hfinal

end SocialNetworkApp
