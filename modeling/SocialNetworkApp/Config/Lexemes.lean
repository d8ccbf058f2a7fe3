import SocialNetworkApp.Config.RoundTrip

/-!
# The way through a file

`Reads` says which tokens the lexer returns on its way through a text, comments left out, and what
is left of the text then.
-/

namespace SocialNetworkApp

open SocialNetworkApp.Core

/-- From the first text the lexer gets to the second one, and returns the tokens. -/
inductive Reads : Str → List Token → Str → Prop
  | done {s : Str} : Reads s [] s
  | blank {c : Char} {s rest : Str} {us : List Token} (hc : isBlank c = true)
      (h : Reads s us rest) : Reads (c :: s) us rest
  | comment {t s rest : Str} {c : Char} {us : List Token} (ht : CommentText t)
      (hc : endsComment c = true) (h : Reads s us rest) : Reads (t ++ c :: s) us rest
  | delimiter {c : Char} {type : TokenType} {s rest : Str} {us : List Token}
      (hc : Delimiter c type) (h : Reads s us rest) : Reads (c :: s) (⟨type, [c]⟩ :: us) rest
  | text {t s rest : Str} {d : Char} {us : List Token} (ht : TokenText t)
      (hd : endsToken d = true) (h : Reads (d :: s) us rest) :
      Reads (t ++ d :: s) (⟨.normal, t⟩ :: us) rest

/-! ### The lexer follows it -/

lemma tokenize_ending {s : Str} (hs : Ending s) : tokenize s = some [] :=
  tokenize_of_eof (by rw [parseToken_ending hs])

lemma tokenize_comment {t : Str} (ht : CommentText t) {c : Char} (hc : endsComment c = true)
    (s : Str) : tokenize (t ++ c :: s) = (tokenize s).map (⟨.comment, t⟩ :: ·) := by
  have hparse := parseToken_comment ht hc s
  rw [tokenize_of_token (by rw [hparse]; simp) (by rw [hparse]; simp), hparse]

lemma withoutComments_cons_comment {t : Token} (ht : t.type = .comment) (ts : List Token) :
    withoutComments (t :: ts) = withoutComments ts :=
  List.filter_cons_of_neg (by simp [ht])

lemma withoutComments_cons {t : Token} (ht : t.type ≠ .comment) (ts : List Token) :
    withoutComments (t :: ts) = t :: withoutComments ts :=
  List.filter_cons_of_pos (by simp [ht])

lemma Delimiter.ne_comment {c : Char} {type : TokenType} (h : Delimiter c type) :
    type ≠ .comment := by
  cases h <;> simp

/-- From `input` on the lexer returns `us`, and then what it returns from `rest` on. -/
def Continues (input : Str) (us : List Token) (rest : Str) : Prop :=
  (tokenize input).map withoutComments = (tokenize rest).map fun ts => us ++ withoutComments ts

namespace Continues

variable {s rest : Str} {us : List Token}

lemma refl (s : Str) : Continues s [] s := rfl

lemma blank {c : Char} (hc : isBlank c = true) (h : Continues s us rest) :
    Continues (c :: s) us rest := by
  rw [Continues, tokenize_blank hc]
  exact h

lemma comment {t : Str} (ht : CommentText t) {c : Char} (hc : endsComment c = true)
    (h : Continues s us rest) : Continues (t ++ c :: s) us rest := by
  have hcons : withoutComments ∘ (⟨.comment, t⟩ :: ·) = withoutComments :=
    funext fun ts => withoutComments_cons_comment rfl ts
  rw [Continues, tokenize_comment ht hc, Option.map_map, hcons]
  exact h

/-- A token that is no comment is returned first. -/
lemma cons {input : Str} {t : Token} (ht : t.type ≠ .comment)
    (hinput : tokenize input = (tokenize s).map (t :: ·)) (h : Continues s us rest) :
    Continues input (t :: us) rest := by
  have hcons : withoutComments ∘ (t :: ·) = (t :: ·) ∘ withoutComments :=
    funext fun ts => withoutComments_cons ht ts
  rw [Continues, hinput, Option.map_map, hcons, ← Option.map_map, h, Option.map_map]
  rfl

lemma delimiter {c : Char} {type : TokenType} (hc : Delimiter c type) (h : Continues s us rest) :
    Continues (c :: s) (⟨type, [c]⟩ :: us) rest :=
  h.cons hc.ne_comment (tokenize_delimiter hc s)

lemma text {t : Str} (ht : TokenText t) {d : Char} (hd : endsToken d = true)
    (h : Continues (d :: s) us rest) : Continues (t ++ d :: s) (⟨.normal, t⟩ :: us) rest :=
  h.cons (by simp) (tokenize_text ht hd s)

/-- The tokens of a text that is read up to an ending. -/
lemma tokenize_eq (h : Continues s us rest) (hrest : Ending rest) :
    ∃ ts, tokenize s = some ts ∧ withoutComments ts = us := by
  rw [Continues, tokenize_ending hrest] at h
  obtain ⟨ts, hts, hus⟩ := Option.map_eq_some_iff.mp h
  exact ⟨ts, hts, by rw [hus]; exact List.append_nil us⟩

lemma parse_iff (h : Continues s us rest) (hrest : Ending rest) {c : NginxConfig} :
    parse s = .returned true c ↔ ∃ stack, OpenOf us stack ∧ closeBlocks stack = c ∧
      us.getLast?.map Token.type ≠ some .startBlock := by
  obtain ⟨ts, hts, rfl⟩ := h.tokenize_eq hrest
  exact parse_eq_returned_true_iff hts

lemma trans {a b c : Str} {us vs : List Token} (h : Continues a us b) (h' : Continues b vs c) :
    Continues a (us ++ vs) c := by
  have hthrough : (tokenize a).map withoutComments =
      ((tokenize b).map withoutComments).map (us ++ ·) := by
    rw [Option.map_map]
    exact h
  rw [Continues, hthrough, h', Option.map_map]
  simp [Function.comp_def]

lemma tokenize_eq_none {a b : Str} {us : List Token} (h : Continues a us b)
    (hb : tokenize b = none) : tokenize a = none := by
  rw [Continues, hb, Option.map_none, Option.map_eq_none_iff] at h
  exact h

end Continues

lemma Reads.continues {input rest : Str} {us : List Token} (h : Reads input us rest) :
    Continues input us rest := by
  induction h with
  | done => exact .refl _
  | blank hc h ih => exact ih.blank hc
  | comment ht hc h ih => exact ih.comment ht hc
  | delimiter hc h ih => exact ih.delimiter hc
  | text ht hd h ih => exact ih.text ht hd

/-- The way through a file that is read to its end passes through its tokens. -/
lemma Reads.begins_tokens {t rest : Str} {us ts : List Token} (h : Reads t us rest)
    (hts : tokenize t = some ts) : us <+: withoutComments ts := by
  have hcontinues := h.continues
  rw [Continues, hts] at hcontinues
  obtain ⟨ws, -, hws⟩ := Option.map_eq_some_iff.mp hcontinues.symm
  exact ⟨_, hws⟩

/-- A text that is read to its end as a configuration is parsed to its tree. -/
lemma Reads.parse_eq {input rest : Str} {us : List Token} (h : Reads input us rest)
    (hrest : Ending rest) {ss : List NginxConfigStatement} (hconfig : ConfigOf us ss) :
    parse input = .returned true (.mk ss) :=
  (h.continues.parse_iff hrest).mpr ⟨[ss], .root hconfig, rfl, hconfig.getLast_ne_startBlock⟩

lemma Reads.trans {a b c : Str} {us vs : List Token} (h : Reads a us b) (h' : Reads b vs c) :
    Reads a (us ++ vs) c := by
  induction h with
  | done => exact h'
  | blank hc h ih => exact .blank hc (ih h')
  | comment ht hc h ih => exact .comment ht hc (ih h')
  | delimiter hc h ih => exact .delimiter hc (ih h')
  | text ht hd h ih => exact .text ht hd (ih h')

/-- The values of tokens are taken from the text. -/
lemma Reads.mem_of_mem_value {t rest : Str} {us : List Token} (h : Reads t us rest) {u : Token}
    (hu : u ∈ us) {c : Char} (hc : c ∈ u.value) : c ∈ t := by
  induction h with
  | done => cases hu
  | blank hc h ih => exact List.mem_cons_of_mem _ (ih hu)
  | comment ht hc h ih => exact List.mem_append_right _ (List.mem_cons_of_mem _ (ih hu))
  | delimiter hc' h ih =>
    rcases List.mem_cons.mp hu with rfl | hu
    · exact List.mem_of_mem_head? (by simpa [eq_comm] using hc)
    · exact List.mem_cons_of_mem _ (ih hu)
  | text ht hd h ih =>
    rcases List.mem_cons.mp hu with rfl | hu
    · exact List.mem_append_left _ hc
    · exact List.mem_append_right _ (ih hu)

lemma Reads.blanks {w s rest : Str} {us : List Token} (hw : ∀ c ∈ w, isBlank c = true)
    (h : Reads s us rest) : Reads (w ++ s) us rest := by
  induction w with
  | nil => exact h
  | cons c w ih =>
    obtain ⟨hc, hw⟩ := List.forall_mem_cons.mp hw
    exact .blank hc (ih hw)

/-- Where the lexer stops: at the end of the file, or at quotes that are not closed. -/
def Stops (s : Str) : Prop :=
  Ending s ∨ ∃ q s', s = q :: s' ∧ (q = '"' ∨ q = '\'') ∧ ¬ Closes q s'

/-- The lexer gets through any text up to a place where it stops. -/
lemma exists_reads_stops (input : Str) : ∃ us rest, Reads input us rest ∧ Stops rest := by
  induction hn : input.length using Nat.strong_induction_on generalizing input with
  | _ n ih =>
    subst hn
    obtain ⟨w, s, hinput, hw, hs⟩ := parseToken_lexeme input
    have hshorter := @parseToken_length_lt input
    generalize (parseToken input).1 = token, (parseToken input).2 = left at hs hshorter
    subst hinput
    cases hs with
    | ended hs => exact ⟨[], s, .blanks hw .done, Or.inl hs⟩
    | unclosed hq hs => exact ⟨[], _, .blanks hw .done, Or.inr ⟨_, _, rfl, hq, hs⟩⟩
    | comment ht hc =>
      have hlt := hshorter (by simp) (by simp)
      obtain ⟨us, rest, hreads, hrest⟩ := ih _ hlt left rfl
      exact ⟨us, rest, .blanks hw (.comment ht hc hreads), hrest⟩
    | delimiter hc =>
      have hlt := hshorter (by cases hc <;> simp) (by cases hc <;> simp)
      obtain ⟨us, rest, hreads, hrest⟩ := ih _ hlt left rfl
      exact ⟨_, rest, .blanks hw (.delimiter hc hreads), hrest⟩
    | @text t s d ht hd =>
      have hlt := hshorter (by simp) (by simp)
      obtain ⟨us, rest, hreads, hrest⟩ := ih _ hlt (d :: s) rfl
      exact ⟨_, rest, .blanks hw (.text ht hd hreads), hrest⟩

lemma tokenize_unclosed {q : Char} (hq : q = '"' ∨ q = '\'') {s : Str} (hs : ¬ Closes q s) :
    tokenize (q :: s) = none :=
  tokenize_of_error (by rw [parseToken_quote hq]; exact scan_quote_error hq _ hs)

/-- A file in which no error is found is read up to an ending. -/
lemma exists_reads_of_tokenize {input : Str} {ts : List Token} (h : tokenize input = some ts) :
    ∃ rest, Reads input (withoutComments ts) rest ∧ Ending rest := by
  obtain ⟨us, rest, hreads, hrest | ⟨q, s, rfl, hq, hs⟩⟩ := exists_reads_stops input
  · obtain ⟨ts', hts', rfl⟩ := hreads.continues.tokenize_eq hrest
    obtain rfl : ts' = ts := Option.some.inj (hts'.symm.trans h)
    exact ⟨rest, hreads, hrest⟩
  · have hcontinues := hreads.continues
    rw [Continues, h, tokenize_unclosed hq hs] at hcontinues
    cases hcontinues

end SocialNetworkApp
