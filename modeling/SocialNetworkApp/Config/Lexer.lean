import SocialNetworkApp.Config.Syntax

/-!
# The lexer of configuration files

`parseToken` reads one token; the characters it does not consume are returned with it. The text of
a token that stands for itself is either bare or quoted, and is read back from its own characters
whenever a blank or a delimiter follows.
-/

namespace SocialNetworkApp

open SocialNetworkApp.Core

/-- `NginxConfigParser::TokenType`. -/
inductive TokenType where
  | start
  | normal
  | startBlock
  | endBlock
  | comment
  | statementEnd
  | eof
  | error
deriving DecidableEq, Repr

/-- `NginxConfigParser::TokenParserState`. -/
inductive TokenParserState where
  | initialWhitespace
  | singleQuote
  | doubleQuote
  | tokenTypeComment
  | tokenTypeNormal
deriving DecidableEq, Repr

/-- A token type with the text stored in `value`. -/
structure Token where
  type : TokenType
  value : Str
deriving DecidableEq

/-- The characters that may follow a quoted token, and that end a bare one. -/
def endsToken (c : Char) : Bool :=
  c = ' ' || c = '\t' || c = '\n' || c = ';' || c = '{' || c = '}'

/-- The loop of `ParseToken`: the token, and the characters left in the stream. -/
def scan (state : TokenParserState) (value : Str) : Str → Token × Str
  | [] =>
    match state with
    | .singleQuote | .doubleQuote => (⟨.error, value⟩, [])
    | _ => (⟨.eof, value⟩, [])
  | c :: rest =>
    match state with
    | .initialWhitespace =>
      if c = '{' then (⟨.startBlock, [c]⟩, rest)
      else if c = '}' then (⟨.endBlock, [c]⟩, rest)
      else if c = '#' then scan .tokenTypeComment [c] rest
      else if c = '"' then scan .doubleQuote [c] rest
      else if c = '\'' then scan .singleQuote [c] rest
      else if c = ';' then (⟨.statementEnd, [c]⟩, rest)
      else if c = ' ' || c = '\t' || c = '\n' || c = '\r' then
        scan .initialWhitespace value rest
      else scan .tokenTypeNormal (value ++ [c]) rest
    | .singleQuote =>
      match rest with
      | [] => (⟨.error, value ++ [c]⟩, [])
      | ch :: rest' =>
        if c = '\\' ∧ ch = '\'' then scan .singleQuote (value ++ [c, ch]) rest'
        else if c = '\'' then
          -- the character behind the closing quote is put back
          if endsToken ch then (⟨.normal, value ++ [c]⟩, ch :: rest')
          else (⟨.error, value ++ [c]⟩, rest')
        else scan .singleQuote (value ++ [c]) (ch :: rest')
    | .doubleQuote =>
      match rest with
      | [] => (⟨.error, value ++ [c]⟩, [])
      | ch :: rest' =>
        if c = '\\' ∧ ch = '"' then scan .doubleQuote (value ++ [c, ch]) rest'
        else if c = '"' then
          if endsToken ch then (⟨.normal, value ++ [c]⟩, ch :: rest')
          else (⟨.error, value ++ [c]⟩, rest')
        else scan .doubleQuote (value ++ [c]) (ch :: rest')
    | .tokenTypeComment =>
      if c = '\n' || c = '\r' then (⟨.comment, value⟩, rest)
      else scan .tokenTypeComment (value ++ [c]) rest
    | .tokenTypeNormal =>
      if endsToken c then (⟨.normal, value⟩, c :: rest)
      else scan .tokenTypeNormal (value ++ [c]) rest

/-- `NginxConfigParser::ParseToken`, with a fresh value string. -/
def parseToken (input : Str) : Token × Str := scan .initialWhitespace [] input

/-! ### Reading all tokens -/

lemma scan_length_le (state : TokenParserState) (value s : Str) :
    (scan state value s).2.length ≤ s.length := by
  fun_induction scan state value s <;> simp_all <;> omega

/-- Every token that is returned takes at least one character from the stream. -/
lemma scan_length_lt {state : TokenParserState} {value s : Str} (hstate : state ≠ .tokenTypeNormal)
    (heof : (scan state value s).1.type ≠ .eof) (herror : (scan state value s).1.type ≠ .error) :
    (scan state value s).2.length < s.length := by
  fun_induction scan state value s
  all_goals first
    | exact Nat.lt_of_le_of_lt (scan_length_le _ _ _) (by simp only [List.length_cons]; omega)
    | simp_all

lemma parseToken_length_lt {input : Str} (heof : (parseToken input).1.type ≠ .eof)
    (herror : (parseToken input).1.type ≠ .error) :
    (parseToken input).2.length < input.length :=
  scan_length_lt (by simp) heof herror

/-- The tokens `ParseToken` returns before the end of the file; `none` when it reports an error. -/
def tokenize (input : Str) : Option (List Token) :=
  if (parseToken input).1.type = .eof then some []
  else if (parseToken input).1.type = .error then none
  else (tokenize (parseToken input).2).map ((parseToken input).1 :: ·)
termination_by input.length
decreasing_by exact parseToken_length_lt ‹_› ‹_›

lemma tokenize_of_eof {input : Str} (h : (parseToken input).1.type = .eof) :
    tokenize input = some [] := by
  rw [tokenize, if_pos h]

lemma tokenize_of_error {input : Str} (h : (parseToken input).1.type = .error) :
    tokenize input = none := by
  rw [tokenize, if_neg (by simp [h]), if_pos h]

lemma tokenize_of_token {input : Str} (heof : (parseToken input).1.type ≠ .eof)
    (herror : (parseToken input).1.type ≠ .error) :
    tokenize input = (tokenize (parseToken input).2).map ((parseToken input).1 :: ·) := by
  rw [tokenize, if_neg heof, if_neg herror]

/-! ### The text of a token -/

/-- A character that begins a bare token. -/
def beginsBare (c : Char) : Bool :=
  !(endsToken c || c = '#' || c = '"' || c = '\'' || c = '\r')

/-- The text between two quotes `q`: `q` itself only stands behind a backslash. -/
inductive QuotedText (q : Char) : Str → Prop
  | nil : QuotedText q []
  | escape {s : Str} (hs : QuotedText q s) : QuotedText q ('\\' :: q :: s)
  | char {c : Char} {s : Str} (hq : c ≠ q) (hback : c = '\\' → s ≠ []) (hs : QuotedText q s) :
      QuotedText q (c :: s)

/-- The text of a `TOKEN_TYPE_NORMAL` token. -/
inductive TokenText : Str → Prop
  | bare {c : Char} {s : Str} (hc : beginsBare c = true) (hs : ∀ x ∈ s, endsToken x = false) :
      TokenText (c :: s)
  | quoted {q : Char} {s : Str} (hq : q = '"' ∨ q = '\'') (hs : QuotedText q s) :
      TokenText (q :: s ++ [q])

/-- The lexer state inside quotes `q`. -/
def quoteState (q : Char) : TokenParserState := if q = '"' then .doubleQuote else .singleQuote

lemma TokenText.ne_nil {t : Str} (h : TokenText t) : t ≠ [] := by
  cases h <;> simp

/-- A state that collects all characters but some collects a whole text without these. -/
lemma scan_collect {state : TokenParserState} {ends : Char → Bool}
    (hstep : ∀ value x rest, ends x = false →
      scan state value (x :: rest) = scan state (value ++ [x]) rest)
    (value : Str) {s : Str} (hs : ∀ x ∈ s, ends x = false) (rest : Str) :
    scan state value (s ++ rest) = scan state (value ++ s) rest := by
  induction s generalizing value with
  | nil => rw [List.nil_append, List.append_nil]
  | cons x xs ih =>
    obtain ⟨hx, hxs⟩ := List.forall_mem_cons.mp hs
    rw [List.cons_append, hstep _ _ _ hx, ih _ hxs, List.append_assoc, List.singleton_append]

lemma scan_normal_collect (value : Str) {s : Str} (hs : ∀ x ∈ s, endsToken x = false)
    (rest : Str) :
    scan .tokenTypeNormal value (s ++ rest) = scan .tokenTypeNormal (value ++ s) rest := by
  refine scan_collect (fun value x rest hx => ?_) value hs rest
  rw [scan, if_neg (by simp [hx])]

lemma scan_normal_append (value : Str) {s : Str} (hs : ∀ x ∈ s, endsToken x = false) {d : Char}
    (hd : endsToken d = true) (rest : Str) :
    scan .tokenTypeNormal value (s ++ d :: rest) = (⟨.normal, value ++ s⟩, d :: rest) := by
  rw [scan_normal_collect value hs, scan, if_pos hd]

lemma scan_normal_end (value : Str) {s : Str} (hs : ∀ x ∈ s, endsToken x = false) :
    scan .tokenTypeNormal value s = (⟨.eof, value ++ s⟩, []) := by
  have hcollect := scan_normal_collect value hs []
  rw [List.append_nil] at hcollect
  rw [hcollect]
  simp [scan]

/-- One character between quotes, with the character behind it. -/
lemma scan_quote_cons {q : Char} (hq : q = '"' ∨ q = '\'') (value : Str) (c ch : Char) (rest : Str) :
    scan (quoteState q) value (c :: ch :: rest) =
      if c = '\\' ∧ ch = q then scan (quoteState q) (value ++ [c, ch]) rest
      else if c = q then
        if endsToken ch then (⟨.normal, value ++ [c]⟩, ch :: rest)
        else (⟨.error, value ++ [c]⟩, rest)
      else scan (quoteState q) (value ++ [c]) (ch :: rest) := by
  rcases hq with rfl | rfl
  · rw [show quoteState '"' = .doubleQuote from rfl, scan]
  · rw [show quoteState '\'' = .singleQuote from rfl, scan]

lemma QuotedText.head_ne {q : Char} {s : Str} (hq : q ≠ '\\') (h : QuotedText q s) :
    ∀ c ∈ s.head?, c ≠ q := by
  cases h with
  | nil => simp
  | escape => simpa using hq.symm
  | char hc => simpa using hc

lemma scan_quote_append {q : Char} (hq : q = '"' ∨ q = '\'') {s : Str} (hs : QuotedText q s)
    (value : Str) (d : Char) (rest : Str) :
    scan (quoteState q) value (s ++ q :: d :: rest) =
      if endsToken d then (⟨.normal, value ++ s ++ [q]⟩, d :: rest)
      else (⟨.error, value ++ s ++ [q]⟩, rest) := by
  have hback : q ≠ '\\' := by rcases hq with rfl | rfl <;> decide
  induction hs generalizing value with
  | nil => simp [scan_quote_cons hq, hback]
  | escape hs ih =>
    rw [List.cons_append, List.cons_append, scan_quote_cons hq, if_pos ⟨rfl, rfl⟩, ih]
    simp
  | @char c s hc hne hs ih =>
    obtain ⟨x, tail, hx, hxq⟩ : ∃ x tail, s ++ q :: d :: rest = x :: tail ∧ (c = '\\' → x ≠ q) := by
      cases s with
      | nil => exact ⟨q, d :: rest, rfl, fun h => absurd rfl (hne h)⟩
      | cons x xs => exact ⟨x, xs ++ q :: d :: rest, rfl, fun _ => hs.head_ne hback x rfl⟩
    rw [List.cons_append, hx, scan_quote_cons hq, if_neg fun h => hxq h.1 h.2, if_neg hc, ← hx, ih]
    simp

/-! ### What one call reads -/

/-- The lexer passes over blanks between tokens. -/
def isBlank (c : Char) : Bool := c = ' ' || c = '\t' || c = '\n' || c = '\r'

/-- The characters that end a comment. -/
def endsComment (c : Char) : Bool := c = '\n' || c = '\r'

/-- A comment, without the character that ends it. -/
inductive CommentText : Str → Prop
  | mk {s : Str} (hs : ∀ x ∈ s, endsComment x = false) : CommentText ('#' :: s)

/-- A token without quotes. -/
inductive BareText : Str → Prop
  | mk {c : Char} {s : Str} (hc : beginsBare c = true) (hs : ∀ x ∈ s, endsToken x = false) :
      BareText (c :: s)

/-- The delimiters with their tokens. -/
inductive Delimiter : Char → TokenType → Prop
  | startBlock : Delimiter '{' .startBlock
  | endBlock : Delimiter '}' .endBlock
  | statementEnd : Delimiter ';' .statementEnd

/-- What the lexer reads to the end of the file without returning a token. -/
def Ending (s : Str) : Prop := s = [] ∨ CommentText s ∨ BareText s

/-- A token in quotes that is closed where a token may end. -/
def Closes (q : Char) (s : Str) : Prop :=
  ∃ b d rest, s = b ++ q :: d :: rest ∧ QuotedText q b ∧ endsToken d = true

/-- What a call returns and leaves, for a text that does not begin with a blank. -/
inductive Lexeme : Str → Token → Str → Prop
  | ended {s : Str} (hs : Ending s) : Lexeme s ⟨.eof, s⟩ []
  | comment {t s : Str} {c : Char} (ht : CommentText t) (hc : endsComment c = true) :
      Lexeme (t ++ c :: s) ⟨.comment, t⟩ s
  | delimiter {c : Char} {type : TokenType} {s : Str} (hc : Delimiter c type) :
      Lexeme (c :: s) ⟨type, [c]⟩ s
  | text {t s : Str} {d : Char} (ht : TokenText t) (hd : endsToken d = true) :
      Lexeme (t ++ d :: s) ⟨.normal, t⟩ (d :: s)
  | unclosed {q : Char} {s value rest : Str} (hq : q = '"' ∨ q = '\'') (hs : ¬ Closes q s) :
      Lexeme (q :: s) ⟨.error, value⟩ rest

lemma parseToken_blank {c : Char} (hc : isBlank c = true) (s : Str) :
    parseToken (c :: s) = parseToken s := by
  simp only [isBlank, Bool.or_eq_true, decide_eq_true_eq, or_assoc] at hc
  rw [parseToken, scan]
  rcases hc with rfl | rfl | rfl | rfl <;> rfl

lemma parseToken_delimiter {c : Char} {type : TokenType} (hc : Delimiter c type) (s : Str) :
    parseToken (c :: s) = (⟨type, [c]⟩, s) := by
  cases hc <;> rw [parseToken, scan] <;> rfl

lemma parseToken_quote {q : Char} (hq : q = '"' ∨ q = '\'') (s : Str) :
    parseToken (q :: s) = scan (quoteState q) [q] s := by
  rcases hq with rfl | rfl <;> rw [parseToken, scan] <;> simp [quoteState]

lemma parseToken_bare {c : Char} (hc : beginsBare c = true) (s : Str) :
    parseToken (c :: s) = scan .tokenTypeNormal [c] s := by
  simp only [beginsBare, endsToken, Bool.not_eq_true', Bool.or_eq_false_iff,
    decide_eq_false_iff_not] at hc
  rw [parseToken, scan]
  simp [hc]

/-- The text of a token is read back when a blank or a delimiter follows. -/
lemma parseToken_text {t : Str} (ht : TokenText t) {d : Char} (hd : endsToken d = true)
    (rest : Str) : parseToken (t ++ d :: rest) = (⟨.normal, t⟩, d :: rest) := by
  cases ht with
  | @bare c s hc hs =>
    rw [List.cons_append, parseToken_bare hc, scan_normal_append _ hs hd, List.singleton_append]
  | @quoted q s hq hs =>
    rw [List.append_assoc, List.cons_append, List.singleton_append, parseToken_quote hq,
      scan_quote_append hq hs, if_pos hd]
    simp

lemma scan_comment_collect (value : Str) {s : Str} (hs : ∀ x ∈ s, endsComment x = false)
    (rest : Str) :
    scan .tokenTypeComment value (s ++ rest) = scan .tokenTypeComment (value ++ s) rest := by
  refine scan_collect (fun value x rest hx => ?_) value hs rest
  rw [scan, if_neg (by simpa [endsComment] using hx)]

lemma scan_comment_append (value : Str) {s : Str} (hs : ∀ x ∈ s, endsComment x = false) {c : Char}
    (hc : endsComment c = true) (rest : Str) :
    scan .tokenTypeComment value (s ++ c :: rest) = (⟨.comment, value ++ s⟩, rest) := by
  rw [scan_comment_collect value hs, scan, if_pos (by simpa [endsComment] using hc)]

lemma scan_comment_end (value : Str) {s : Str} (hs : ∀ x ∈ s, endsComment x = false) :
    scan .tokenTypeComment value s = (⟨.eof, value ++ s⟩, []) := by
  have hcollect := scan_comment_collect value hs []
  rw [List.append_nil] at hcollect
  rw [hcollect]
  simp [scan]

lemma parseToken_comment {t : Str} (ht : CommentText t) {c : Char} (hc : endsComment c = true)
    (rest : Str) : parseToken (t ++ c :: rest) = (⟨.comment, t⟩, rest) := by
  obtain ⟨hs⟩ := ht
  rw [List.cons_append, parseToken, scan]
  exact scan_comment_append ['#'] hs hc rest

/-- A comment or a bare token at the end of the file is not returned. -/
lemma parseToken_ending {s : Str} (hs : Ending s) : parseToken s = (⟨.eof, s⟩, []) := by
  rcases hs with rfl | hcomment | hbare
  · simp [parseToken, scan]
  · obtain ⟨hs⟩ := hcomment
    rw [parseToken, scan]
    exact scan_comment_end ['#'] hs
  · obtain ⟨hc, hs⟩ := hbare
    rw [parseToken_bare hc, scan_normal_end _ hs, List.singleton_append]

lemma scan_quote_error {q : Char} (hq : q = '"' ∨ q = '\'') (value : Str) {s : Str}
    (hs : ¬ Closes q s) : (scan (quoteState q) value s).1.type = .error := by
  match s, hs with
  | [], _ => rcases hq with rfl | rfl <;> simp [quoteState, scan]
  | [c], _ => rcases hq with rfl | rfl <;> simp [quoteState, scan]
  | c :: ch :: rest, hs =>
    rw [scan_quote_cons hq]
    split_ifs with hesc hclose hend
    · refine scan_quote_error hq _ ?_
      rintro ⟨b, d, rest', rfl, hb, hd⟩
      obtain ⟨rfl, rfl⟩ := hesc
      exact hs ⟨_, d, rest', rfl, .escape hb, hd⟩
    · exact absurd ⟨[], ch, rest, by rw [hclose, List.nil_append], .nil, hend⟩ hs
    · rfl
    · refine scan_quote_error hq _ ?_
      rintro ⟨b, d, rest', heq, hb, hd⟩
      refine hs ⟨c :: b, d, rest', by rw [heq, List.cons_append], .char hclose ?_ hb, hd⟩
      -- a backslash before the closing quote would escape it
      rintro rfl rfl
      exact hesc ⟨rfl, (List.cons.inj heq).1⟩

/-! ### One call reads one lexeme -/

lemma lexeme_quote {c : Char} (hquote : c = '"' ∨ c = '\'') (rest : Str) :
    Lexeme (c :: rest) (parseToken (c :: rest)).1 (parseToken (c :: rest)).2 := by
  by_cases hcloses : Closes c rest
  · obtain ⟨b, d, rest', rfl, hb, hd⟩ := hcloses
    have htext := Lexeme.text (s := rest') (.quoted hquote hb) hd
    have hparse := parseToken_text (.quoted hquote hb) hd rest'
    rw [List.append_assoc, List.cons_append, List.singleton_append] at htext hparse
    rwa [hparse]
  · have herror := scan_quote_error hquote [c] hcloses
    rw [parseToken_quote hquote]
    generalize scan (quoteState c) [c] rest = result at herror ⊢
    obtain ⟨⟨type, value⟩, rest'⟩ := result
    obtain rfl : type = .error := herror
    exact .unclosed hquote hcloses

lemma lexeme_comment (rest : Str) :
    Lexeme ('#' :: rest) (parseToken ('#' :: rest)).1 (parseToken ('#' :: rest)).2 := by
  rcases split_or_forall endsComment rest with ⟨b, d, rest', rfl, hb, hd⟩ | hrest
  · have hparse := parseToken_comment (.mk hb) hd rest'
    rw [List.cons_append] at hparse
    rw [hparse]
    exact .comment (.mk hb) hd
  · rw [parseToken_ending (Or.inr (Or.inl (.mk hrest)))]
    exact .ended (Or.inr (Or.inl (.mk hrest)))

lemma lexeme_bare {c : Char} (hbare : beginsBare c = true) (rest : Str) :
    Lexeme (c :: rest) (parseToken (c :: rest)).1 (parseToken (c :: rest)).2 := by
  rcases split_or_forall endsToken rest with ⟨b, d, rest', rfl, hb, hd⟩ | hrest
  · have hparse := parseToken_text (.bare hbare hb) hd rest'
    rw [List.cons_append] at hparse
    rw [hparse]
    exact .text (.bare hbare hb) hd
  · rw [parseToken_ending (Or.inr (Or.inr (.mk hbare hrest)))]
    exact .ended (Or.inr (Or.inr (.mk hbare hrest)))

/-- What is no blank, delimiter, quote or `#` begins a bare token. -/
lemma beginsBare_of_not {c : Char} (hblank : ¬ isBlank c = true)
    (hdelimiter : ¬ ∃ type, Delimiter c type) (hquote : ¬ (c = '"' ∨ c = '\''))
    (hcomment : c ≠ '#') : beginsBare c = true := by
  have hother : c ≠ '{' ∧ c ≠ '}' ∧ c ≠ ';' := by
    refine ⟨?_, ?_, ?_⟩ <;> rintro rfl
    · exact hdelimiter ⟨_, .startBlock⟩
    · exact hdelimiter ⟨_, .endBlock⟩
    · exact hdelimiter ⟨_, .statementEnd⟩
  simp_all [beginsBare, endsToken, isBlank]

lemma lexeme_of_not_blank {c : Char} (hc : ¬ isBlank c = true) (rest : Str) :
    Lexeme (c :: rest) (parseToken (c :: rest)).1 (parseToken (c :: rest)).2 := by
  by_cases hdelimiter : ∃ type, Delimiter c type
  · obtain ⟨type, htype⟩ := hdelimiter
    rw [parseToken_delimiter htype]
    exact .delimiter htype
  by_cases hquote : c = '"' ∨ c = '\''
  · exact lexeme_quote hquote rest
  by_cases hcomment : c = '#'
  · subst hcomment
    exact lexeme_comment rest
  · exact lexeme_bare (beginsBare_of_not hc hdelimiter hquote hcomment) rest

/-- Blanks are passed over, and then one lexeme is read. -/
lemma parseToken_lexeme (input : Str) :
    ∃ w s, input = w ++ s ∧ (∀ c ∈ w, isBlank c = true) ∧
      Lexeme s (parseToken input).1 (parseToken input).2 := by
  induction input with
  | nil => exact ⟨[], [], rfl, by simp, parseToken_ending (Or.inl rfl) ▸ .ended (Or.inl rfl)⟩
  | cons c rest ih =>
    by_cases hblank : isBlank c = true
    · obtain ⟨w, s, rfl, hw, hs⟩ := ih
      refine ⟨c :: w, s, rfl, List.forall_mem_cons.mpr ⟨hblank, hw⟩, ?_⟩
      rwa [parseToken_blank hblank]
    · exact ⟨[], c :: rest, rfl, by simp, lexeme_of_not_blank hblank rest⟩

/-- A `TOKEN_TYPE_NORMAL` token carries the text of a token. -/
lemma parseToken_value {input : Str} (h : (parseToken input).1.type = .normal) :
    TokenText (parseToken input).1.value := by
  obtain ⟨w, s, -, -, hs⟩ := parseToken_lexeme input
  generalize (parseToken input).1 = token, (parseToken input).2 = rest at hs h
  cases hs with
  | ended | comment | unclosed => cases h
  | delimiter hc => cases hc <;> cases h
  | text ht hd => exact ht

end SocialNetworkApp
