import SocialNetworkApp.Config.ParserCorrect

/-!
# Printing and parsing

A derivation of the grammar whose tokens carry the text the lexer gives them can be printed: the
lexer finds in the text the tokens of a derivation of the same tree, at any depth of indentation.
-/

namespace SocialNetworkApp

open SocialNetworkApp.Core

/-! ### The tokens in a printed text -/

lemma tokenize_blank {c : Char} (hc : isBlank c = true) (s : Str) :
    tokenize (c :: s) = tokenize s := by
  rw [tokenize, parseToken_blank hc, ← tokenize]

lemma tokenize_blanks {w : Str} (hw : ∀ c ∈ w, isBlank c = true) (s : Str) :
    tokenize (w ++ s) = tokenize s := by
  induction w with
  | nil => rfl
  | cons c w ih =>
    rw [List.cons_append, tokenize_blank (hw c (by simp))]
    exact ih fun x hx => hw x (by simp [hx])

lemma tokenize_indentation (depth : CInt) (s : Str) :
    tokenize (indentation depth ++ s) = tokenize s := by
  refine tokenize_blanks ?_ s
  intro c hc
  obtain ⟨l, hl, hcl⟩ := List.mem_flatten.mp hc
  rw [List.eq_of_mem_replicate hl] at hcl
  obtain rfl : c = ' ' := List.eq_of_mem_replicate (show c ∈ List.replicate 2 ' ' from hcl)
  rfl

/-- The delimiters are tokens of their own. -/
lemma tokenize_delimiter {c : Char} {type : TokenType} (hc : Delimiter c type) (s : Str) :
    tokenize (c :: s) = (tokenize s).map (⟨type, [c]⟩ :: ·) := by
  have hparse := parseToken_delimiter hc s
  have htype : type ≠ .eof ∧ type ≠ .error := by
    cases hc <;> simp
  rw [tokenize_of_token (by rw [hparse]; exact htype.1) (by rw [hparse]; exact htype.2), hparse]

lemma tokenize_text {t : Str} (ht : TokenText t) {d : Char} (hd : endsToken d = true) (s : Str) :
    tokenize (t ++ d :: s) = (tokenize (d :: s)).map (⟨.normal, t⟩ :: ·) := by
  have hparse := parseToken_text ht hd s
  rw [tokenize_of_token (by rw [hparse]; simp) (by rw [hparse]; simp), hparse]

/-- The tokens of a statement, with blanks between them. -/
lemma tokenize_texts {vs : List Str} (hvs : vs ≠ []) (htexts : ∀ v ∈ vs, TokenText v) {d : Char}
    (hd : endsToken d = true) (s : Str) :
    tokenize ([' '].intercalate vs ++ d :: s) =
      (tokenize (d :: s)).map (vs.map (Token.mk .normal) ++ ·) := by
  induction vs with
  | nil => exact absurd rfl hvs
  | cons v vs ih =>
    have hv : TokenText v := htexts v (by simp)
    cases vs with
    | nil => simpa using tokenize_text hv hd s
    | cons w ws =>
      have htail := ih (by simp) fun x hx => htexts x (by simp [hx])
      have hsplit : [' '].intercalate (v :: w :: ws) ++ d :: s =
          v ++ ' ' :: ([' '].intercalate (w :: ws) ++ d :: s) := by
        simp [List.intercalate]
      rw [hsplit, tokenize_text hv rfl, tokenize_blank rfl, htail, Option.map_map]
      rfl

/-- A token of type `NORMAL` carries the text of a token. -/
def HasText (ts : List Token) : Prop := ∀ t ∈ ts, t.type = .normal → TokenText t.value

lemma HasText.of_append {ts us : List Token} (h : HasText (ts ++ us)) : HasText ts ∧ HasText us :=
  ⟨fun t ht => h t (by simp [ht]), fun t ht => h t (by simp [ht])⟩

lemma HasText.texts {vs : List Str} (h : HasText (vs.map (Token.mk .normal))) :
    ∀ v ∈ vs, TokenText v :=
  fun v hv => h ⟨.normal, v⟩ (List.mem_map_of_mem hv) rfl

lemma tokenize_hasText {input : Str} {ts : List Token} (h : tokenize input = some ts) :
    HasText ts := by
  fun_induction tokenize input generalizing ts with
  | case1 input heof =>
    obtain rfl : [] = ts := by simpa using h
    simp [HasText]
  | case2 input heof herror => simp at h
  | case3 input heof herror ih =>
    obtain ⟨us, hus, rfl⟩ := Option.map_eq_some_iff.mp h
    intro t ht htype
    rcases List.mem_cons.mp ht with rfl | ht
    · exact parseToken_value htype
    · exact ih hus t ht htype

/-! ### Trees -/

mutual
/-- The tokens of printed statements derive these statements. -/
lemma tokenize_statementsToStr {ts : List Token} {ss : List NginxConfigStatement}
    (h : ConfigOf ts ss) (hts : HasText ts) :
    ∃ ts', ConfigOf ts' ss ∧ ∀ depth rest,
      tokenize (statementsToStr depth ss ++ rest) = (tokenize rest).map (ts' ++ ·) := by
  match h with
  | .nil => exact ⟨[], .nil, by simp [statementsToStr]⟩
  | .cons hs hss =>
    obtain ⟨us, hus, hprint⟩ := tokenize_statementToStr hs hts.of_append.1
    obtain ⟨ws, hws, hprints⟩ := tokenize_statementsToStr hss hts.of_append.2
    refine ⟨us ++ ws, .cons hus hws, ?_⟩
    intro depth rest
    rw [statementsToStr, List.append_assoc, hprint, hprints, Option.map_map]
    simp [Function.comp_def]

lemma tokenize_statementToStr {ts : List Token} {s : NginxConfigStatement}
    (h : StatementOf ts s) (hts : HasText ts) :
    ∃ ts', StatementOf ts' s ∧ ∀ depth rest,
      tokenize (s.toStr depth ++ rest) = (tokenize rest).map (ts' ++ ·) := by
  match h with
  | @StatementOf.simple vs semicolon hvs hsemicolon =>
    refine ⟨_, .simple hvs (show Token.type ⟨.statementEnd, [';']⟩ = .statementEnd from rfl), ?_⟩
    intro depth rest
    have htexts := hts.of_append.1.texts
    simp only [NginxConfigStatement.toStr, List.append_assoc, List.cons_append, List.nil_append]
    rw [tokenize_indentation, tokenize_texts hvs htexts rfl, tokenize_delimiter .statementEnd,
      tokenize_blank rfl, Option.map_map]
    simp [Function.comp_def]
  | @StatementOf.block vs opening closing ts ss hvs hopening hclosing hss =>
    have htexts := hts.of_append.1.texts
    have hblock : HasText (ts ++ [closing]) := fun t ht => hts t (by simp at ht; simp [ht])
    obtain ⟨us, hus, hprint⟩ := tokenize_statementsToStr hss hblock.of_append.1
    refine ⟨_, .block hvs (show Token.type ⟨.startBlock, ['{']⟩ = .startBlock from rfl)
      (show Token.type ⟨.endBlock, ['}']⟩ = .endBlock from rfl) hus, ?_⟩
    intro depth rest
    simp only [NginxConfigStatement.toStr, NginxConfig.toStr, List.append_assoc,
      List.cons_append, List.nil_append]
    rw [tokenize_indentation, tokenize_texts hvs htexts rfl, tokenize_blank rfl,
      tokenize_delimiter .startBlock, tokenize_blank rfl, hprint, tokenize_indentation,
      tokenize_delimiter .endBlock, tokenize_blank rfl]
    simp [Function.comp_def]
end

mutual
lemma ConfigOf.not_comment {ts : List Token} {ss : List NginxConfigStatement}
    (h : ConfigOf ts ss) : ∀ t ∈ ts, t.type ≠ .comment := by
  match h with
  | .nil => simp
  | .cons hs hss =>
    intro t ht
    rcases List.mem_append.mp ht with ht | ht
    · exact hs.not_comment t ht
    · exact hss.not_comment t ht

lemma StatementOf.not_comment {ts : List Token} {s : NginxConfigStatement}
    (h : StatementOf ts s) : ∀ t ∈ ts, t.type ≠ .comment := by
  match h with
  | .simple hvs hsemicolon =>
    intro t ht
    simp only [List.mem_append, List.mem_map, List.mem_singleton] at ht
    rcases ht with ⟨v, -, rfl⟩ | rfl
    · simp
    · simp [hsemicolon]
  | .block hvs hopening hclosing hss =>
    intro t ht
    simp only [List.mem_append, List.mem_map, List.mem_cons, List.not_mem_nil, or_false] at ht
    rcases ht with ⟨v, -, rfl⟩ | rfl | ht | rfl
    · simp
    · simp [hopening]
    · exact hss.not_comment t ht
    · simp [hclosing]
end

lemma withoutComments_of_configOf {ts : List Token} {ss : List NginxConfigStatement}
    (h : ConfigOf ts ss) : withoutComments ts = ts := by
  refine List.filter_eq_self.mpr ?_
  intro t ht
  simpa using h.not_comment t ht

/-- A text whose tokens derive a configuration is parsed to it. -/
lemma parse_of_configOf {input : Str} {ts : List Token} {ss : List NginxConfigStatement}
    (hts : tokenize input = some ts) (h : ConfigOf ts ss) :
    parse input = .returned true (.mk ss) := by
  refine (parse_eq_returned_true_iff hts).mpr ⟨[ss], ?_, rfl, ?_⟩
  · rw [withoutComments_of_configOf h]
    exact .root h
  · rw [withoutComments_of_configOf h]
    exact h.getLast_ne_startBlock

/-- A tree that was parsed has a derivation whose tokens carry the text the lexer gave them. -/
lemma configOf_of_parse {input : Str} {c : NginxConfig} (h : parse input = .returned true c) :
    ∃ ts, ConfigOf ts c.statements ∧ HasText ts := by
  obtain ⟨ts, -, hts, -⟩ := parseLoop_eq_returned_true_iff.mp h
  obtain ⟨stack, hopen, rfl, -⟩ := (parse_eq_returned_true_iff hts).mp h
  obtain ⟨k, hk⟩ := Nat.exists_eq_succ_of_ne_zero
    (List.length_eq_zero_iff.not.mpr hopen.ne_nil)
  -- the blocks the file leaves open may as well be closed
  refine ⟨_, hopen.closeAll (show Token.type ⟨.endBlock, ['}']⟩ = .endBlock from rfl) hk, ?_⟩
  intro t ht htype
  rcases List.mem_append.mp ht with ht | ht
  · exact tokenize_hasText hts t (List.mem_filter.mp ht).1 htype
  · rw [List.eq_of_mem_replicate ht] at htype
    cases htype

/-- Statements that are derived from texts the lexer can give are parsed from what is printed. -/
lemma parse_toStr_of_configOf {ts : List Token} {ss : List NginxConfigStatement}
    (hts : ConfigOf ts ss) (htexts : HasText ts) (depth : CInt) :
    parse ((NginxConfig.mk ss).toStr depth) = .returned true (.mk ss) := by
  obtain ⟨us, hus, hprint⟩ := tokenize_statementsToStr hts htexts
  have htokens : tokenize (NginxConfig.toStr depth (.mk ss)) = some us := by
    have := hprint depth []
    rw [List.append_nil, tokenize_of_eof (show (parseToken []).1.type = .eof from rfl)] at this
    simpa [NginxConfig.toStr] using this
  exact parse_of_configOf htokens hus

/-- A tree that was parsed is parsed again from what is printed, at any depth. -/
theorem parse_toStr {input : Str} {c : NginxConfig} (h : parse input = .returned true c)
    (depth : CInt) : parse (c.toStr depth) = .returned true c := by
  obtain ⟨ss⟩ := c
  obtain ⟨ts, hts, htexts⟩ := configOf_of_parse h
  exact parse_toStr_of_configOf hts htexts depth

/-- The text `a{b 'c\'';}`, printed at depth zero and parsed again. -/
theorem parse_toStr_quoted :
    parse (NginxConfig.toStr 0 (.mk [.mk [['a']]
        (some (.mk [.mk [['b'], ['\'', 'c', '\\', '\'', '\'']] none]))])) =
      .returned true (.mk [.mk [['a']]
        (some (.mk [.mk [['b'], ['\'', 'c', '\\', '\'', '\'']] none]))]) := by
  have htokens : tokenize ['a', '{', 'b', ' ', '\'', 'c', '\\', '\'', '\'', ';', '}'] =
      some ([['a']].map (Token.mk .normal) ++ ⟨.startBlock, ['{']⟩ ::
        (([['b'], ['\'', 'c', '\\', '\'', '\'']].map (Token.mk .normal) ++
          [⟨.statementEnd, [';']⟩]) ++ [⟨.endBlock, ['}']⟩])) := by
    rw [tokenize_of_token (by decide) (by decide), tokenize_of_token (by decide) (by decide),
      tokenize_of_token (by decide) (by decide), tokenize_of_token (by decide) (by decide),
      tokenize_of_token (by decide) (by decide), tokenize_of_token (by decide) (by decide),
      tokenize_of_eof (by decide)]
    rfl
  have hconfig := StatementOf.block (show [['a']] ≠ [] by simp)
    (show Token.type ⟨.startBlock, ['{']⟩ = .startBlock from rfl)
    (show Token.type ⟨.endBlock, ['}']⟩ = .endBlock from rfl)
    (StatementOf.simple (show [['b'], ['\'', 'c', '\\', '\'', '\'']] ≠ [] by simp)
      (show Token.type ⟨.statementEnd, [';']⟩ = .statementEnd from rfl)).toConfigOf
  exact parse_toStr (parse_of_configOf htokens hconfig.toConfigOf) 0

end SocialNetworkApp
