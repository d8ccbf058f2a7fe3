import SocialNetworkApp.Config.Lossless
import SocialNetworkApp.Config.ParserSafety

/-!
# Line endings

A file whose lines end with LF is compared with the same file whose lines end with CR LF. Between
tokens and behind comments the CR is skipped; directly behind a token it is not: there it becomes a
part of a token without quotes, and a token in quotes is refused.
-/

namespace SocialNetworkApp

open SocialNetworkApp.Core

/-- Every LF replaced by CR LF. -/
def crlf (t : Str) : Str := t.flatMap fun c => if c = '\n' then ['\r', '\n'] else [c]

/-- `Parse` returns the same flag for both texts, and the same tree where it returns true. -/
def SameParse (t t' : Str) : Prop :=
  ∃ flag c c', parse t = .returned flag c ∧ parse t' = .returned flag c' ∧ (flag = true → c = c')

/-- The tokens may be the beginning of a configuration, and the last one opens no block. -/
def Accepts (t : Str) : Prop :=
  ∃ us rest stack, Reads t us rest ∧ Ending rest ∧ OpenOf us stack ∧
    us.getLast?.map Token.type ≠ some .startBlock

/-- A line ends directly behind a token. -/
def TokenBeforeNewline (t : Str) : Prop := ∃ us v s, Reads t us (v ++ '\n' :: s) ∧ TokenText v

/-- A token holds a line break. -/
def NewlineInToken (t : Str) : Prop := ∃ us rest, Reads t us rest ∧ ∃ u ∈ us, '\n' ∈ u.value

/-! ### The two texts -/

@[simp] lemma crlf_nil : crlf [] = [] := rfl

@[simp] lemma crlf_newline (s : Str) : crlf ('\n' :: s) = '\r' :: '\n' :: crlf s := rfl

lemma crlf_cons {c : Char} (hc : c ≠ '\n') (s : Str) : crlf (c :: s) = c :: crlf s := by
  simp [crlf, hc]

lemma crlf_append (s s' : Str) : crlf (s ++ s') = crlf s ++ crlf s' := List.flatMap_append

lemma crlf_eq_self {s : Str} (hs : '\n' ∉ s) : crlf s = s := by
  induction s with
  | nil => rfl
  | cons c s ih =>
    rw [List.mem_cons, not_or] at hs
    rw [crlf_cons (Ne.symm hs.1), ih hs.2]

/-- A character that belongs to no line ending stands in both texts. -/
lemma exists_of_crlf_eq_append {s b r : Str} {c : Char} (hcr : c ≠ '\r') (hlf : c ≠ '\n')
    (h : crlf s = b ++ c :: r) : ∃ b' r', s = b' ++ c :: r' ∧ crlf b' = b ∧ crlf r' = r := by
  induction s generalizing b with
  | nil => simp at h
  | cons x s ih =>
    by_cases hx : x = '\n'
    · subst hx
      match b, h with
      | [], h => exact absurd (List.cons.inj h).1.symm hcr
      | [_], h => exact absurd (List.cons.inj (List.cons.inj h).2).1.symm hlf
      | y :: z :: b, h =>
        simp only [crlf_newline, List.cons_append, List.cons.injEq] at h
        obtain ⟨rfl, rfl, h⟩ := h
        obtain ⟨b', r', rfl, rfl, rfl⟩ := ih h
        exact ⟨'\n' :: b', r', rfl, rfl, rfl⟩
    · rw [crlf_cons hx] at h
      cases b with
      | nil =>
        obtain ⟨rfl, rfl⟩ := List.cons.inj h
        exact ⟨[], s, rfl, rfl, rfl⟩
      | cons y b =>
        obtain ⟨rfl, htail⟩ := List.cons.inj h
        obtain ⟨b', r', rfl, rfl, rfl⟩ := ih htail
        exact ⟨x :: b', r', rfl, crlf_cons hx _, rfl⟩

lemma exists_of_crlf_eq_cons {s r : Str} {c : Char} (hcr : c ≠ '\r') (hlf : c ≠ '\n')
    (h : crlf s = c :: r) : ∃ r', s = c :: r' ∧ crlf r' = r := by
  obtain ⟨b, r', rfl, hb, rfl⟩ := exists_of_crlf_eq_append (b := []) hcr hlf h
  cases b with
  | nil => exact ⟨r', rfl, rfl⟩
  | cons x b => by_cases hx : x = '\n' <;> simp [crlf, hx] at hb

/-! ### Quotes -/

lemma QuotedText.tail {q c : Char} {s : Str} (hc : c ≠ '\\') (h : QuotedText q (c :: s)) :
    c ≠ q ∧ QuotedText q s := by
  cases h with
  | escape => exact absurd rfl hc
  | char hq hback hs => exact ⟨hq, hs⟩

lemma QuotedText.of_crlf {q : Char} (hq : q = '"' ∨ q = '\'') {b : Str}
    (h : QuotedText q (crlf b)) : QuotedText q b := by
  induction hn : b.length using Nat.strong_induction_on generalizing b with
  | _ n ih =>
    subst hn
    match b with
    | [] => exact .nil
    | c :: b =>
      by_cases hc : c = '\n'
      · subst hc
        obtain ⟨-, h⟩ := h.tail (by decide)
        obtain ⟨hne, h⟩ := h.tail (by decide)
        exact .char hne (by simp) (ih b.length (by simp) h rfl)
      rw [crlf_cons hc] at h
      by_cases hback : c = '\\'
      · subst hback
        generalize htail : crlf b = tail at h
        cases h with
        | @escape s hs =>
          obtain ⟨r, rfl, rfl⟩ := exists_of_crlf_eq_cons
            (by rcases hq with rfl | rfl <;> decide) (by rcases hq with rfl | rfl <;> decide) htail
          exact .escape (ih r.length (by simp only [List.length_cons]; omega) hs rfl)
        | char hq hne hs =>
          subst htail
          refine .char hq ?_ (ih b.length (by simp) hs rfl)
          rintro - rfl
          exact hne rfl rfl
      · obtain ⟨hne, h⟩ := h.tail hback
        exact .char hne (fun heq => absurd heq hback) (ih b.length (by simp) h rfl)

/-- Quotes that are not closed where a token may end are not closed in the other text either. -/
lemma Closes.of_crlf {q : Char} (hq : q = '"' ∨ q = '\'') {s : Str} (h : Closes q (crlf s)) :
    Closes q s := by
  obtain ⟨b, d, rest, hs, hb, hd⟩ := h
  obtain ⟨b', r, rfl, rfl, hr⟩ := exists_of_crlf_eq_append
    (by rcases hq with rfl | rfl <;> decide) (by rcases hq with rfl | rfl <;> decide) hs
  cases r with
  | nil => cases hr
  | cons c r =>
    refine ⟨b', c, r, rfl, hb.of_crlf hq, ?_⟩
    by_cases hc : c = '\n'
    · rw [hc]
      rfl
    · rw [crlf_cons hc] at hr
      rwa [(List.cons.inj hr).1]

/-- A CR may not follow a token in quotes. -/
lemma tokenize_quoted_cr {q : Char} (hq : q = '"' ∨ q = '\'') {s : Str} (hs : QuotedText q s)
    (rest : Str) : tokenize (q :: s ++ [q] ++ '\r' :: rest) = none := by
  apply tokenize_of_error
  rw [List.append_assoc, List.cons_append, List.singleton_append, parseToken_quote hq,
    scan_quote_append hq hs]
  rfl

/-! ### Tokens of the other text -/

lemma TokenBeforeNewline.of_reads {t s : Str} {us : List Token} (h : Reads t us s) :
    TokenBeforeNewline s → TokenBeforeNewline t := by
  rintro ⟨vs, v, rest, hreads, hv⟩
  exact ⟨_, v, rest, h.trans hreads, hv⟩

lemma NewlineInToken.of_reads {t s : Str} {us : List Token} (h : Reads t us s) :
    NewlineInToken s → NewlineInToken t := by
  rintro ⟨vs, rest, hreads, v, hv, hnewline⟩
  exact ⟨_, rest, h.trans hreads, v, List.mem_append_right _ hv, hnewline⟩

/-- While `us` is read from `t`, tokens of the same types are read from the other text, or an error
is found there; and the tokens are the same unless a line ends directly behind one. -/
def ReadsAlong (t : Str) (us : List Token) (rest : Str) : Prop :=
  (TokenBeforeNewline t ∧ tokenize (crlf t) = none) ∨
    ∃ us', Continues (crlf t) us' (crlf rest) ∧ us'.map Token.type = us.map Token.type ∧
      (¬ TokenBeforeNewline t → us' = us)

namespace ReadsAlong

variable {t s rest : Str} {us vs : List Token}

lemma same (h : Continues (crlf t) us (crlf rest)) : ReadsAlong t us rest :=
  Or.inr ⟨us, h, rfl, fun _ => rfl⟩

lemma trans (hreads : Reads t us s) (h : ReadsAlong t us s) (h' : ReadsAlong s vs rest) :
    ReadsAlong t (us ++ vs) rest := by
  rcases h with hnone | ⟨us', hus', htypes, hsame⟩
  · exact Or.inl hnone
  rcases h' with ⟨hnewline, hnone⟩ | ⟨vs', hvs', htypes', hsame'⟩
  · exact Or.inl ⟨hnewline.of_reads hreads, hus'.tokenize_eq_none hnone⟩
  · refine Or.inr ⟨us' ++ vs', hus'.trans hvs', by rw [List.map_append, htypes, htypes',
      List.map_append], fun hnewline => ?_⟩
    rw [hsame hnewline, hsame' (mt (TokenBeforeNewline.of_reads hreads) hnewline)]

end ReadsAlong

lemma readsAlong_blank {c : Char} (hc : isBlank c = true) (s : Str) : ReadsAlong (c :: s) [] s := by
  apply ReadsAlong.same
  by_cases hnewline : c = '\n'
  · subst hnewline
    exact .blank rfl (.blank rfl (.refl _))
  · rw [crlf_cons hnewline]
    exact .blank hc (.refl _)

lemma readsAlong_comment {t : Str} (ht : CommentText t) {c : Char} (hc : endsComment c = true)
    (hcr : c ≠ '\r') (s : Str) : ReadsAlong (t ++ c :: s) [] s := by
  obtain rfl : c = '\n' := by simpa [endsComment, hcr] using hc
  have hself : crlf t = t := by
    obtain ⟨hs⟩ := ht
    refine crlf_eq_self ?_
    rw [List.mem_cons, not_or]
    exact ⟨by decide, fun hmem => absurd (hs _ hmem) (by decide)⟩
  apply ReadsAlong.same
  rw [crlf_append, hself, crlf_newline]
  exact .comment ht rfl (.blank rfl (.refl _))

lemma readsAlong_delimiter {c : Char} {type : TokenType} (hc : Delimiter c type) (s : Str) :
    ReadsAlong (c :: s) [⟨type, [c]⟩] s := by
  apply ReadsAlong.same
  rw [crlf_cons (by rintro rfl; cases hc)]
  exact .delimiter hc (.refl _)

/-- The CR of a line ending directly behind a token is not skipped. -/
lemma continues_text_cr {v : Str} (hv : TokenText v) (hnewline : '\n' ∉ v) (s : Str) :
    tokenize (crlf (v ++ '\n' :: s)) = none ∨
      Continues (crlf (v ++ '\n' :: s)) [⟨.normal, v ++ ['\r']⟩] (crlf ('\n' :: s)) := by
  rw [crlf_append, crlf_eq_self hnewline, crlf_newline]
  cases hv with
  | quoted hq hs => exact Or.inl (tokenize_quoted_cr hq hs _)
  | @bare c b hc hs =>
    right
    have htext : TokenText (c :: b ++ ['\r']) :=
      .bare hc (List.forall_mem_append.mpr ⟨hs, by simp [endsToken]⟩)
    have hstep := Continues.text htext rfl (.refl ('\n' :: crlf s))
    rw [List.append_assoc, List.singleton_append] at hstep
    rw [Continues, tokenize_blank (c := '\r') rfl]
    exact hstep

lemma readsAlong_text {v : Str} (hv : TokenText v) (hnewline : '\n' ∉ v) {d : Char}
    (hd : endsToken d = true) (s : Str) : ReadsAlong (v ++ d :: s) [⟨.normal, v⟩] (d :: s) := by
  by_cases hlf : d = '\n'
  · subst hlf
    have hbefore : TokenBeforeNewline (v ++ '\n' :: s) := ⟨[], v, s, .done, hv⟩
    rcases continues_text_cr hv hnewline s with hnone | hstep
    · exact Or.inl ⟨hbefore, hnone⟩
    · exact Or.inr ⟨_, hstep, rfl, fun hnot => absurd hbefore hnot⟩
  · apply ReadsAlong.same
    rw [crlf_append, crlf_eq_self hnewline, crlf_cons hlf]
    exact .text hv hd (.refl _)

lemma Reads.readsAlong {t rest : Str} {us : List Token} (h : Reads t us rest) (hcr : '\r' ∉ t)
    (hnewline : ¬ NewlineInToken t) : ReadsAlong t us rest := by
  induction h with
  | done => exact .same (.refl _)
  | @blank c s rest us hc h ih =>
    have hstep : Reads (c :: s) [] s := .blank hc .done
    refine .trans hstep (readsAlong_blank hc s) (ih (List.not_mem_of_not_mem_cons hcr) ?_)
    exact mt (NewlineInToken.of_reads hstep) hnewline
  | @comment t s rest c us ht hc h ih =>
    have hstep : Reads (t ++ c :: s) [] s := .comment ht hc .done
    rw [List.mem_append, List.mem_cons, not_or, not_or] at hcr
    refine .trans hstep (readsAlong_comment ht hc (Ne.symm hcr.2.1) s) (ih hcr.2.2 ?_)
    exact mt (NewlineInToken.of_reads hstep) hnewline
  | @delimiter c type s rest us hc h ih =>
    have hstep : Reads (c :: s) [⟨type, [c]⟩] s := .delimiter hc .done
    refine .trans hstep (readsAlong_delimiter hc s) (ih (List.not_mem_of_not_mem_cons hcr) ?_)
    exact mt (NewlineInToken.of_reads hstep) hnewline
  | @text v s rest d us hv hd h ih =>
    have hstep : Reads (v ++ d :: s) [⟨.normal, v⟩] (d :: s) := .text hv hd .done
    rw [List.mem_append, not_or] at hcr
    refine .trans hstep (readsAlong_text hv (fun hmem => hnewline ?_) hd s) (ih hcr.2 ?_)
    · exact ⟨_, _, hstep, _, List.mem_singleton_self _, hmem⟩
    · exact mt (NewlineInToken.of_reads hstep) hnewline

/-! ### Types of tokens -/

lemma exists_of_map_type_eq_normals {ts : List Token} {vs : List Str} (hvs : vs ≠ [])
    (h : ts.map Token.type = (vs.map (Token.mk .normal)).map Token.type) :
    ∃ vs' : List Str, vs' ≠ [] ∧ ts = vs'.map (Token.mk .normal) := by
  refine ⟨ts.map Token.value, ?_, ?_⟩
  · rintro hnil
    rw [List.map_eq_nil_iff.mp hnil] at h
    exact hvs (by simpa using h.symm)
  · rw [List.map_map]
    refine (List.map_congr_left fun t ht => ?_).trans (List.map_id ts) |>.symm
    have htype : t.type ∈ (vs.map (Token.mk .normal)).map Token.type :=
      h ▸ List.mem_map_of_mem ht
    rw [List.map_map] at htype
    obtain ⟨v, -, hv⟩ := List.mem_map.mp htype
    obtain ⟨type, value⟩ := t
    obtain rfl : .normal = type := hv
    rfl

mutual
lemma ConfigOf.retype {ts ts' : List Token} {ss : List NginxConfigStatement} (h : ConfigOf ts ss)
    (htypes : ts'.map Token.type = ts.map Token.type) : ∃ ss', ConfigOf ts' ss' := by
  match h with
  | .nil =>
    obtain rfl : ts' = [] := List.map_eq_nil_iff.mp htypes
    exact ⟨[], .nil⟩
  | .cons hs hss =>
    rw [List.map_append] at htypes
    obtain ⟨us, us', rfl, hus, hus'⟩ := List.map_eq_append_iff.mp htypes
    obtain ⟨s, hs'⟩ := hs.retype hus
    obtain ⟨ss', hss'⟩ := hss.retype hus'
    exact ⟨s :: ss', .cons hs' hss'⟩

lemma StatementOf.retype {ts ts' : List Token} {s : NginxConfigStatement} (h : StatementOf ts s)
    (htypes : ts'.map Token.type = ts.map Token.type) : ∃ s', StatementOf ts' s' := by
  match h with
  | .simple hvs hsemicolon =>
    rw [List.map_append] at htypes
    obtain ⟨us, us', rfl, hus, hus'⟩ := List.map_eq_append_iff.mp htypes
    obtain ⟨vs', hvs', rfl⟩ := exists_of_map_type_eq_normals hvs hus
    obtain ⟨semicolon, rfl, hsemicolon'⟩ := List.map_eq_singleton_iff.mp hus'
    exact ⟨_, .simple hvs' (hsemicolon'.trans hsemicolon)⟩
  | .block hvs hopening hclosing hss =>
    rw [List.map_append, List.map_cons, List.map_append] at htypes
    obtain ⟨us, us', rfl, hus, hus'⟩ := List.map_eq_append_iff.mp htypes
    obtain ⟨vs', hvs', rfl⟩ := exists_of_map_type_eq_normals hvs hus
    obtain ⟨opening, ws, rfl, hopening', hws⟩ := List.map_eq_cons_iff.mp hus'
    obtain ⟨xs, ys, rfl, hxs, hys⟩ := List.map_eq_append_iff.mp hws
    obtain ⟨closing, rfl, hclosing'⟩ := List.map_eq_singleton_iff.mp hys
    obtain ⟨ss', hss'⟩ := hss.retype hxs
    exact ⟨_, .block hvs' (hopening'.trans hopening) (hclosing'.trans hclosing) hss'⟩
end

/-- Which blocks tokens leave open depends on their types only. -/
lemma OpenOf.retype {ts ts' : List Token} {stack : List (List NginxConfigStatement)}
    (h : OpenOf ts stack) (htypes : ts'.map Token.type = ts.map Token.type) :
    ∃ stack', OpenOf ts' stack' := by
  induction h generalizing ts' with
  | root hss =>
    obtain ⟨ss', hss'⟩ := hss.retype htypes
    exact ⟨[ss'], .root hss'⟩
  | block h hvs hopening hss ih =>
    rw [List.map_append, List.map_append, List.map_cons] at htypes
    obtain ⟨us, us', rfl, hus, hus'⟩ := List.map_eq_append_iff.mp htypes
    obtain ⟨ws, ws', rfl, hws, hws'⟩ := List.map_eq_append_iff.mp hus
    obtain ⟨vs', hvs', rfl⟩ := exists_of_map_type_eq_normals hvs hws'
    obtain ⟨opening, xs, rfl, hopening', hxs⟩ := List.map_eq_cons_iff.mp hus'
    obtain ⟨stack', hstack'⟩ := ih hws
    obtain ⟨ss', hss'⟩ := hss.retype hxs
    obtain ⟨top, below, rfl⟩ := List.exists_cons_of_ne_nil hstack'.ne_nil
    exact ⟨_, .block hstack' hvs' (hopening'.trans hopening) hss'⟩

/-! ### Files -/

/-- No line ends behind the last token. -/
lemma Ending.crlf_eq_self {s : Str} (h : Ending s) : crlf s = s := by
  refine SocialNetworkApp.crlf_eq_self ?_
  rcases h with rfl | hcomment | hbare
  · exact List.not_mem_nil
  · obtain ⟨hs⟩ := hcomment
    rw [List.mem_cons, not_or]
    exact ⟨by decide, fun hmem => absurd (hs _ hmem) (by decide)⟩
  · obtain ⟨hc, hs⟩ := hbare
    rw [List.mem_cons, not_or]
    exact ⟨(by rintro rfl; cases hc), fun hmem => absurd (hs _ hmem) (by decide)⟩

/-- `Parse` returns true for the texts that are accepted. -/
lemma accepts_iff {t : Str} : Accepts t ↔ ∃ c, parse t = .returned true c := by
  constructor
  · rintro ⟨us, rest, stack, hreads, hrest, hopen, hlast⟩
    exact ⟨_, (hreads.continues.parse_iff hrest).mpr ⟨stack, hopen, rfl, hlast⟩⟩
  · rintro ⟨c, hc⟩
    obtain ⟨ts, -, hts, -⟩ := parseLoop_eq_returned_true_iff.mp hc
    obtain ⟨rest, hreads, hrest⟩ := exists_reads_of_tokenize hts
    obtain ⟨stack, hopen, -, hlast⟩ := (parse_eq_returned_true_iff hts).mp hc
    exact ⟨_, rest, stack, hreads, hrest, hopen, hlast⟩

lemma accepts_of_crlf {t : Str} (hcr : '\r' ∉ t) (hnewline : ¬ NewlineInToken t) {c : NginxConfig}
    (h : parse (crlf t) = .returned true c) : Accepts t := by
  obtain ⟨ts, -, hts, -⟩ := parseLoop_eq_returned_true_iff.mp h
  obtain ⟨us, rest, hreads, hstops⟩ := exists_reads_stops t
  rcases hreads.readsAlong hcr hnewline with ⟨-, hnone⟩ | ⟨us', hcontinues, htypes, -⟩
  · rw [hnone] at hts
    cases hts
  rcases hstops with hrest | ⟨q, s, rfl, hq, hs⟩
  · rw [hrest.crlf_eq_self] at hcontinues
    obtain ⟨stack, hopen, -, hlast⟩ := (hcontinues.parse_iff hrest).mp h
    obtain ⟨stack', hopen'⟩ := hopen.retype htypes.symm
    refine ⟨us, rest, stack', hreads, hrest, hopen', ?_⟩
    rwa [← List.getLast?_map, ← htypes, List.getLast?_map]
  · rw [crlf_cons (by rcases hq with rfl | rfl <;> decide)] at hcontinues
    rw [hcontinues.tokenize_eq_none (tokenize_unclosed hq (mt (Closes.of_crlf hq) hs))] at hts
    cases hts

/-- A tree that is accepted with one line ending is not the one accepted with the other, where a
line ends directly behind a token. -/
lemma parse_crlf_ne {t : Str} (hcr : '\r' ∉ t) (hnewline : ¬ NewlineInToken t)
    (hbefore : TokenBeforeNewline t) {c : NginxConfig} (h : parse t = .returned true c) :
    parse (crlf t) ≠ .returned true c := by
  intro h'
  obtain ⟨ts, -, hts, -⟩ := parseLoop_eq_returned_true_iff.mp h
  obtain ⟨ts', -, hts', -⟩ := parseLoop_eq_returned_true_iff.mp h'
  obtain ⟨us, v, s, hreads, hv⟩ := hbefore
  have hv' : '\n' ∉ v := fun hmem =>
    hnewline ⟨_, _, hreads.trans (.text hv rfl .done), ⟨.normal, v⟩, by simp, hmem⟩
  -- a text of the second tree holds a CR, and no text of the first one does
  have hmem : v ++ ['\r'] ∈ texts ts' := by
    rcases hreads.readsAlong hcr hnewline with ⟨-, hnone⟩ | ⟨us', hcontinues, -, -⟩
    · rw [hnone] at hts'
      cases hts'
    rcases continues_text_cr hv hv' s with hnone | hstep
    · rw [hcontinues.tokenize_eq_none hnone] at hts'
      cases hts'
    have heq := hcontinues.trans hstep
    rw [Continues, hts'] at heq
    obtain ⟨ws, -, hws⟩ := Option.map_eq_some_iff.mp heq.symm
    rw [← texts_withoutComments, ← hws, texts_append, texts_append]
    simp [texts]
  rw [← flatMap_tokens_of_parse hts' h', flatMap_tokens_of_parse hts h,
    ← texts_withoutComments] at hmem
  obtain ⟨u, hu, huv⟩ := List.mem_map.mp hmem
  obtain ⟨rest, hreads', -⟩ := exists_reads_of_tokenize hts
  exact hcr (hreads'.mem_of_mem_value (List.mem_filter.mp hu).1 (by simp [huv]))

/-- Line endings do not matter exactly if no line ends directly behind a token, in a file that is
accepted at all. -/
theorem parse_crlf_iff {t : Str} (hcr : '\r' ∉ t) (hnewline : ¬ NewlineInToken t) :
    SameParse t (crlf t) ↔ (Accepts t → ¬ TokenBeforeNewline t) := by
  constructor
  · rintro ⟨flag, c, c', hparse, hparse', hsame⟩ haccepts hbefore
    obtain ⟨c₀, hc₀⟩ := accepts_iff.mp haccepts
    obtain ⟨rfl, rfl⟩ : true = flag ∧ c₀ = c := by simpa [hparse] using hc₀.symm
    obtain rfl := hsame rfl
    exact parse_crlf_ne hcr hnewline hbefore hparse hparse'
  · intro h
    by_cases haccepts : Accepts t
    · have hbefore := h haccepts
      obtain ⟨us, rest, stack, hreads, hrest, hopen, hlast⟩ := haccepts
      obtain ⟨us', hcontinues, -, hsame⟩ :=
        (hreads.readsAlong hcr hnewline).resolve_left fun hnone => hbefore hnone.1
      rw [hsame hbefore, hrest.crlf_eq_self] at hcontinues
      refine ⟨true, closeBlocks stack, closeBlocks stack, ?_, ?_, fun _ => rfl⟩
      · exact (hreads.continues.parse_iff hrest).mpr ⟨stack, hopen, rfl, hlast⟩
      · exact (hcontinues.parse_iff hrest).mpr ⟨stack, hopen, rfl, hlast⟩
    · obtain ⟨flag, c, hparse⟩ := (@Reached.start t).exists_returned
      obtain ⟨flag', c', hparse'⟩ := (@Reached.start (crlf t)).exists_returned
      cases flag with
      | true => exact absurd (accepts_iff.mpr ⟨c, hparse⟩) haccepts
      | false =>
        cases flag' with
        | true => exact absurd (accepts_of_crlf hcr hnewline hparse') haccepts
        | false => exact ⟨false, c, c', hparse, hparse', fun hflag => nomatch hflag⟩

/-- Two tokens on two lines. -/
lemma reads_two_lines : Reads ['a', '\n', 'b', ';']
    [⟨.normal, ['a']⟩, ⟨.normal, ['b']⟩, ⟨.statementEnd, [';']⟩] [] :=
  .text (t := ['a']) (.bare rfl (by simp)) rfl (.blank rfl
    (.text (t := ['b']) (.bare rfl (by simp)) rfl (.delimiter .statementEnd .done)))

lemma not_newlineInToken_two_lines : ¬ NewlineInToken ['a', '\n', 'b', ';'] := by
  rintro ⟨us, rest, hreads, u, hu, hnewline⟩
  obtain ⟨ts, hts, hus⟩ := reads_two_lines.continues.tokenize_eq (Or.inl rfl)
  have hmem := (hreads.begins_tokens hts).subset hu
  rw [hus] at hmem
  simp only [List.mem_cons, List.not_mem_nil, or_false] at hmem
  rcases hmem with rfl | rfl | rfl <;> simp at hnewline

theorem parse_crlf_iff_two_lines :
    SameParse ['a', '\n', 'b', ';'] (crlf ['a', '\n', 'b', ';']) ↔
      (Accepts ['a', '\n', 'b', ';'] → ¬ TokenBeforeNewline ['a', '\n', 'b', ';']) :=
  parse_crlf_iff (by simp) not_newlineInToken_two_lines

/-- With CR LF the first token becomes another one. -/
theorem parse_crlf_token :
    '\r' ∉ ['a', '\n', 'b', ';'] ∧ ¬ NewlineInToken ['a', '\n', 'b', ';'] ∧
      ¬ SameParse ['a', '\n', 'b', ';'] (crlf ['a', '\n', 'b', ';']) := by
  have hcr : '\r' ∉ ['a', '\n', 'b', ';'] := by simp
  refine ⟨hcr, not_newlineInToken_two_lines, ?_⟩
  rintro ⟨flag, c, c', hparse, hparse', hsame⟩
  have hconfig := (StatementOf.simple (show [['a'], ['b']] ≠ [] by simp)
    (show Token.type ⟨.statementEnd, [';']⟩ = .statementEnd from rfl)).toConfigOf
  obtain ⟨c₀, hc₀⟩ := accepts_iff.mp
    ⟨_, [], _, reads_two_lines, Or.inl rfl, .root hconfig, by decide⟩
  obtain ⟨rfl, rfl⟩ : true = flag ∧ c₀ = c := by simpa [hparse] using hc₀.symm
  obtain rfl := hsame rfl
  have hbefore : TokenBeforeNewline ['a', '\n', 'b', ';'] :=
    ⟨[], ['a'], ['b', ';'], .done, .bare rfl (by simp)⟩
  exact parse_crlf_ne hcr not_newlineInToken_two_lines hbefore hparse hparse'

end SocialNetworkApp
