import SocialNetworkApp.Session.Session

/-!
# Requests on the wire

A request whose body is delimited by a `Content-Length` header, as a client sends it.
-/

namespace SocialNetworkApp

open SocialNetworkApp.Core

/-! ### The end of a header block -/

namespace Session

lemma headerEnd_ne_nil : headerEnd ≠ [] := List.cons_ne_nil _ _

/-- The text ends with the first `headerEnd` in it. -/
structure EndsHeader (head : Str) : Prop where
  suffix : headerEnd <:+ head
  first : ¬ headerEnd <:+: head.dropLast

lemma not_headerEnd_infix_append {line s : Str} (hline : '\r' ∉ line) (h : ¬ headerEnd <:+: s) :
    ¬ headerEnd <:+: line ++ s := by
  induction line with
  | nil => exact h
  | cons c line ih =>
    rw [List.mem_cons, not_or] at hline
    rw [List.cons_append, List.infix_cons_iff, not_or]
    refine ⟨fun hpre => hline.1 ?_, ih hline.2⟩
    exact (List.cons_prefix_cons.mp hpre).1

/-- Lines that are not empty do not end a header block. -/
lemma not_headerEnd_infix_crlfLines {ls : List Str} (hls : ∀ line ∈ ls, line ≠ [] ∧ '\r' ∉ line) :
    ¬ headerEnd <:+: HttpRequestParser.crlfLines ls ++ ['\r'] := by
  induction ls with
  | nil => decide
  | cons line ls ih =>
    have hrest := ih fun l hl => hls l (List.mem_cons_of_mem _ hl)
    have hnext : ¬ ['\r', '\n'] <+: HttpRequestParser.crlfLines ls ++ ['\r'] := by
      cases ls with
      | nil => decide
      | cons l ls =>
        obtain ⟨hne, hcr⟩ := hls l (by simp)
        obtain ⟨c, cs, rfl⟩ := List.exists_cons_of_ne_nil hne
        intro hpre
        have hc : '\r' = c := (List.cons_prefix_cons.mp hpre).1
        exact hcr (by rw [hc]; exact List.mem_cons_self)
    have hline : HttpRequestParser.crlfLines (line :: ls) ++ ['\r'] =
        line ++ '\r' :: '\n' :: (HttpRequestParser.crlfLines ls ++ ['\r']) := by
      simp [HttpRequestParser.crlfLines]
    rw [hline]
    apply not_headerEnd_infix_append (hls line List.mem_cons_self).2
    rw [List.infix_cons_iff, List.infix_cons_iff, not_or, not_or]
    refine ⟨fun hpre => hnext ?_, fun hpre => ?_, hrest⟩
    · have hpre' : ['\n', '\r', '\n'] <+: '\n' :: _ := (List.cons_prefix_cons.mp hpre).2
      exact (List.cons_prefix_cons.mp hpre').2
    · exact absurd (List.cons_prefix_cons.mp hpre).1 (by decide)

lemma endsHeader_crlfLines {ls : List Str} (hne : ls ≠ [])
    (hls : ∀ line ∈ ls, line ≠ [] ∧ '\r' ∉ line) :
    EndsHeader (HttpRequestParser.crlfLines ls ++ ['\r', '\n']) := by
  constructor
  · obtain ⟨init, line, rfl⟩ := List.eq_nil_or_concat'  ls |>.resolve_left hne
    exact ⟨HttpRequestParser.crlfLines init ++ line, by
      simp [HttpRequestParser.crlfLines, headerEnd]⟩
  · have hlast : (HttpRequestParser.crlfLines ls ++ ['\r', '\n']).dropLast =
        HttpRequestParser.crlfLines ls ++ ['\r'] := by
      rw [List.dropLast_append_of_ne_nil (List.cons_ne_nil _ _)]
      rfl
    rw [hlast]
    exact not_headerEnd_infix_crlfLines hls

end Session

/-! ### Well-formed requests -/

/-- The verb of a method. -/
def Verb.ofStr (method : Str) : Verb :=
  if method = "DELETE".toList then .delete_
  else if method = "GET".toList then .get
  else if method = "POST".toList then .post
  else if method = "PUT".toList then .put
  else .other method

/-- The name is `Content-Length`, in any letter case. -/
def isContentLength (header : Str × Str) : Bool :=
  header.1.map Char.toLower = "content-length".toList

/-- Blanks around the decimal digits of `n`. -/
def Announces (value : Str) (n : Nat) : Prop :=
  ∃ ws digits ws', value = ws ++ digits ++ ws' ∧ (∀ c ∈ ws ++ ws', c = ' ' ∨ c = '\t') ∧
    digits ≠ [] ∧ (∀ c ∈ digits, c.isDigit = true) ∧ Nat.ofDigitChars 10 digits 0 = n

/-- A header that stands on one line under a name. -/
structure WellFormedHeader (header : Str × Str) : Prop where
  name_ne : header.1 ≠ []
  name : ∀ c ∈ header.1, c ≠ ':' ∧ c ≠ '\r' ∧ c ≠ '\n'
  value : ∀ c ∈ header.2, c ≠ '\r' ∧ c ≠ '\n'

/-- A request that announces the length of its body in one header. -/
structure WireRequest where
  method : Str
  target : Str
  headers : List (Str × Str)
  body : Str
  method_word : IsWord method
  target_word : IsWord target
  headers_wf : ∀ header ∈ headers, WellFormedHeader header
  length : ∃ header, headers.filter isContentLength = [header] ∧ Announces header.2 body.length

namespace WireRequest

variable (r : WireRequest)

/-- The request line and the headers. -/
def head : Str := HttpRequestParser.headerBlock r.method r.target "HTTP/1.1".toList r.headers

/-- All that is sent. -/
def text : Str := r.head ++ r.body

lemma isWord_version : IsWord "HTTP/1.1".toList := ⟨by decide, List.forall_iff_forall_mem.mp (by decide)⟩

lemma oneLine {header : Str × Str} (h : header ∈ r.headers) :
    HttpRequestParser.OneLine header := by
  obtain ⟨-, hname, hvalue⟩ := r.headers_wf header h
  exact ⟨fun hc => (hname _ hc).1 rfl, fun hc => (hname _ hc).2.2 rfl,
    fun hc => (hvalue _ hc).2 rfl⟩

lemma endsHeader_head : Session.EndsHeader r.head := by
  apply Session.endsHeader_crlfLines (List.cons_ne_nil _ _)
  have hword {word : Str} (h : IsWord word) : '\r' ∉ word := fun hmem =>
    absurd (h.2 '\r' hmem) (by decide)
  intro line hline
  rcases List.mem_cons.mp hline with rfl | hline
  · refine ⟨by simp [HttpRequestParser.requestLine], ?_⟩
    simp [HttpRequestParser.requestLine, hword r.method_word, hword r.target_word]
  · obtain ⟨header, hmem, rfl⟩ := List.mem_map.mp hline
    obtain ⟨-, hname, hvalue⟩ := r.headers_wf header hmem
    refine ⟨by simp [HttpRequestParser.headerLine], ?_⟩
    simp only [HttpRequestParser.headerLine, List.mem_append, List.mem_cons, not_or]
    exact ⟨fun hc => (hname _ hc).2.1 rfl, by decide, fun hc => (hvalue _ hc).1 rfl⟩

/-- What the session's parser makes of the head. -/
def parser : HttpRequestParser :=
  ⟨r.method, r.target, "HTTP/1.1".toList, HttpRequestParser.tableOf ∅ r.headers⟩

lemma parse_head : HttpRequestParser.parse {} r.head = (true, r.parser) :=
  HttpRequestParser.parse_headerBlock r.method_word r.target_word isWord_version
    fun _ h => r.oneLine h

/-- The header with the length is spelled as the session looks it up. -/
def Spelled : Prop := ∃ header ∈ r.headers, header.1 = "Content-Length".toList

lemma isContentLength_spelled {header : Str × Str} (h : header.1 = "Content-Length".toList) :
    isContentLength header = true := by
  rw [isContentLength, h]
  decide

/-- Of the headers that satisfy `wide`, there is one. It is the only one that may have a name all of
whose headers satisfy `wide`. -/
lemma filter_name {headers : List (Str × Str)} {wide : Str × Str → Bool} {name : Str}
    (hwide : ∀ header : Str × Str, header.1 = name → wide header = true) {header : Str × Str}
    (h : headers.filter wide = [header]) :
    headers.filter (fun header => header.1 = name) = if header.1 = name then [header] else [] := by
  have hsub : headers.filter (fun header => header.1 = name) =
      (headers.filter wide).filter fun header => header.1 = name := by
    rw [List.filter_filter]
    refine List.filter_congr fun other _ => ?_
    by_cases hname : other.1 = name
    · simp [hname, hwide other hname]
    · simp [hname]
  rw [hsub, h]
  by_cases hname : header.1 = name <;> simp [hname]

/-- The session finds the length exactly if it is spelled as expected. -/
lemma getHeader_contentLength :
    (r.Spelled ∧ ∃ value, Announces value r.body.length ∧
        r.parser.getHeader "Content-Length".toList = value ++ ['\r']) ∨
      (¬ r.Spelled ∧ r.parser.getHeader "Content-Length".toList = []) := by
  obtain ⟨header, hfilter, hvalue⟩ := r.length
  have hmem : header ∈ r.headers :=
    List.mem_of_mem_filter (by rw [hfilter]; exact List.mem_singleton_self header)
  have hnamed := filter_name (fun _ => isContentLength_spelled) hfilter
  rw [parser, HttpRequestParser.getHeader_tableOf, hnamed]
  by_cases hname : header.1 = "Content-Length".toList
  · refine Or.inl ⟨⟨header, hmem, hname⟩, header.2, hvalue, ?_⟩
    rw [if_pos hname]
    rfl
  · refine Or.inr ⟨?_, by rw [if_neg hname]; rfl⟩
    rintro ⟨other, hother, hspelled⟩
    have hin : other ∈ r.headers.filter fun header => header.1 = "Content-Length".toList :=
      List.mem_filter.mpr ⟨hother, decide_eq_true hspelled⟩
    rw [hnamed, if_neg hname] at hin
    cases hin

lemma stoi_announced {value : Str} {n : Nat} (h : Announces value n) :
    stoi (value ++ ['\r']) =
      match CInt.ofInt? n with
      | some m => .ok m
      | none => .error .outOfRange := by
  obtain ⟨ws, digits, ws', rfl, hblank, hne, hdigits, rfl⟩ := h
  rw [List.append_assoc]
  apply stoi_digits ws _ hne hdigits
  · cases ws' with
    | nil => exact (noDigitHead_cons '\r' []).mpr (by decide)
    | cons c ws' =>
      rw [List.cons_append, noDigitHead_cons]
      rcases hblank c (by simp) with rfl | rfl <;> decide
  · intro c hc
    rcases hblank c (List.mem_append_left _ hc) with rfl | rfl <;> decide

end WireRequest

end SocialNetworkApp
