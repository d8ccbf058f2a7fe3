import SocialNetworkApp.Session.Reading

/-!
# Splitting off the header block

The read that completes the header block splits what was read until then. The part behind the block
is all in that read, so that nothing is lost where the body is cut out by the length of the read.
-/

namespace SocialNetworkApp

open SocialNetworkApp.Core

namespace Session

variable {W : Type} {env : Environment W} {s s' : Session W} {text : Str}

/-! ### What is received -/

/-- The bytes of a read that was started. -/
def taken (s : Session W) (c : Completion) : Str :=
  match s.outstanding with
  | .read _ :: _ => c.result.elim [] Chunk.bytes
  | _ => []

/-- The bytes that are read while the completions `cs` come one after another. -/
def received (env : Environment W) (s : Session W) : List Completion → Str
  | [] => []
  | c :: cs => taken s c ++ received env (handle env s c) cs

/-- Before the header block is found there is none in the text, and then it ends with the first
`headerEnd` in it and the body is what follows. -/
structure Splits (s : Session W) (text : Str) : Prop where
  before : s.requestHeader = [] →
    s.requestBody = [] ∧ s.requestString = text ∧ ¬ headerEnd <:+: text
  after : s.requestHeader ≠ [] →
    EndsHeader s.requestHeader ∧ s.requestHeader ++ s.requestBody = text

/-- The text is split, and only a session without a header block reads one. -/
structure Keeps (s : Session W) (text : Str) : Prop where
  splits : s.Splits text
  reading : s.outstanding = [.read .header] ∧ s.requestHeader = [] ∨
    s.outstanding = [.read .body] ∧ s.requestHeader ≠ [] ∨ s.Stopped

lemma EndsHeader.ne_nil {head : Str} (h : EndsHeader head) : head ≠ [] := by
  rintro rfl
  exact headerEnd_ne_nil (List.suffix_nil.mp h.suffix)

lemma Splits.of_endsHeader (hend : EndsHeader s.requestHeader)
    (htext : s.requestHeader ++ s.requestBody = text) : s.Splits text :=
  ⟨fun hnil => absurd hnil hend.ne_nil, fun _ => ⟨hend, htext⟩⟩

/-- A session does not forget what it has split. -/
lemma Splits.congr (h : s.Splits text) (hheader : s'.requestHeader = s.requestHeader)
    (hbody : s'.requestBody = s.requestBody) (hstring : s'.requestString = s.requestString) :
    s'.Splits text := by
  obtain ⟨hbefore, hafter⟩ := h
  constructor
  · rw [hheader, hbody, hstring]
    exact hbefore
  · rw [hheader, hbody]
    exact hafter

/-! ### Handlers -/

lemma Splits.keeps_respondError (h : s.Splits text) (houtstanding : s.outstanding = [])
    (status : Status) (body : Str) : (respondError env status body s).Keeps text := by
  refine ⟨h.congr rfl rfl rfl, Or.inr (Or.inr ?_)⟩
  simp [Stopped, respondError, writeResponse, asyncWriting, houtstanding]

lemma Splits.keeps_throw (h : s.Splits text) (houtstanding : s.outstanding = [])
    (e : DispatchError) : (s.throw e).Keeps text :=
  ⟨h.congr rfl rfl rfl, Or.inr (Or.inr (stopped_of_eq_nil houtstanding))⟩

lemma Splits.keeps_respondToRequest (h : s.Splits text) (houtstanding : s.outstanding = []) :
    (respondToRequest env s).Keeps text := by
  refine ⟨?_, Or.inr (Or.inr (stopped_respondToRequest houtstanding))⟩
  simp only [respondToRequest]
  cases env.parseRequest (s.requestHeader ++ s.requestBody) with
  | none => exact h.congr rfl rfl rfl
  | some request =>
    simp only
    cases env.dispatch { request with body := terminated request.body } s.response s.world <;>
      exact h.congr rfl rfl rfl

lemma Splits.keeps_finishBody (h : s.Splits text) (houtstanding : s.outstanding = [])
    (hheader : s.requestHeader ≠ []) : (finishBody env s).Keeps text := by
  rw [finishBody]
  split_ifs
  · exact h.keeps_respondToRequest houtstanding
  · refine ⟨h.congr rfl rfl rfl, Or.inr (Or.inl ⟨?_, hheader⟩)⟩
    rw [asyncReadSome, houtstanding]
    rfl

lemma Splits.keeps_processRequest (h : s.Splits text) (houtstanding : s.outstanding = [])
    (hheader : s.requestHeader ≠ []) (remoteIp : Option Str) :
    (processRequest env remoteIp s).Keeps text := by
  cases remoteIp with
  | none => exact h.keeps_throw houtstanding _
  | some ip =>
    simp only [processRequest]
    split_ifs
    · exact h.keeps_finishBody houtstanding hheader
    · cases stoi (s.requestParser.getHeader "Content-Length".toList) with
      | error e => exact h.keeps_throw houtstanding _
      | ok n =>
        have hread : Splits { s with contentLength := n } text := h.congr rfl rfl rfl
        exact hread.keeps_finishBody houtstanding hheader
    · exact h.keeps_respondToRequest houtstanding

lemma Splits.keeps_processHeader (h : s.Splits text) (houtstanding : s.outstanding = [])
    (hheader : s.requestHeader ≠ []) (remoteIp : Option Str) :
    (processHeader env remoteIp s).Keeps text := by
  rw [processHeader]
  rcases s.requestParser.parse s.requestHeader with ⟨parsed, parser⟩
  have hparsed : Splits { s with requestParser := parser } text := h.congr rfl rfl rfl
  cases parsed with
  | false => exact hparsed.keeps_respondError houtstanding _ _
  | true => exact hparsed.keeps_processRequest houtstanding hheader remoteIp

/-- What is cut out with the length of the last read is all that follows the header block. -/
lemma exists_split_of_headerEnd {last : Str} {pos : Nat} (hnone : ¬ headerEnd <:+: text)
    (hfind : findStr headerEnd (text ++ last) = some pos) :
    ∃ header rest, text ++ last = header ++ rest ∧ EndsHeader header ∧
      (text ++ last).take (pos + 4) = header ∧
      substr (text ++ last) (pos + 4) last.length = rest := by
  obtain ⟨a, rest, htext, hpos⟩ := exists_split_of_findStr hfind
  have htake : (text ++ last).take (pos + 4) = a ++ headerEnd := by
    rw [htext, List.take_left' (by rw [List.length_append, hpos]; rfl)]
  have hdrop : (text ++ last).drop (pos + 4) = rest := by
    rw [htext, List.drop_left' (by rw [List.length_append, hpos]; rfl)]
  have hend : EndsHeader (a ++ headerEnd) := by
    refine ⟨List.suffix_append a headerEnd, ?_⟩
    rw [List.dropLast_append_of_ne_nil headerEnd_ne_nil]
    rw [htext, ← hpos] at hfind
    exact not_infix_of_findStr headerEnd_ne_nil hfind
  -- the block is not complete without the last read, so what follows it is in there
  have hshort : rest.length ≤ last.length := by
    by_contra hlong
    have hpre : a ++ headerEnd <+: text := by
      refine List.prefix_of_prefix_length_le ⟨rest, htext.symm⟩ (List.prefix_append text _) ?_
      have hlen := congrArg List.length htext
      simp only [List.length_append] at hlen ⊢
      omega
    exact hnone (((List.suffix_append a headerEnd).isInfix).trans hpre.isInfix)
  refine ⟨a ++ headerEnd, rest, htext, hend, htake, ?_⟩
  rw [substr, hdrop, List.take_of_length_le hshort]

/-- The read that completes the header block has all that follows it. -/
lemma Splits.keeps_handleReadHeader (h : s.Splits text) (hheader : s.requestHeader = [])
    (houtstanding : s.outstanding = []) (c : Completion) :
    (handleReadHeader env c s).Keeps (text ++ c.result.elim [] Chunk.bytes) := by
  obtain ⟨hbody, hstring, hnone⟩ := h.before hheader
  cases hresult : c.result with
  | none =>
    simp only [handleReadHeader, hresult, Option.elim_none, List.append_nil]
    exact h.keeps_respondError houtstanding _ _
  | some chunk =>
    simp only [handleReadHeader, hresult, Option.elim_some, hstring]
    cases hfind : findStr headerEnd (text ++ chunk.bytes) with
    | none =>
      have hnot := (findStr_eq_none_iff headerEnd_ne_nil (text ++ chunk.bytes)).mp hfind
      refine ⟨⟨fun _ => ⟨hbody, rfl, hnot⟩, fun hne => absurd hheader hne⟩, Or.inl ⟨?_, hheader⟩⟩
      rw [asyncReadSome, houtstanding]
      rfl
    | some pos =>
      obtain ⟨header, rest, htext, hend, htake, hsubstr⟩ := exists_split_of_headerEnd hnone hfind
      simp only [htake, hsubstr]
      have hsplits : Splits { s with
          requestString := text ++ chunk.bytes
          requestHeader := header
          requestBody := rest } (text ++ chunk.bytes) := .of_endsHeader hend htext.symm
      exact hsplits.keeps_processHeader houtstanding hend.ne_nil c.remoteIp

lemma Splits.keeps_handleReadBody (h : s.Splits text) (hheader : s.requestHeader ≠ [])
    (houtstanding : s.outstanding = []) (c : Completion) :
    (handleReadBody env c s).Keeps (text ++ c.result.elim [] Chunk.bytes) := by
  cases hresult : c.result with
  | none =>
    simp only [handleReadBody, hresult, Option.elim_none, List.append_nil]
    exact h.keeps_respondError houtstanding _ _
  | some chunk =>
    obtain ⟨hend, htext⟩ := h.after hheader
    simp only [handleReadBody, hresult, Option.elim_some]
    have hsplits : Splits { s with requestBody := s.requestBody ++ chunk.bytes }
        (text ++ chunk.bytes) := by
      refine .of_endsHeader hend ?_
      rw [← htext, List.append_assoc]
    exact hsplits.keeps_finishBody houtstanding hheader

/-- A read that completes is added to what was received, and split. -/
lemma Keeps.handle (h : s.Keeps text) (c : Completion) :
    (handle env s c).Keeps (text ++ taken s c) := by
  obtain ⟨hsplits, ⟨houtstanding, hheader⟩ | ⟨houtstanding, hheader⟩ | hstopped⟩ := h
  · have hidle : Splits { s with outstanding := [] } text := hsplits.congr rfl rfl rfl
    simp only [Session.handle, taken, houtstanding]
    exact hidle.keeps_handleReadHeader hheader rfl c
  · have hidle : Splits { s with outstanding := [] } text := hsplits.congr rfl rfl rfl
    simp only [Session.handle, taken, houtstanding]
    exact hidle.keeps_handleReadBody hheader rfl c
  · have htaken : taken s c = [] := by
      rw [taken]
      split
      · exact absurd ‹_› (hstopped _ _)
      · rfl
    have hsame : Session.handle env s c = s := foldl_handle_of_stopped hstopped [c]
    rw [htaken, hsame, List.append_nil]
    exact ⟨hsplits, Or.inr (Or.inr hstopped)⟩

lemma Keeps.foldl (h : s.Keeps text) (cs : List Completion) :
    (cs.foldl (Session.handle env) s).Keeps (text ++ received env s cs) := by
  induction cs generalizing s text with
  | nil =>
    rw [received, List.append_nil]
    exact h
  | cons c cs ih =>
    rw [List.foldl_cons, received, ← List.append_assoc]
    exact ih (h.handle c)

lemma keeps_start (w : W) : (start w).Keeps [] := by
  refine ⟨⟨fun _ => ⟨rfl, rfl, ?_⟩, fun hne => absurd rfl hne⟩, Or.inl ⟨rfl, rfl⟩⟩
  exact fun hin => headerEnd_ne_nil (List.infix_nil.mp hin)

/-- At any time, either no header block has been received, and all that was received is kept, or the
header and the body are what was received, and the header ends where the first block does. -/
theorem run_splits (env : Environment W) (w : W) (cs : List Completion) :
    (run env w cs).Splits (received env (start w) cs) := by
  have hkeeps := @Keeps.foldl W env (start w) [] (keeps_start w) cs
  rw [List.nil_append] at hkeeps
  exact hkeeps.splits

end Session

end SocialNetworkApp
