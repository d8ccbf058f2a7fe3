import SocialNetworkApp.Core.Run
import SocialNetworkApp.Session.Session

/-!
# Every session answers once

A handler that returns has started one operation: it reads on, or it writes the response. The only
way for a handler not to return is that the address of the client or the announced length of the body
cannot be read once the header block is complete.
-/

namespace SocialNetworkApp

open SocialNetworkApp.Core

namespace Session

variable {W : Type} {env : Environment W} {s : Session W}

/-- No exception has escaped, one operation is outstanding, and at most one response is written. -/
structure Orderly (s : Session W) : Prop where
  returned : s.escaped = none
  one : s.outstanding.length = 1
  answers : s.written.length ≤ 1

/-- The handler that is running has not started an operation. -/
structure Idle (s : Session W) : Prop where
  outstanding : s.outstanding = []
  written : s.written = []
  escaped : s.escaped = none

/-- The session waits for a read to complete. -/
structure Awaits (reading : Reading) (s : Session W) : Prop where
  outstanding : s.outstanding = [.read reading]
  written : s.written = []
  escaped : s.escaped = none

/-- The session waits for its response to be written. -/
structure Answered (s : Session W) : Prop where
  outstanding : ∃ text, s.outstanding = [.write text]
  written : s.written.length = 1
  escaped : s.escaped = none

/-- The session waits for one operation. -/
def Settled (s : Session W) : Prop := (∃ reading, s.Awaits reading) ∨ s.Answered

lemma Settled.orderly (h : s.Settled) : s.Orderly := by
  rcases h with ⟨reading, houtstanding, hwritten, hescaped⟩ | ⟨⟨text, houtstanding⟩, hwritten, hescaped⟩
  · exact ⟨hescaped, by rw [houtstanding]; rfl, by rw [hwritten]; exact Nat.zero_le 1⟩
  · exact ⟨hescaped, by rw [houtstanding]; rfl, hwritten.le⟩

lemma awaits_start (w : W) : (start w).Awaits .header := ⟨rfl, rfl, rfl⟩

/-! ### What is converted -/

/-- The address of the client can be read, and the announced length of a body, if there is one, is
read by `stoi`. -/
def Convertible (parser : HttpRequestParser) (remoteIp : Option Str) : Prop :=
  remoteIp ≠ none ∧ (hasBody parser.method →
    parser.getHeader "Content-Length".toList = [] ∨
      ∃ n, stoi (parser.getHeader "Content-Length".toList) = .ok n)

/-- If the header block is parsed, it is convertible. -/
def ConvertibleHeader (p : HttpRequestParser) (header : Str) (remoteIp : Option Str) : Prop :=
  ∀ parser, p.parse header = (true, parser) → Convertible parser remoteIp

/-- If the read completes the header block, the block is convertible. -/
def CompletesConvertibly (s : Session W) (c : Completion) : Prop :=
  ∀ chunk, c.result = some chunk →
    ∀ pos, findStr headerEnd (s.requestString ++ chunk.bytes) = some pos →
      ConvertibleHeader s.requestParser ((s.requestString ++ chunk.bytes).take (pos + 4)) c.remoteIp

/-- A session that waits for its header meets nothing that it cannot convert. -/
def Admits (s : Session W) (c : Completion) : Prop :=
  s.outstanding = [.read .header] → CompletesConvertibly s c

/-! ### One handler -/

lemma Idle.awaits (h : s.Idle) (reading : Reading) : (s.asyncReadSome reading).Awaits reading :=
  ⟨by rw [asyncReadSome, h.outstanding]; rfl, h.written, h.escaped⟩

lemma Idle.answered_write (h : s.Idle) : (writeResponse env s).Answered :=
  ⟨⟨env.serialize s.response, by simp [writeResponse, asyncWriting, h.outstanding]⟩,
    by simp [writeResponse, asyncWriting, h.written], h.escaped⟩

lemma Idle.answered_error (h : s.Idle) (status : Status) (body : Str) :
    (respondError env status body s).Answered := by
  apply Idle.answered_write
  exact ⟨h.outstanding, h.written, h.escaped⟩

section

variable (hdispatch : ∀ req res w, ∃ answer, env.dispatch req res w = .ok answer)
include hdispatch

lemma Idle.answered_respond (h : s.Idle) : (respondToRequest env s).Answered := by
  unfold respondToRequest
  cases env.parseRequest (s.requestHeader ++ s.requestBody) with
  | none => exact h.answered_error _ _
  | some request =>
    obtain ⟨⟨response, world⟩, hanswer⟩ := hdispatch
      { request with body := terminated request.body } s.response s.world
    simp only [hanswer]
    apply Idle.answered_write
    exact ⟨h.outstanding, h.written, h.escaped⟩

lemma Idle.settled_finishBody (h : s.Idle) : (finishBody env s).Settled := by
  unfold finishBody
  split_ifs
  · exact Or.inr (h.answered_respond hdispatch)
  · exact Or.inl ⟨.body, h.awaits .body⟩

/-- A header that was parsed either is convertible and its handler returns, or an exception
escapes. -/
lemma Idle.processRequest_cases (h : s.Idle) (remoteIp : Option Str) :
    Convertible s.requestParser remoteIp ∧ (processRequest env remoteIp s).Settled ∨
      ¬ Convertible s.requestParser remoteIp ∧
        (processRequest env remoteIp s).escaped ≠ none := by
  cases remoteIp with
  | none => exact Or.inr ⟨fun hconv => hconv.1 rfl, Option.some_ne_none _⟩
  | some ip =>
    simp only [processRequest]
    split_ifs with hbody hempty
    · exact Or.inl ⟨⟨Option.some_ne_none ip, fun _ => Or.inl hempty⟩,
        h.settled_finishBody hdispatch⟩
    · cases hstoi : stoi (s.requestParser.getHeader "Content-Length".toList) with
      | error e =>
        refine Or.inr ⟨fun hconv => ?_, Option.some_ne_none _⟩
        rcases hconv.2 hbody with hnil | ⟨n, hn⟩
        · exact hempty hnil
        · rw [hstoi] at hn
          cases hn
      | ok n =>
        refine Or.inl ⟨⟨Option.some_ne_none ip, fun _ => Or.inr ⟨n, hstoi⟩⟩, ?_⟩
        apply Idle.settled_finishBody hdispatch
        exact ⟨h.outstanding, h.written, h.escaped⟩
    · exact Or.inl ⟨⟨Option.some_ne_none ip, fun hb => absurd hb hbody⟩,
        Or.inr (h.answered_respond hdispatch)⟩

lemma Idle.processHeader_cases (h : s.Idle) (remoteIp : Option Str) :
    ConvertibleHeader s.requestParser s.requestHeader remoteIp ∧
        (processHeader env remoteIp s).Settled ∨
      ¬ ConvertibleHeader s.requestParser s.requestHeader remoteIp ∧
        (processHeader env remoteIp s).escaped ≠ none := by
  unfold processHeader ConvertibleHeader
  rcases s.requestParser.parse s.requestHeader with ⟨_ | _, parser⟩
  · refine Or.inl ⟨fun _ heq => ?_, Or.inr ?_⟩
    · cases heq
    · apply Idle.answered_error
      exact ⟨h.outstanding, h.written, h.escaped⟩
  · have hidle : Idle { s with requestParser := parser } := ⟨h.outstanding, h.written, h.escaped⟩
    rcases hidle.processRequest_cases hdispatch remoteIp with ⟨hconv, hsettled⟩ | ⟨hconv, hescaped⟩
    · refine Or.inl ⟨fun _ heq => ?_, hsettled⟩
      cases heq
      exact hconv
    · exact Or.inr ⟨fun h => hconv (h parser rfl), hescaped⟩

lemma Idle.handleReadHeader_cases (h : s.Idle) (c : Completion) :
    CompletesConvertibly s c ∧ (handleReadHeader env c s).Settled ∨
      ¬ CompletesConvertibly s c ∧ (handleReadHeader env c s).escaped ≠ none := by
  unfold handleReadHeader CompletesConvertibly
  cases c.result with
  | none =>
    refine Or.inl ⟨?_, Or.inr (h.answered_error _ _)⟩
    intro _ hchunk
    cases hchunk
  | some chunk =>
    simp only [Option.some.injEq, forall_eq']
    cases findStr headerEnd (s.requestString ++ chunk.bytes) with
    | none =>
      refine Or.inl ⟨?_, Or.inl ⟨.header, ?_⟩⟩
      · intro _ hpos
        cases hpos
      · apply Idle.awaits
        exact ⟨h.outstanding, h.written, h.escaped⟩
    | some pos =>
      simp only [Option.some.injEq, forall_eq']
      have hidle : Idle { s with
          requestString := s.requestString ++ chunk.bytes
          requestHeader := (s.requestString ++ chunk.bytes).take (pos + 4)
          requestBody := substr (s.requestString ++ chunk.bytes) (pos + 4) chunk.bytes.length } :=
        ⟨h.outstanding, h.written, h.escaped⟩
      exact hidle.processHeader_cases hdispatch c.remoteIp

lemma Idle.settled_handleReadBody (h : s.Idle) (c : Completion) :
    (handleReadBody env c s).Settled := by
  unfold handleReadBody
  cases c.result with
  | none => exact Or.inr (h.answered_error _ _)
  | some chunk =>
    apply Idle.settled_finishBody hdispatch
    exact ⟨h.outstanding, h.written, h.escaped⟩

/-! ### Runs -/

/-- A read that completes either is admitted and leaves the session with one operation, or an
exception escapes. -/
lemma Settled.handle_cases (c : Completion) (h : s.Settled) :
    Admits s c ∧ (handle env s c).Settled ∨ ¬ Admits s c ∧ ¬ (handle env s c).Orderly := by
  unfold handle Admits
  rcases h with ⟨reading, houtstanding, hwritten, hescaped⟩ | hanswered
  · have hidle : Idle { s with outstanding := [] } := ⟨rfl, hwritten, hescaped⟩
    rw [houtstanding]
    cases reading with
    | header =>
      rcases hidle.handleReadHeader_cases hdispatch c with ⟨hconv, hsettled⟩ | ⟨hconv, hthrown⟩
      · exact Or.inl ⟨fun _ => hconv, hsettled⟩
      · exact Or.inr ⟨fun h => hconv (h rfl), fun horderly => hthrown horderly.returned⟩
    | body =>
      exact Or.inl ⟨fun hheader => (nomatch hheader), hidle.settled_handleReadBody hdispatch c⟩
  · obtain ⟨text, houtstanding⟩ := hanswered.outstanding
    rw [houtstanding]
    exact Or.inl ⟨fun hheader => (nomatch hheader), Or.inr hanswered⟩

end

/-- If the dispatcher returns, every session answers once, as long as every read that completes the
header block finds the address of the client and a length that can be converted; and with the first
one that does not, an exception escapes. -/
theorem run_orderly_iff
    (hdispatch : ∀ req res w, ∃ answer, env.dispatch req res w = .ok answer) (w : W)
    (cs : List Completion) :
    (∀ cs₁, cs₁ <+: cs → (run env w cs₁).Orderly) ↔
      ∀ cs₁ c, cs₁ ++ [c] <+: cs → Admits (run env w cs₁) c := by
  have hstart : (start w).Settled := Or.inl ⟨.header, awaits_start w⟩
  exact @forall_prefix_foldl_iff _ _ (handle env) Settled Orderly Admits Settled.orderly
    (Settled.handle_cases hdispatch) cs (start w) hstart

/-- An environment that parses no request. -/
def refusing : Environment Unit where
  parseRequest _ := none
  dispatch _ response world := .ok (response, world)
  serialize := Response.body

/-- A `POST` with a body that comes in two parts. -/
def splitPost : List Completion :=
  [⟨some ⟨"POST /a HTTP/1.1\r\nContent-Length: 5\r\n\r\nhe".toList, by decide⟩, some "::1".toList⟩,
    ⟨some ⟨"llo".toList, by decide⟩, some "::1".toList⟩]

/-- A session that has read a header block and a body, and written its answer. -/
theorem run_orderly_iff_splitPost :
    (run refusing () splitPost).written.length = 1 ∧
      ((∀ cs₁, cs₁ <+: splitPost → (run refusing () cs₁).Orderly) ↔
        ∀ cs₁ c, cs₁ ++ [c] <+: splitPost → Admits (run refusing () cs₁) c) :=
  ⟨rfl, run_orderly_iff (fun _ response world => ⟨(response, world), rfl⟩) () _⟩

/-- `POST / HTTP/1.1` with a length that is no number. -/
def wordyLength : Completion :=
  ⟨some ⟨"POST / HTTP/1.1\r\nContent-Length: abc\r\n\r\n".toList, by decide⟩, some "::1".toList⟩

/-- The exception of `stoi` leaves the handler, and nothing is outstanding. -/
theorem run_wordyLength :
    (run refusing () [wordyLength]).escaped = some (.exception (.number .invalidArgument)) ∧
      (run refusing () [wordyLength]).outstanding = [] ∧
      ¬ ∀ cs₁, cs₁ <+: [wordyLength] → (run refusing () cs₁).Orderly := by
  refine ⟨rfl, rfl, ?_⟩
  intro h
  have hone : (run refusing () [wordyLength]).outstanding.length = 1 :=
    (h [wordyLength] List.prefix_rfl).one
  exact absurd hone (by rw [show (run refusing () [wordyLength]).outstanding = [] from rfl]; decide)

end Session

end SocialNetworkApp
