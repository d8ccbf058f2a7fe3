import SocialNetworkApp.Session.Answers

/-!
# What a handler of a session may do

Whatever the dispatcher does, a handler reads on, refuses the request, writes the answer of the
dispatcher to it, or is left by an exception.
-/

namespace SocialNetworkApp

open SocialNetworkApp.Core

namespace Session

variable {W : Type} {env : Environment W} {s : Session W}

/-- The session has not responded. -/
structure Unanswered (s : Session W) : Prop where
  dispatched : s.dispatched = []
  response : s.response = {}
  written : s.written = []
  escaped : s.escaped = none

/-- The session waits for this response to be written. -/
structure Responded (env : Environment W) (response : Response) (s : Session W) : Prop where
  outstanding : s.outstanding = [.write (env.serialize response)]
  written : s.written = [env.serialize response]
  escaped : s.escaped = none

lemma Responded.answered {response : Response} (h : s.Responded env response) : s.Answered :=
  ⟨⟨_, h.outstanding⟩, by rw [h.written]; rfl, h.escaped⟩

/-- What may have become of a session whose handler was called while the dispatcher had state `w`. -/
inductive Outcome (env : Environment W) (w : W) (s : Session W) : Prop
  | reads (reading : Reading) (hs : s.Unanswered) (hout : s.outstanding = [.read reading])
      (hw : s.world = w)
  | refuses (status : Status) (hstatus : status = .bad_request ∨ status = .internal_server_error)
      (hs : s.Responded env (({} : Response).overwritten status)) (hd : s.dispatched = [])
      (hw : s.world = w)
  | serves (request : Request) (hs : s.Responded env s.response) (hd : s.dispatched = [request])
      (hw : env.dispatch request {} w = .ok (s.response, s.world))
  | throws (hs : s.escaped ≠ none)

lemma Unanswered.responded (h : s.Unanswered) (hout : s.outstanding = []) (response : Response)
    (w : W) (dispatched : List Request) :
    Responded env response (writeResponse env
      { s with response := response, world := w, dispatched := dispatched }) :=
  ⟨by rw [writeResponse, asyncWriting, hout]; rfl, by rw [writeResponse, asyncWriting, h.written]; rfl,
    h.escaped⟩

lemma Unanswered.outcome_bad_request (h : s.Unanswered) (hout : s.outstanding = []) :
    Outcome env s.world (respondError env .bad_request "400 Bad Request\r\n\r\n".toList s) := by
  refine .refuses .bad_request (Or.inl rfl) ?_ h.dispatched rfl
  rw [respondError, h.response]
  exact h.responded hout _ s.world s.dispatched

lemma Unanswered.outcome_server_error (h : s.Unanswered) (hout : s.outstanding = []) :
    Outcome env s.world (respondToRequestServerError env s) := by
  refine .refuses .internal_server_error (Or.inr rfl) ?_ h.dispatched rfl
  rw [respondToRequestServerError, respondError, h.response]
  exact h.responded hout _ s.world s.dispatched

lemma Unanswered.outcome_respond (h : s.Unanswered) (hout : s.outstanding = []) :
    Outcome env s.world (respondToRequest env s) := by
  unfold respondToRequest
  cases env.parseRequest (s.requestHeader ++ s.requestBody) with
  | none => exact h.outcome_bad_request hout
  | some request =>
    simp only [h.response, h.dispatched, List.nil_append]
    cases hanswer : env.dispatch { request with body := terminated request.body } {} s.world with
    | error e => exact .throws (Option.some_ne_none e)
    | ok answer => exact .serves _ (h.responded hout answer.1 answer.2 _) rfl hanswer

lemma Unanswered.outcome_finishBody (h : s.Unanswered) (hout : s.outstanding = []) :
    Outcome env s.world (finishBody env s) := by
  unfold finishBody
  split_ifs
  · exact h.outcome_respond hout
  · refine .reads .body ⟨h.dispatched, h.response, h.written, h.escaped⟩ ?_ rfl
    rw [asyncReadSome, hout]
    rfl

lemma Unanswered.outcome_processRequest (h : s.Unanswered) (hout : s.outstanding = [])
    (remoteIp : Option Str) : Outcome env s.world (processRequest env remoteIp s) := by
  cases remoteIp with
  | none => exact .throws (Option.some_ne_none _)
  | some ip =>
    simp only [processRequest]
    split_ifs
    · exact h.outcome_finishBody hout
    · cases stoi (s.requestParser.getHeader "Content-Length".toList) with
      | error e => exact .throws (Option.some_ne_none _)
      | ok n =>
        have hs : Unanswered { s with contentLength := n } :=
          ⟨h.dispatched, h.response, h.written, h.escaped⟩
        exact hs.outcome_finishBody hout
    · exact h.outcome_respond hout

lemma Unanswered.outcome_processHeader (h : s.Unanswered) (hout : s.outstanding = [])
    (remoteIp : Option Str) : Outcome env s.world (processHeader env remoteIp s) := by
  unfold processHeader
  rcases s.requestParser.parse s.requestHeader with ⟨_ | _, parser⟩
  · have hs : Unanswered { s with requestParser := parser } :=
      ⟨h.dispatched, h.response, h.written, h.escaped⟩
    exact hs.outcome_bad_request hout
  · have hs : Unanswered { s with requestParser := parser } :=
      ⟨h.dispatched, h.response, h.written, h.escaped⟩
    exact hs.outcome_processRequest hout remoteIp

/-- A read completes. -/
lemma Unanswered.outcome_handle (h : s.Unanswered) {reading : Reading}
    (hout : s.outstanding = [.read reading]) (c : Completion) :
    Outcome env s.world (handle env s c) := by
  have hidle : Unanswered { s with outstanding := [] } :=
    ⟨h.dispatched, h.response, h.written, h.escaped⟩
  unfold handle
  rw [hout]
  cases reading with
  | header =>
    simp only [handleReadHeader]
    cases c.result with
    | none => exact hidle.outcome_server_error rfl
    | some chunk =>
      simp only
      split
      · exact .reads .header ⟨h.dispatched, h.response, h.written, h.escaped⟩ rfl rfl
      · rename_i pos _
        have hs : Unanswered { s with
            outstanding := []
            requestString := s.requestString ++ chunk.bytes
            requestHeader := (s.requestString ++ chunk.bytes).take (pos + 4)
            requestBody := substr (s.requestString ++ chunk.bytes) (pos + 4) chunk.bytes.length } :=
          ⟨h.dispatched, h.response, h.written, h.escaped⟩
        exact hs.outcome_processHeader rfl c.remoteIp
  | body =>
    simp only [handleReadBody]
    cases c.result with
    | none => exact hidle.outcome_server_error rfl
    | some chunk =>
      have hs : Unanswered { s with
          outstanding := [], requestBody := s.requestBody ++ chunk.bytes } :=
        ⟨h.dispatched, h.response, h.written, h.escaped⟩
      exact hs.outcome_finishBody rfl

/-! ### Handlers that return -/

lemma Outcome.settled {w : W} (h : s.Outcome env w) (hreturned : s.escaped = none) : s.Settled := by
  cases h with
  | reads reading hs hout => exact Or.inl ⟨reading, hout, hs.written, hs.escaped⟩
  | refuses status hstatus hs => exact Or.inr hs.answered
  | serves request hs => exact Or.inr hs.answered
  | throws hs => exact absurd hreturned hs

/-- If the dispatcher returns, a handler returns exactly if the read is admitted. -/
lemma Unanswered.escaped_handle_iff
    (hdispatch : ∀ req res w, ∃ answer, env.dispatch req res w = .ok answer) (h : s.Unanswered)
    {reading : Reading} (hout : s.outstanding = [.read reading]) (c : Completion) :
    (handle env s c).escaped = none ↔ s.Admits c := by
  have hsettled : s.Settled := Or.inl ⟨reading, hout, h.written, h.escaped⟩
  rcases hsettled.handle_cases hdispatch c with ⟨hadmits, hkept⟩ | ⟨hadmits, hnot⟩
  · exact iff_of_true hkept.orderly.returned hadmits
  · refine iff_of_false (fun hreturned => hnot ?_) hadmits
    exact ((h.outcome_handle hout c).settled hreturned).orderly

end Session

end SocialNetworkApp
