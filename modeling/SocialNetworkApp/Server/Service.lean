import SocialNetworkApp.Server.Lifecycle
import SocialNetworkApp.Session.Segmentation

/-!
# The server as a service

However the reads and writes of its sessions interleave, the server is a service that answers one
request after another: there is one order of the requests in which every session has written what the
dispatcher answers. What a session dispatches does not depend on the others.
-/

namespace SocialNetworkApp

open SocialNetworkApp.Core

variable {W : Type} {env : Environment W}

/-! ### A session and its reads -/

namespace Session

variable {s t : Session W}

/-- The sessions have read and dispatched the same. -/
def Alike (s t : Session W) : Prop :=
  ∃ world response outstanding written escaped, t = { s with
    world := world
    response := response
    outstanding := outstanding
    written := written
    escaped := escaped }

/-- They are alike, and wait for the same read, or for none. -/
def InStep (s t : Session W) : Prop :=
  s.Alike t ∧
    ((∃ reading, s.outstanding = [.read reading] ∧ t.outstanding = [.read reading]) ∨
      s.Stopped ∧ t.Stopped)

lemma Alike.respondError (h : s.Alike t) (status status' : Status) (body body' : Str) :
    (respondError env status body s).Alike (respondError env status' body' t) := by
  obtain ⟨world, response, outstanding, written, escaped, rfl⟩ := h
  exact ⟨_, _, _, _, _, rfl⟩

lemma Alike.respondToRequest (h : s.Alike t) :
    (respondToRequest env s).Alike (respondToRequest env t) := by
  obtain ⟨world, response, outstanding, written, escaped, rfl⟩ := h
  unfold Session.respondToRequest
  cases env.parseRequest (s.requestHeader ++ s.requestBody) with
  | none => exact ⟨_, _, _, _, _, rfl⟩
  | some request =>
    simp only
    split <;> split <;> exact ⟨_, _, _, _, _, rfl⟩

lemma Alike.inStep_respond (h : s.Alike t) (hs : s.outstanding = []) (ht : t.outstanding = []) :
    (Session.respondToRequest env s).InStep (Session.respondToRequest env t) :=
  ⟨h.respondToRequest, Or.inr ⟨stopped_respondToRequest hs, stopped_respondToRequest ht⟩⟩

lemma stopped_respondError (hs : s.outstanding = []) (status : Status) (body : Str) :
    (Session.respondError env status body s).Stopped := by
  intro reading rest
  simp [Session.respondError, writeResponse, asyncWriting, hs]

lemma Alike.inStep_respondError (h : s.Alike t) (hs : s.outstanding = []) (ht : t.outstanding = [])
    (status : Status) (body : Str) :
    (Session.respondError env status body s).InStep (Session.respondError env status body t) :=
  ⟨h.respondError status status body body,
    Or.inr ⟨stopped_respondError hs status body, stopped_respondError ht status body⟩⟩

lemma Alike.inStep_finishBody (h : s.Alike t) (hs : s.outstanding = []) (ht : t.outstanding = []) :
    (finishBody env s).InStep (finishBody env t) := by
  obtain ⟨world, response, outstanding, written, escaped, rfl⟩ := h
  unfold finishBody
  split_ifs
  · exact Alike.inStep_respond ⟨_, _, _, _, _, rfl⟩ hs ht
  · refine ⟨⟨_, _, _, _, _, rfl⟩, Or.inl ⟨.body, ?_, ?_⟩⟩
    · rw [asyncReadSome, hs]
      rfl
    · rw [asyncReadSome, ht]
      rfl

lemma Alike.inStep_processRequest (h : s.Alike t) (hs : s.outstanding = [])
    (ht : t.outstanding = []) (remoteIp : Option Str) :
    (processRequest env remoteIp s).InStep (processRequest env remoteIp t) := by
  obtain ⟨world, response, outstanding, written, escaped, rfl⟩ := h
  cases remoteIp with
  | none => exact ⟨⟨_, _, _, _, _, rfl⟩, Or.inr ⟨stopped_of_eq_nil hs, stopped_of_eq_nil ht⟩⟩
  | some ip =>
    simp only [processRequest]
    split_ifs
    · exact Alike.inStep_finishBody ⟨_, _, _, _, _, rfl⟩ hs ht
    · cases stoi (s.requestParser.getHeader "Content-Length".toList) with
      | error e => exact ⟨⟨_, _, _, _, _, rfl⟩, Or.inr ⟨stopped_of_eq_nil hs, stopped_of_eq_nil ht⟩⟩
      | ok n => exact Alike.inStep_finishBody ⟨_, _, _, _, _, rfl⟩ hs ht
    · exact Alike.inStep_respond ⟨_, _, _, _, _, rfl⟩ hs ht

lemma Alike.inStep_processHeader (h : s.Alike t) (hs : s.outstanding = [])
    (ht : t.outstanding = []) (remoteIp : Option Str) :
    (processHeader env remoteIp s).InStep (processHeader env remoteIp t) := by
  obtain ⟨world, response, outstanding, written, escaped, rfl⟩ := h
  unfold processHeader
  rcases s.requestParser.parse s.requestHeader with ⟨_ | _, parser⟩
  · apply Alike.inStep_respondError
    · exact ⟨_, _, _, _, _, rfl⟩
    · exact hs
    · exact ht
  · apply Alike.inStep_processRequest
    · exact ⟨_, _, _, _, _, rfl⟩
    · exact hs
    · exact ht

/-- A read leaves them in step. -/
lemma InStep.handle (h : s.InStep t) (c : Completion) :
    (handle env s c).InStep (handle env t c) := by
  obtain ⟨halike, ⟨reading, hs, ht⟩ | ⟨hs, ht⟩⟩ := h
  · obtain ⟨world, response, outstanding, written, escaped, rfl⟩ := halike
    unfold Session.handle
    rw [hs, ht]
    cases reading with
    | header =>
      simp only [handleReadHeader]
      cases c.result with
      | none => exact Alike.inStep_respondError ⟨_, _, _, _, _, rfl⟩ rfl rfl _ _
      | some chunk =>
        simp only
        split
        · exact ⟨⟨_, _, _, _, _, rfl⟩, Or.inl ⟨.header, rfl, rfl⟩⟩
        · exact Alike.inStep_processHeader ⟨_, _, _, _, _, rfl⟩ rfl rfl c.remoteIp
    | body =>
      simp only [handleReadBody]
      cases c.result with
      | none => exact Alike.inStep_respondError ⟨_, _, _, _, _, rfl⟩ rfl rfl _ _
      | some chunk => exact Alike.inStep_finishBody ⟨_, _, _, _, _, rfl⟩ rfl rfl
  · have hkept : ∀ {r : Session W}, r.Stopped → Session.handle env r c = r :=
      fun hr => foldl_handle_of_stopped hr [c]
    rw [hkept hs, hkept ht]
    exact ⟨halike, Or.inr ⟨hs, ht⟩⟩

end Session

namespace Server

variable {srv srv' : Server W} {w : W} {es : List Event} {i : Nat}

/-! ### The reads of a connection -/

/-- The session of a client that was accepted. -/
def session? (srv : Server W) (i : Nat) : Option (Session W) :=
  srv.connections[i]?.bind Connection.session?

/-- The reads that have completed for a connection. -/
def readsOf (i : Nat) (es : List Event) : List Completion :=
  es.filterMap fun
    | .read j c => if j = i then some c else none
    | _ => none

@[simp] lemma readsOf_append_read (es : List Event) (i j : Nat) (c : Completion) :
    readsOf i (es ++ [.read j c]) = readsOf i es ++ if j = i then [c] else [] := by
  rw [readsOf, List.filterMap_append]
  split_ifs with h <;> simp [readsOf, h]

@[simp] lemma readsOf_append_accepted (es : List Event) (i j : Nat) (error : Bool) :
    readsOf i (es ++ [.accepted j error]) = readsOf i es := by simp [readsOf]

@[simp] lemma readsOf_append_written (es : List Event) (i j : Nat) (result : WriteResult) :
    readsOf i (es ++ [.written j result]) = readsOf i es := by simp [readsOf]

lemma session?_set {i : Nat} {old new : Connection W} {l : List (Connection W)}
    (hget : l[i]? = some old) (j : Nat) :
    (l.set i new)[j]?.bind Connection.session? =
      if j = i then new.session? else l[j]?.bind Connection.session? := by
  split_ifs with hj
  · subst hj
    rw [List.getElem?_set_self (List.getElem?_eq_some_iff.mp hget).1]
    rfl
  · rw [List.getElem?_set_ne (Ne.symm hj)]

lemma session?_concat_accepting (l : List (Connection W)) (j : Nat) :
    (l ++ [.accepting])[j]?.bind Connection.session? = l[j]?.bind Connection.session? := by
  rcases lt_trichotomy j l.length with hlt | rfl | hgt
  · rw [List.getElem?_append_left hlt]
  · rw [List.getElem?_concat_length, List.getElem?_eq_none le_rfl]
    rfl
  · have hle : (l ++ [Connection.accepting]).length ≤ j := by
      rw [List.length_append]
      exact hgt
    rw [List.getElem?_eq_none hle, List.getElem?_eq_none hgt.le]

lemma session?_handleAccept {i : Nat} (hget : srv.connections[i]? = some .accepting) (error : Bool)
    (j : Nat) : (handleAccept i error srv).session? j =
      if j = i then (if error then Connection.refused else .live (.start srv.world)).session?
      else srv.session? j :=
  (session?_concat_accepting _ j).trans (session?_set hget j)

lemma session?_handleRead {i : Nat} {s : Session W} (hget : srv.connections[i]? = some (.live s))
    (c : Completion) (j : Nat) : (handleRead env i c s srv).session? j =
      if j = i then some (Session.handle env { s with world := srv.world } c)
      else srv.session? j := session?_set hget j

/-- A session that is deleted has read what it has read. -/
lemma session?_handleWrite {i : Nat} {s : Session W} (hget : srv.connections[i]? = some (.live s))
    (result : WriteResult) (j : Nat) : (handleWrite i result s srv).session? j = srv.session? j := by
  have hclosed : Option.bind (srv.connections.set i (.closed s))[j]? Connection.session? =
      srv.session? j := by
    rw [session?_set hget j]
    split_ifs with hj
    · rw [hj, session?, hget]
      rfl
    · rfl
  cases result with
  | notShutDown => rfl
  | error => exact hclosed
  | shutDown => exact hclosed

/-- The session has read what has completed for its connection, as it does alone. -/
def Follows (env : Environment W) (w : W) (cs : List Completion) : Option (Session W) → Prop
  | some s => s.InStep (Session.run env w cs)
  | none => cs = []

lemma Follows.accept {w w' : W} {cs : List Completion} (h : Follows env w cs none) (error : Bool) :
    Follows env w cs
      (if error then Connection.refused else .live (.start w')).session? := by
  have hnil : cs = [] := h
  cases error with
  | true => exact hnil
  | false =>
    rw [hnil]
    exact ⟨⟨_, _, _, _, _, rfl⟩, Or.inl ⟨.header, rfl, rfl⟩⟩

lemma Follows.read {w w' : W} {cs : List Completion} {s : Session W}
    (h : Follows env w cs (some s)) (c : Completion) :
    Follows env w (cs ++ [c]) (some (Session.handle env { s with world := w' } c)) := by
  have hinStep : Session.InStep { s with world := w' } (Session.run env w cs) := by
    obtain ⟨⟨world, response, outstanding, written, escaped, heq⟩, hreads⟩ := h
    exact ⟨⟨world, response, outstanding, written, escaped, heq⟩, hreads⟩
  have hnew := @Session.InStep.handle W env _ _ hinStep c
  have hrun : Session.run env w (cs ++ [c]) = Session.handle env (Session.run env w cs) c :=
    List.foldl_concat _ _ _ _
  rw [← hrun] at hnew
  exact hnew

/-- A session reads and dispatches what it does alone, whatever the dispatcher answers to others. -/
lemma follows_of_runs (h : Runs env w es srv) (w' : W) (i : Nat) :
    Follows env w' (readsOf i es) (srv.session? i) := by
  refine h.induction_on_last (P := fun es srv =>
    ∀ i, Follows env w' (readsOf i es) (srv.session? i)) ?_ ?_ i
  · intro i
    cases i <;> rfl
  · intro es e srv srv' _ ih hstep j
    have hold := ih j
    obtain ⟨-, ⟨i, error, rfl, hget, rfl⟩ | ⟨i, c, s, reading, rest, rfl, hget, hout, rfl⟩ |
      ⟨i, result, s, text, rest, rfl, hget, hout, rfl⟩⟩ := step_cases hstep
    · rw [session?_handleAccept hget, readsOf_append_accepted]
      by_cases hj : j = i
      · rw [hj, session?, hget] at hold
        rw [if_pos hj, hj]
        exact Follows.accept hold error
      · rwa [if_neg hj]
    · rw [session?_handleRead hget, readsOf_append_read]
      by_cases hj : j = i
      · rw [hj, session?, hget] at hold
        rw [if_pos hj.symm, if_pos hj, hj]
        exact Follows.read hold c
      · rwa [if_neg (Ne.symm hj), if_neg hj, List.append_nil]
    · rw [session?_handleWrite hget, readsOf_append_written]
      exact hold

/-! ### One order of the requests -/

/-- What connection `i` has written, and the log: nothing yet, a refusal, or the response in its one
transaction. -/
inductive Heard (env : Environment W) (log : List Transaction) (i : Nat) (s : Session W) : Prop
  | nothing (hlog : transactionsOf i log = []) (hd : s.dispatched = []) (hw : s.written = [])
  | refusal (status : Status) (hstatus : status = .bad_request ∨ status = .internal_server_error)
      (hlog : transactionsOf i log = []) (hd : s.dispatched = [])
      (hw : s.written = [env.serialize (({} : Response).overwritten status)])
  | answer (x : Transaction) (hlog : transactionsOf i log = [x]) (hd : s.dispatched = [x.request])
      (hw : s.written = [env.serialize x.response])

lemma Sound.heard (h : srv.Sound env w) {i : Nat} {s : Session W} (hs : srv.session? i = some s) :
    Heard env srv.log i s := by
  have hconcluded : s.Concluded env srv.log i → Heard env srv.log i s := by
    intro hs
    cases hs with
    | refused status hstatus hs hd hlog => exact .refusal status hstatus hlog hd hs.written
    | served x hs hd hlog => exact .answer x hlog hd hs.written
  obtain ⟨connection, hget, hsession⟩ := Option.bind_eq_some_iff.mp hs
  cases h.connections i connection hget with
  | accepting => cases hsession
  | refused => cases hsession
  | reading reading hreads hout hlog =>
    obtain rfl := Option.some.inj hsession
    exact .nothing hlog hreads.dispatched hreads.written
  | writing hwrites =>
    obtain rfl := Option.some.inj hsession
    exact hconcluded hwrites
  | closed hclosed =>
    obtain rfl := Option.some.inj hsession
    exact hconcluded hclosed

/-- The log only grows. -/
lemma log_prefix_of_step {e : Event} (h : step env srv e = some srv') : srv.log <+: srv'.log := by
  obtain ⟨-, ⟨i, error, rfl, -, rfl⟩ | ⟨i, c, s, reading, rest, rfl, -, -, rfl⟩ |
    ⟨i, result, s, text, rest, rfl, -, -, rfl⟩⟩ := step_cases h
  · exact List.prefix_rfl
  · exact List.prefix_append _ _
  · cases result <;> exact List.prefix_rfl

lemma log_prefix_of_runs {es₁ : List Event} {srv₁ : Server W} (h : Runs env w es srv)
    (h₁ : Runs env w es₁ srv₁) (hes : es₁ <+: es) : srv₁.log <+: srv.log := by
  obtain ⟨es₂, rfl⟩ := hes
  obtain ⟨srv₁', h₁', hrest⟩ := h.of_append
  obtain rfl : srv₁ = srv₁' :=
    h₁.unique (fun hs hs' => Option.some.inj (hs.symm.trans hs')) h₁'
  exact hrest.invariant (I := fun srv => srv₁.log <+: srv.log) (A := fun _ => True)
    (fun hI _ hstep => hI.trans (log_prefix_of_step hstep)) (fun _ _ => trivial) List.prefix_rfl

/-- The server acts as a service that answers one request after another: the state of the dispatcher
is the one that the requests in the log lead to, every session has written what it was answered
there, and what was answered at some time comes before what is answered later. -/
structure ActsAsService (env : Environment W) (w : W) (es : List Event) (srv : Server W) : Prop where
  serves : Run (Transaction.Served env) w srv.log srv.world
  heard : ∀ (i : Nat) (s : Session W), srv.session? i = some s → Heard env srv.log i s
  order : ∀ es₁ srv₁, es₁ <+: es → Runs env w es₁ srv₁ → srv₁.log <+: srv.log

/-- As long as the process lives, the server acts as a service. -/
theorem runs_refine_service (h : Runs env w es srv) (hrunning : srv.terminated = none) :
    ActsAsService env w es srv where
  serves := (sound_of_runs h hrunning).serves
  heard _ _ hs := (sound_of_runs h hrunning).heard hs
  order _ _ hes h₁ := log_prefix_of_runs h h₁ hes

/-- A dispatcher that answers with the number of the requests before. -/
def counter : Environment Nat where
  parseRequest := (WireRequest.reader WireRequest.spelledByte).parseRequest
  dispatch _ response n := .ok (response.fill "text/plain".toList (Nat.toDigits 10 n), n + 1)
  serialize := Response.body

/-- A request in two reads. -/
def halves : List Chunk :=
  [⟨WireRequest.spelledByte.text.take 9, by decide⟩, ⟨WireRequest.spelledByte.text.drop 9, by decide⟩]

/-- Between the two reads of a client another one sends a whole request, and a third one fails. -/
def threeClients : List Event :=
  [.accepted 0 false, .accepted 1 false,
    .read 0 (deliver [] ⟨WireRequest.spelledByte.text.take 9, by decide⟩),
    .read 1 (deliver [] ⟨WireRequest.spelledByte.text, by decide⟩), .accepted 2 false,
    .read 2 ⟨none, none⟩, .written 1 .shutDown,
    .read 0 (deliver [] ⟨WireRequest.spelledByte.text.drop 9, by decide⟩)]

lemma exists_runs_threeClients : ∃ srv s, Runs counter 0 threeClients srv ∧
    srv.terminated = none ∧ srv.session? 0 = some s ∧ s.written = [['1']] ∧
      srv.log.map Transaction.connection = [1, 0] :=
  ⟨_, _, .cons rfl (.cons rfl (.cons rfl (.cons rfl (.cons rfl (.cons rfl (.cons rfl
    (.cons rfl (.nil _)))))))), rfl, rfl, rfl, rfl⟩

theorem runs_refine_service_threeClients : ∃ srv, ActsAsService counter 0 threeClients srv ∧
    srv.log.map Transaction.connection = [1, 0] := by
  obtain ⟨srv, -, hrun, hrunning, -, -, hlog⟩ := exists_runs_threeClients
  exact ⟨srv, runs_refine_service hrun hrunning, hlog⟩

/-! ### One request, one answer -/

/-- A transaction in the log is the answer in the state that the transactions before it lead to. -/
lemma Sound.served_at (h : srv.Sound env w) {x : Transaction} (hx : x ∈ srv.log) :
    ∃ before after w₁ w₂, srv.log = before ++ x :: after ∧
      Run (Transaction.Served env) w before w₁ ∧ x.Served env w₁ w₂ := by
  obtain ⟨before, after, hsplit⟩ := List.append_of_mem hx
  have hserves := h.serves
  rw [hsplit] at hserves
  obtain ⟨w₁, hbefore, hrest⟩ := hserves.of_append
  cases hrest with
  | cons hserved hafter => exact ⟨before, after, w₁, _, hsplit, hbefore, hserved⟩

/-- A session has dispatched what it dispatches alone. -/
lemma dispatched_of_runs (h : Runs env w es srv) {s : Session W} (hs : srv.session? i = some s) :
    s.dispatched = (Session.run env w (readsOf i es)).dispatched := by
  have hfollows := follows_of_runs h w i
  rw [hs] at hfollows
  obtain ⟨⟨world, response, outstanding, written, escaped, halike⟩, -⟩ := hfollows
  rw [halike]

/-- The request of a client that has sent a complete one. -/
lemma delivered_of_runs (h : Runs env w es srv) {s : Session W} (hs : srv.session? i = some s)
    {r : WireRequest} (hagreed : r.Agreed) {request : Request}
    (hrequest : env.parseRequest r.text = some request) {ip : Str} {chunks : List Chunk}
    (hreads : readsOf i es = chunks.map (deliver ip)) (hcut : WireRequest.IsCut chunks r.text) :
    s.dispatched = [{ request with body := Session.terminated request.body }] := by
  rw [dispatched_of_runs h hs, hreads]
  exact WireRequest.dispatched_of_agreed hagreed hcut hrequest

/-- The transaction of a client whose request has been dispatched. -/
lemma served_of_dispatched (h : Runs env w es srv) (hrunning : srv.terminated = none)
    {s : Session W} (hs : srv.session? i = some s) {request : Request}
    (hdispatched : s.dispatched = [request]) :
    ∃ x before after w₁ w₂, transactionsOf i srv.log = [x] ∧ x.request = request ∧
      s.written = [env.serialize x.response] ∧ srv.log = before ++ x :: after ∧
      Run (Transaction.Served env) w before w₁ ∧ x.Served env w₁ w₂ := by
  have hsound := sound_of_runs h hrunning
  cases hsound.heard hs with
  | nothing hlog hd => exact absurd (hd.symm.trans hdispatched) (by simp)
  | refusal status hstatus hlog hd => exact absurd (hd.symm.trans hdispatched) (by simp)
  | answer x hlog hd hw =>
    have hmem : x ∈ transactionsOf i srv.log := by
      rw [hlog]
      exact List.mem_singleton_self x
    obtain ⟨before, after, w₁, w₂, hsplit, hbefore, hserved⟩ :=
      hsound.served_at (List.mem_of_mem_filter hmem)
    exact ⟨x, before, after, w₁, w₂, hlog, List.singleton_inj.mp (hd.symm.trans hdispatched), hw,
      hsplit, hbefore, hserved⟩

/-- A client that has sent a complete request, with a body for which the session waits, cut into
reads in any way that interleave with those of others in any way, has been answered once: with what
the dispatcher answers, in the state that the requests before it lead to, to the request that the
library makes of the whole text, with new lines behind a body. -/
theorem runs_answer_client (h : Runs env w es srv) (hrunning : srv.terminated = none)
    {s : Session W} (hs : srv.session? i = some s) {r : WireRequest} (hagreed : r.Agreed)
    {request : Request} (hrequest : env.parseRequest r.text = some request) {ip : Str}
    {chunks : List Chunk} (hreads : readsOf i es = chunks.map (deliver ip))
    (hcut : WireRequest.IsCut chunks r.text) :
    ∃ x before after w₁ w₂, transactionsOf i srv.log = [x] ∧
      x.request = { request with body := Session.terminated request.body } ∧
      s.written = [env.serialize x.response] ∧ srv.log = before ++ x :: after ∧
      Run (Transaction.Served env) w before w₁ ∧ x.Served env w₁ w₂ :=
  served_of_dispatched h hrunning hs (delivered_of_runs h hs hagreed hrequest hreads hcut)

/-- The client whose request came in two reads is answered behind the other one. -/
theorem runs_answer_client_threeClients : ∃ (srv : Server Nat) (s : Session Nat),
    srv.session? 0 = some s ∧ s.written = [['1']] ∧
    ∃ x before after w₁ w₂, transactionsOf 0 srv.log = [x] ∧
      x.request = ⟨.post, "/a".toList, "x\r\n\r\n".toList, [("Content-Length".toList, ['1'])]⟩ ∧
      s.written = [x.response.body] ∧ srv.log = before ++ x :: after ∧
      Run (Transaction.Served counter) 0 before w₁ ∧ x.Served counter w₁ w₂ := by
  obtain ⟨srv, s, hrun, hrunning, hs, hwritten, -⟩ := exists_runs_threeClients
  have hagreed : WireRequest.spelledByte.Agreed :=
    Or.inr ⟨Or.inl rfl, ⟨_, List.mem_singleton_self _, rfl⟩, by decide⟩
  have hrequest : counter.parseRequest WireRequest.spelledByte.text =
      some ⟨.post, "/a".toList, ['x'], [("Content-Length".toList, ['1'])]⟩ := rfl
  have hcut : WireRequest.IsCut halves WireRequest.spelledByte.text := ⟨by decide, by decide⟩
  exact ⟨srv, s, hs, hwritten, runs_answer_client hrun hrunning hs hagreed hrequest
    (show readsOf 0 threeClients = halves.map (deliver []) from rfl) hcut⟩

end Server

end SocialNetworkApp
