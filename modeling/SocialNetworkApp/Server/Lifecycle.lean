import SocialNetworkApp.Server.Server
import SocialNetworkApp.Session.Outcomes

/-!
# The life of a session

Whatever completes, in whatever order, one session waits to be accepted, every session that lives
waits for one operation, and a session that was deleted has written one response. What a session has
written is a refusal or the response in its one entry of the log, and the log is a run of the
dispatcher.
-/

namespace SocialNetworkApp

open SocialNetworkApp.Core

variable {W : Type}

/-! ### What a connection has got -/

/-- The transactions of a connection. -/
def transactionsOf (i : Nat) (log : List Transaction) : List Transaction :=
  log.filter fun x => x.connection = i

@[simp] lemma transactionsOf_append (i : Nat) (log log' : List Transaction) :
    transactionsOf i (log ++ log') = transactionsOf i log ++ transactionsOf i log' :=
  List.filter_append _ _

lemma transactionsOf_eq_nil_of_lt {log : List Transaction} {i : Nat}
    (h : ∀ x ∈ log, x.connection < i) : transactionsOf i log = [] := by
  apply List.filter_eq_nil_iff.mpr
  intro x hx
  simpa using (h x hx).ne

/-- The session has responded: it has refused the request and there is no transaction, or there is one
transaction, and it has written the response in it. -/
inductive Session.Concluded (env : Environment W) (log : List Transaction) (i : Nat) (s : Session W) :
    Prop
  | refused (status : Status) (hstatus : status = .bad_request ∨ status = .internal_server_error)
      (hs : s.Responded env (({} : Response).overwritten status)) (hd : s.dispatched = [])
      (hlog : transactionsOf i log = [])
  | served (x : Transaction) (hs : s.Responded env x.response) (hd : s.dispatched = [x.request])
      (hlog : transactionsOf i log = [x])

lemma Session.Concluded.answered {env : Environment W} {log : List Transaction} {i : Nat}
    {s : Session W} (h : s.Concluded env log i) : s.Answered := by
  cases h with
  | refused status hstatus hs => exact hs.answered
  | served x hs => exact hs.answered

/-- The connection is as the log says. -/
inductive Connection.Sound (env : Environment W) (log : List Transaction) (i : Nat) :
    Connection W → Prop
  | accepting (hlog : transactionsOf i log = []) : Sound env log i .accepting
  | refused (hlog : transactionsOf i log = []) : Sound env log i .refused
  | reading {s : Session W} (reading : Reading) (hs : s.Unanswered)
      (hout : s.outstanding = [.read reading]) (hlog : transactionsOf i log = []) :
      Sound env log i (.live s)
  | writing {s : Session W} (hs : s.Concluded env log i) : Sound env log i (.live s)
  | closed {s : Session W} (hs : s.Concluded env log i) : Sound env log i (.closed s)

variable {env : Environment W}

/-- What happens on other connections does not matter. -/
lemma Connection.Sound.congr {log log' : List Transaction} {i : Nat} {connection : Connection W}
    (h : connection.Sound env log i) (hlog : transactionsOf i log' = transactionsOf i log) :
    connection.Sound env log' i := by
  have hconcluded : ∀ {s : Session W}, s.Concluded env log i → s.Concluded env log' i := by
    intro s hs
    cases hs with
    | refused status hstatus hs hd hnone =>
      exact .refused status hstatus hs hd (hlog.trans hnone)
    | served x hs hd hone => exact .served x hs hd (hlog.trans hone)
  cases h with
  | accepting hnone => exact .accepting (hlog.trans hnone)
  | refused hnone => exact .refused (hlog.trans hnone)
  | reading reading hs hout hnone => exact .reading reading hs hout (hlog.trans hnone)
  | writing hs => exact .writing (hconcluded hs)
  | closed hs => exact .closed (hconcluded hs)

/-- The dispatcher answers a request. -/
def Transaction.Served (env : Environment W) (w : W) (x : Transaction) (w' : W) : Prop :=
  env.dispatch x.request {} w = .ok (x.response, w')

namespace Server

variable {srv srv' : Server W} {e : Event}

/-! ### One step -/

/-- What can happen: a client is accepted or not, a read completes, or a write does. -/
lemma step_cases (h : step env srv e = some srv') :
    srv.terminated = none ∧
    ((∃ i error, e = .accepted i error ∧ srv.connections[i]? = some .accepting ∧
        srv' = handleAccept i error srv) ∨
      (∃ i c s reading rest, e = .read i c ∧ srv.connections[i]? = some (.live s) ∧
        s.outstanding = .read reading :: rest ∧ srv' = handleRead env i c s srv) ∨
      ∃ i result s text rest, e = .written i result ∧ srv.connections[i]? = some (.live s) ∧
        s.outstanding = .write text :: rest ∧ srv' = handleWrite i result s srv) := by
  unfold step at h
  split at h
  · cases h
  rename_i hrunning
  refine ⟨hrunning, ?_⟩
  cases e with
  | accepted i error =>
    simp only at h
    split at h
    · exact Or.inl ⟨i, error, rfl, ‹_›, (Option.some.inj h).symm⟩
    · cases h
  | read i c =>
    simp only at h
    split at h
    · rename_i s hlive
      split at h
      · exact Or.inr (Or.inl ⟨i, c, s, _, _, rfl, hlive, ‹_›, (Option.some.inj h).symm⟩)
      · cases h
    · cases h
  | written i result =>
    simp only at h
    split at h
    · rename_i s hlive
      split at h
      · exact Or.inr (Or.inr ⟨i, result, s, _, _, rfl, hlive, ‹_›, (Option.some.inj h).symm⟩)
      · cases h
    · cases h

/-! ### All runs -/

/-- One session waits to be accepted, the last one. Every connection is as the log says, and the log
is a run of the dispatcher. -/
structure Sound (env : Environment W) (w : W) (srv : Server W) : Prop where
  accepting : ∀ i, srv.connections[i]? = some .accepting ↔ i + 1 = srv.connections.length
  connections : ∀ i (connection : Connection W), srv.connections[i]? = some connection →
    connection.Sound env srv.log i
  log : ∀ x ∈ srv.log, x.connection < srv.connections.length
  serves : Run (Transaction.Served env) w srv.log srv.world

lemma sound_start (w : W) : (start w).Sound env w where
  accepting i := by
    cases i with
    | zero => exact iff_of_true rfl rfl
    | succ i => exact iff_of_false (fun h => nomatch h) (by simp [start, startAccept])
  connections i connection h := by
    obtain rfl := List.mem_singleton.mp (List.mem_of_getElem? h)
    exact .accepting rfl
  log x hx := absurd hx List.not_mem_nil
  serves := .nil w

/-- What stands where after a session was replaced. -/
lemma getElem?_set_cases {l : List (Connection W)} {i j : Nat} {old new connection : Connection W}
    (hget : l[i]? = some old) (h : (l.set i new)[j]? = some connection) :
    j = i ∧ connection = new ∨ j ≠ i ∧ l[j]? = some connection := by
  by_cases hj : j = i
  · subst hj
    rw [List.getElem?_set_self (List.getElem?_eq_some_iff.mp hget).1] at h
    exact Or.inl ⟨rfl, (Option.some.inj h).symm⟩
  · rw [List.getElem?_set_ne (Ne.symm hj)] at h
    exact Or.inr ⟨hj, h⟩

/-- What stands where after a session was added. -/
lemma getElem?_concat_cases {l : List (Connection W)} {j : Nat} {new connection : Connection W}
    (h : (l ++ [new])[j]? = some connection) :
    j = l.length ∧ connection = new ∨ j < l.length ∧ l[j]? = some connection := by
  rcases lt_trichotomy j l.length with hlt | rfl | hgt
  · rw [List.getElem?_append_left hlt] at h
    exact Or.inr ⟨hlt, h⟩
  · rw [List.getElem?_concat_length] at h
    exact Or.inl ⟨rfl, (Option.some.inj h).symm⟩
  · have hle : (l ++ [new]).length ≤ j := by
      rw [List.length_append]
      exact hgt
    rw [List.getElem?_eq_none hle] at h
    cases h

/-- A session that was accepted is replaced. -/
lemma Sound.accepting_set {w : W} (h : srv.Sound env w) {i : Nat} {old new : Connection W}
    (hget : srv.connections[i]? = some old) (hold : old ≠ .accepting) (hnew : new ≠ .accepting)
    (j : Nat) : (srv.connections.set i new)[j]? = some .accepting ↔
      j + 1 = (srv.connections.set i new).length := by
  rw [List.length_set, ← h.accepting j]
  by_cases hj : j = i
  · subst hj
    rw [List.getElem?_set_self (List.getElem?_eq_some_iff.mp hget).1, hget]
    exact iff_of_false (fun heq => hnew (Option.some.inj heq)) (fun heq => hold (Option.some.inj heq))
  · rw [List.getElem?_set_ne (Ne.symm hj)]

lemma Sound.handleAccept {w : W} (h : srv.Sound env w) {i : Nat}
    (hget : srv.connections[i]? = some .accepting) (error : Bool) :
    (srv.handleAccept i error).Sound env w := by
  have hi : i + 1 = srv.connections.length := (h.accepting i).mp hget
  have hlog : transactionsOf i srv.log = [] := by
    cases h.connections i _ hget with
    | accepting hlog => exact hlog
  have hlength : (srv.handleAccept i error).connections.length = srv.connections.length + 1 := by
    rw [Server.handleAccept, startAccept, List.length_append, List.length_set]
    rfl
  -- the connection that was accepted is not the last one any more
  have hcases : ∀ j (connection : Connection W),
      (srv.handleAccept i error).connections[j]? = some connection →
        j = srv.connections.length ∧ connection = .accepting ∨
          j < srv.connections.length ∧
            (j = i ∧ connection = (if error then .refused else .live (.start srv.world)) ∨
              j ≠ i ∧ srv.connections[j]? = some connection) := by
    intro j connection hj
    rcases getElem?_concat_cases hj with ⟨rfl, rfl⟩ | ⟨hlt, hold⟩
    · exact Or.inl ⟨List.length_set, rfl⟩
    · exact Or.inr ⟨by simpa using hlt, getElem?_set_cases hget hold⟩
  constructor
  · intro j
    rw [hlength]
    constructor
    · intro hj
      rcases hcases j _ hj with ⟨rfl, -⟩ | ⟨-, ⟨rfl, hnew⟩ | ⟨hne, hold⟩⟩
      · rfl
      · cases error <;> cases hnew
      · have hlast : j + 1 = srv.connections.length := (h.accepting j).mp hold
        omega
    · intro hj
      have hend : j = (srv.connections.set i
          (if error then .refused else .live (.start srv.world))).length := by
        rw [List.length_set]
        exact Nat.succ.inj hj
      rw [hend]
      exact List.getElem?_concat_length
  · intro j connection hj
    rcases hcases j _ hj with ⟨rfl, rfl⟩ | ⟨-, ⟨rfl, rfl⟩ | ⟨-, hold⟩⟩
    · exact .accepting (transactionsOf_eq_nil_of_lt h.log)
    · cases error
      · exact .reading .header ⟨rfl, rfl, rfl, rfl⟩ rfl hlog
      · exact .refused hlog
    · exact h.connections j connection hold
  · intro x hx
    rw [hlength]
    exact Nat.lt_succ_of_lt (h.log x hx)
  · exact h.serves

/-- A session that has not responded is replaced, and its transactions are added to the log. -/
lemma Sound.replace {w w' : W} (h : srv.Sound env w) {i : Nat} {s s' : Session W}
    (hget : srv.connections[i]? = some (.live s)) {log : List Transaction}
    (hlog : ∀ x ∈ log, x.connection = i)
    (hsound : (Connection.live s').Sound env (srv.log ++ log) i)
    (hserves : Run (Transaction.Served env) srv.world log w') (terminated : Option DispatchError) :
    Sound env w ⟨w', srv.connections.set i (.live s'), srv.log ++ log, terminated⟩ where
  accepting := h.accepting_set hget (by simp) (by simp)
  connections j connection hj := by
    rcases getElem?_set_cases hget hj with ⟨rfl, rfl⟩ | ⟨hne, hold⟩
    · exact hsound
    · apply (h.connections j connection hold).congr
      have hnone : transactionsOf j log = [] := by
        apply List.filter_eq_nil_iff.mpr
        intro x hx
        simpa using (hlog x hx).trans_ne (Ne.symm hne)
      rw [transactionsOf_append, hnone, List.append_nil]
  log x hx := by
    rw [List.length_set]
    rcases List.mem_append.mp hx with hmem | hmem
    · exact h.log x hmem
    · rw [hlog x hmem]
      exact (List.getElem?_eq_some_iff.mp hget).1
  serves := h.serves.append hserves

/-- A session that reads has not responded. -/
lemma Sound.unanswered_of_read {w : W} (h : srv.Sound env w) {i : Nat} {s : Session W}
    (hget : srv.connections[i]? = some (.live s)) {reading : Reading} {rest : List Operation}
    (houtstanding : s.outstanding = .read reading :: rest) :
    s.Unanswered ∧ s.outstanding = [.read reading] ∧ transactionsOf i srv.log = [] := by
  cases h.connections i _ hget with
  | reading reading' hs hout hlog =>
    rw [houtstanding] at hout
    cases hout
    exact ⟨hs, houtstanding, hlog⟩
  | writing hs =>
    cases hs with
    | refused _ _ hs => exact absurd (houtstanding.symm.trans hs.outstanding) (by simp)
    | served _ hs => exact absurd (houtstanding.symm.trans hs.outstanding) (by simp)

lemma Sound.handleRead {w : W} (h : srv.Sound env w) {i : Nat} {s : Session W}
    (hget : srv.connections[i]? = some (.live s)) {reading : Reading} {rest : List Operation}
    (houtstanding : s.outstanding = .read reading :: rest) (c : Completion)
    (hrunning : (srv.handleRead env i c s).terminated = none) :
    (srv.handleRead env i c s).Sound env w := by
  obtain ⟨hs, hout, hlog⟩ := h.unanswered_of_read hget houtstanding
  have hs' : Session.Unanswered { s with world := srv.world } :=
    ⟨hs.dispatched, hs.response, hs.written, hs.escaped⟩
  have hcases : Session.Outcome env srv.world
      (Session.handle env { s with world := srv.world } c) := hs'.outcome_handle hout c
  unfold Server.handleRead at hrunning ⊢
  generalize Session.handle env { s with world := srv.world } c = s' at hcases hrunning ⊢
  have hnone : s'.dispatched = [] → transactions i s s' = [] := by
    intro hd
    rw [transactions, hd, hs.dispatched]
    split_ifs <;> rfl
  simp only at hrunning ⊢
  cases hcases with
  | reads reading' hs' hout' hw =>
    apply h.replace hget
    · rw [hnone hs'.dispatched]
      exact fun x hx => absurd hx List.not_mem_nil
    · rw [hnone hs'.dispatched, List.append_nil]
      exact .reading reading' hs' hout' hlog
    · rw [hnone hs'.dispatched, hw]
      exact .nil srv.world
  | refuses status hstatus hs' hd hw =>
    apply h.replace hget
    · rw [hnone hd]
      exact fun x hx => absurd hx List.not_mem_nil
    · rw [hnone hd, List.append_nil]
      exact .writing (.refused status hstatus hs' hd hlog)
    · rw [hnone hd, hw]
      exact .nil srv.world
  | serves request hs' hd hw =>
    have hone : transactions i s s' = [⟨i, request, s'.response⟩] := by
      rw [transactions, if_pos hs'.escaped, hd, hs.dispatched]
      rfl
    rw [hone]
    apply h.replace hget
    · exact fun x hx => by rw [List.mem_singleton.mp hx]
    · refine .writing (.served ⟨i, request, s'.response⟩ hs' hd ?_)
      rw [transactionsOf_append, hlog]
      simp [transactionsOf]
    · exact .cons hw (.nil s'.world)
  | throws hthrown => exact absurd hrunning hthrown

lemma Sound.handleWrite {w : W} (h : srv.Sound env w) {i : Nat} {s : Session W}
    (hget : srv.connections[i]? = some (.live s)) {text : Str} {rest : List Operation}
    (houtstanding : s.outstanding = .write text :: rest) (result : WriteResult)
    (hrunning : (srv.handleWrite i result s).terminated = none) :
    (srv.handleWrite i result s).Sound env w := by
  have hconcluded : s.Concluded env srv.log i := by
    cases h.connections i _ hget with
    | reading reading hs hout => exact absurd (houtstanding.symm.trans hout) (by simp)
    | writing hs => exact hs
  have hdeleted : Sound env w
      { srv with connections := srv.connections.set i (.closed s) } := by
    constructor
    · exact h.accepting_set hget (by simp) (by simp)
    · intro j connection hj
      rcases getElem?_set_cases hget hj with ⟨rfl, rfl⟩ | ⟨-, hold⟩
      · exact .closed hconcluded
      · exact h.connections j connection hold
    · intro x hx
      rw [List.length_set]
      exact h.log x hx
    · exact h.serves
  cases result with
  | error => exact hdeleted
  | shutDown => exact hdeleted
  | notShutDown => cases hrunning

/-- As long as the process lives, every step keeps the connections sound. -/
lemma Sound.step {w : W} (h : srv.Sound env w) (hstep : step env srv e = some srv')
    (hrunning : srv'.terminated = none) : srv'.Sound env w := by
  obtain ⟨-, ⟨i, error, rfl, hget, rfl⟩ | ⟨i, c, s, reading, rest, rfl, hget, hout, rfl⟩ |
    ⟨i, result, s, text, rest, rfl, hget, hout, rfl⟩⟩ := step_cases hstep
  · exact h.handleAccept hget error
  · exact h.handleRead hget hout c hrunning
  · exact h.handleWrite hget hout result hrunning

lemma sound_of_runs {w : W} {es : List Event} (h : Runs env w es srv)
    (hrunning : srv.terminated = none) : srv.Sound env w := by
  refine h.invariant (I := fun srv => srv.terminated = none → srv.Sound env w)
    (fun hI _ hstep hrunning' => ?_) (fun _ _ => trivial) (fun _ => sound_start w) hrunning
  exact (hI (step_cases hstep).1).step hstep hrunning'

/-! ### Sessions that live and sessions that were deleted -/

/-- One session waits to be accepted, the last one. Every session that lives waits for one operation.
A session that was deleted had responded and waited for nothing but the write that completed, so
that no handler finds its session deleted. -/
structure Orderly (srv : Server W) : Prop where
  accepting : ∀ i, srv.connections[i]? = some .accepting ↔ i + 1 = srv.connections.length
  live : ∀ (i : Nat) (s : Session W), srv.connections[i]? = some (.live s) → s.Settled
  closed : ∀ (i : Nat) (s : Session W), srv.connections[i]? = some (.closed s) → s.Answered

/-- In every run that has not ended the process, the sessions are orderly. -/
theorem orderly_of_runs {w : W} {es : List Event} (h : Runs env w es srv)
    (hrunning : srv.terminated = none) : srv.Orderly := by
  have hsound := sound_of_runs h hrunning
  refine ⟨hsound.accepting, ?_, ?_⟩
  · intro i s hs
    cases hsound.connections i _ hs with
    | reading reading hs hout => exact Or.inl ⟨reading, hout, hs.written, hs.escaped⟩
    | writing hs => exact Or.inr hs.answered
  · intro i s hs
    cases hsound.connections i _ hs with
    | closed hs => exact hs.answered

/-- A client is accepted and refused, and another one could not be accepted. -/
def twoClients : List Event :=
  [.accepted 0 false, .accepted 1 true, .read 0 ⟨none, none⟩, .written 0 .shutDown]

theorem orderly_of_runs_twoClients : ∃ srv, Runs Session.refusing () twoClients srv ∧
    srv.connections.length = 3 ∧ srv.Orderly := by
  have hrun : ∃ srv, Runs Session.refusing () twoClients srv ∧ srv.terminated = none ∧
      srv.connections.length = 3 :=
    ⟨_, .cons rfl (.cons rfl (.cons rfl (.cons rfl (.nil _)))), rfl, rfl⟩
  obtain ⟨srv, hrun, hrunning, hlength⟩ := hrun
  exact ⟨srv, hrun, hlength, orderly_of_runs hrun hrunning⟩

/-! ### The end of the process -/

/-- What does not end the process: a session that completes its header block finds what it can
convert, and a socket that is shut down can be shut down. -/
def Admits (srv : Server W) : Event → Prop
  | .accepted _ _ => True
  | .read i c => ∀ s : Session W, srv.connections[i]? = some (.live s) → s.Admits c
  | .written _ result => result ≠ .notShutDown

section

variable (hdispatch : ∀ req res w, ∃ answer, env.dispatch req res w = .ok answer)
include hdispatch

/-- One step ends the process or not. -/
lemma terminated_step_iff {w : W} (h : srv.Sound env w)
    (hstep : step env srv e = some srv') : srv'.terminated = none ↔ srv.Admits e := by
  obtain ⟨hrunning, ⟨i, error, rfl, hget, rfl⟩ | ⟨i, c, s, reading, rest, rfl, hget, hout, rfl⟩ |
    ⟨i, result, s, text, rest, rfl, hget, hout, rfl⟩⟩ := step_cases hstep
  · exact iff_of_true hrunning trivial
  · obtain ⟨hs, hread, -⟩ := h.unanswered_of_read hget hout
    have hs' : Session.Unanswered { s with world := srv.world } :=
      ⟨hs.dispatched, hs.response, hs.written, hs.escaped⟩
    have hiff : (srv.handleRead env i c s).terminated = none ↔ s.Admits c :=
      hs'.escaped_handle_iff hdispatch hread c
    rw [hiff]
    constructor
    · intro hadmits s' hs'
      rw [hget] at hs'
      obtain rfl := Connection.live.inj (Option.some.inj hs')
      exact hadmits
    · exact fun hadmits => hadmits s hget
  · cases result with
    | notShutDown => exact iff_of_false (fun h => nomatch h) (fun h => h rfl)
    | error => exact iff_of_true hrunning (fun h => nomatch h)
    | shutDown => exact iff_of_true hrunning (fun h => nomatch h)

/-- If the dispatcher returns, the process lives as long as every step is admitted, and ends with the
first that is not, for all clients. -/
theorem terminated_eq_none_iff {w : W} {es : List Event} (h : Runs env w es srv) :
    srv.terminated = none ↔
      ∀ es₁ e srv₁, es₁ ++ [e] <+: es → Runs env w es₁ srv₁ → srv₁.Admits e := by
  refine h.induction_on_last (P := fun es srv => srv.terminated = none ↔
    ∀ es₁ e srv₁, es₁ ++ [e] <+: es → Runs env w es₁ srv₁ → srv₁.Admits e) ?_ ?_
  · refine iff_of_true rfl ?_
    intro es₁ e srv₁ hpre
    exact absurd (List.prefix_nil.mp hpre) (by simp)
  · intro es e srv srv' hrun ih hstep
    have hrunning : srv.terminated = none := (step_cases hstep).1
    rw [terminated_step_iff hdispatch (sound_of_runs hrun hrunning) hstep]
    constructor
    · intro hadmits es₁ e₁ srv₁ hpre hrun₁
      rcases List.prefix_concat_iff.mp hpre with heq | hpre
      · obtain ⟨rfl, hlast⟩ := List.append_inj' heq rfl
        obtain rfl := List.singleton_inj.mp hlast
        obtain rfl : srv₁ = srv :=
          hrun₁.unique (fun hs hs' => Option.some.inj (hs.symm.trans hs')) hrun
        exact hadmits
      · exact ih.mp hrunning es₁ e₁ srv₁ hpre hrun₁
    · exact fun hall => hall es e srv List.prefix_rfl hrun

end

/-- A client announces a length that is no number. -/
theorem terminated_eq_none_iff_wordyLength : ∃ srv,
    Runs Session.refusing () [.accepted 0 false, .read 0 Session.wordyLength] srv ∧
      (srv.terminated = none ↔ ∀ es₁ e srv₁,
        es₁ ++ [e] <+: [.accepted 0 false, .read 0 Session.wordyLength] →
          Runs Session.refusing () es₁ srv₁ → srv₁.Admits e) := by
  have hrun : ∃ srv,
      Runs Session.refusing () [.accepted 0 false, .read 0 Session.wordyLength] srv :=
    ⟨_, .cons rfl (.cons rfl (.nil _))⟩
  obtain ⟨srv, hrun⟩ := hrun
  exact ⟨srv, hrun, terminated_eq_none_iff (fun _ response w => ⟨(response, w), rfl⟩) hrun⟩

end Server

end SocialNetworkApp
