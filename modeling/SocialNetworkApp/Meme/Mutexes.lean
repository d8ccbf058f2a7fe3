import SocialNetworkApp.Core.Run
import SocialNetworkApp.Core.Str
import SocialNetworkApp.Core.Table

/-!
# The mutexes of a file system

`FileSystem` keeps a mutex for every path in use. `get_mutex` hands out shared pointers to it, and
`cleanup_mutexes` drops the mutexes that nothing but the map points to. Both hold the mutex of the
map, so each is one step, and the calls on files take such steps in any order.
-/

namespace SocialNetworkApp

open SocialNetworkApp.Core

/-- The calls that lock the mutex of their path. -/
inductive FileCall where
  | write_file
  | read_file
  | delete_file
  | create_directory
  | delete_directory
deriving DecidableEq

/-- The address of a mutex. -/
abbrev MutexId := Nat

/-- A call that holds a pointer to the mutex of its path; it is in its critical section while it
has locked it. -/
structure Holder where
  call : FileCall
  path : Str
  mutex : MutexId
  locked : Bool

/-- The map of a `FileSystem`, and the calls in progress. -/
structure MutexState where
  fileMutexes : Table Str MutexId
  holders : Table Nat Holder

namespace MutexState

/-- `use_count()` of a pointer to the mutex: the map and the calls count. -/
def useCount (s : MutexState) (mutex : MutexId) : Nat :=
  s.fileMutexes.entries.countP (fun entry => entry.2 = mutex) +
    s.holders.entries.countP fun entry => entry.2.mutex = mutex

/-- `get_mutex`, with the mutex that is made if there is none. -/
def getMutex (newMutex : MutexId) (path : Str) (fileMutexes : Table Str MutexId) :
    MutexId × Table Str MutexId :=
  match fileMutexes.lookup path with
  | some mutex => (mutex, fileMutexes)
  | none => (newMutex, fileMutexes.insert path newMutex)

/-- The loop of `cleanup_mutexes`. -/
def cleanupMutex (s : MutexState) (path : Str) : MutexState :=
  match s.fileMutexes.lookup path with
  | some mutex =>
    if s.useCount mutex = 1 then { s with fileMutexes := s.fileMutexes.erase path } else s
  | none => s

def cleanupMutexes (s : MutexState) : MutexState := s.fileMutexes.keys.foldl cleanupMutex s

/-- What may happen next. -/
inductive Event where
  | getMutex (id : Nat) (call : FileCall) (path : Str) (newMutex : MutexId)
  | lock (id : Nat)
  | unlock (id : Nat)
  | drop (id : Nat)
  | cleanupMutexes

/-- One step: a new mutex has an address nothing points to, and a mutex that another call has
locked cannot be locked. -/
inductive Step (s : MutexState) : Event → MutexState → Prop
  | getMutex {id : Nat} {path : Str} {newMutex : MutexId} (call : FileCall)
      (hid : s.holders.lookup id = none) (hnew : s.useCount newMutex = 0) :
      Step s (.getMutex id call path newMutex)
        ⟨(MutexState.getMutex newMutex path s.fileMutexes).2, s.holders.insert id
          ⟨call, path, (MutexState.getMutex newMutex path s.fileMutexes).1, false⟩⟩
  | lock {id : Nat} {h : Holder} (hid : s.holders.lookup id = some h)
      (hfree : ∀ id' h', s.holders.lookup id' = some h' → h'.mutex = h.mutex → h'.locked = false) :
      Step s (.lock id) { s with holders := s.holders.insert id { h with locked := true } }
  | unlock {id : Nat} {h : Holder} (hid : s.holders.lookup id = some h) :
      Step s (.unlock id) { s with holders := s.holders.insert id { h with locked := false } }
  | drop (id : Nat) : Step s (.drop id) { s with holders := s.holders.erase id }
  | cleanupMutexes : Step s .cleanupMutexes s.cleanupMutexes

/-- A file system on which nothing has been called. -/
def initial : MutexState := ⟨∅, ∅⟩

/-- The call is in its critical section for the path. -/
def Inside (s : MutexState) (id : Nat) (path : Str) : Prop :=
  ∃ h, s.holders.lookup id = some h ∧ h.path = path ∧ h.locked = true

/-! ### The invariant -/

/-- The map leads every call to the mutex it has, and no two calls have locked one. -/
structure Linked (s : MutexState) : Prop where
  mapped : ∀ {id : Nat} {h : Holder}, s.holders.lookup id = some h →
    s.fileMutexes.lookup h.path = some h.mutex
  exclusive : ∀ {id id' : Nat} {h h' : Holder}, s.holders.lookup id = some h →
    s.holders.lookup id' = some h' → h.mutex = h'.mutex → h.locked = true → h'.locked = true →
      id = id'

variable {s s' : MutexState}

lemma linked_initial : Linked initial where
  mapped h := by simp [initial] at h
  exclusive h := by simp [initial] at h

/-- A mutex that only the map points to is the mutex of no call. -/
lemma not_held_of_useCount {path : Str} {mutex : MutexId} {id : Nat} {h : Holder}
    (hpath : s.fileMutexes.lookup path = some mutex) (hcount : s.useCount mutex = 1)
    (hid : s.holders.lookup id = some h) : h.mutex ≠ mutex := by
  intro heq
  have hmap : 0 < s.fileMutexes.entries.countP fun entry => entry.2 = mutex :=
    Table.countP_pos (p := fun m => decide (m = mutex)) hpath (by simp)
  have hholder : 0 < s.holders.entries.countP fun entry => entry.2.mutex = mutex :=
    Table.countP_pos (p := fun h : Holder => decide (h.mutex = mutex)) hid (by simpa using heq)
  rw [useCount] at hcount
  omega

lemma Linked.cleanupMutex (h : s.Linked) (path : Str) : (s.cleanupMutex path).Linked := by
  rw [MutexState.cleanupMutex]
  cases hpath : s.fileMutexes.lookup path with
  | none => exact h
  | some mutex =>
    simp only
    split_ifs with hcount
    · refine ⟨fun {id k} hid => ?_, h.exclusive⟩
      have hne : k.path ≠ path := by
        rintro rfl
        rw [h.mapped hid, Option.some.injEq] at hpath
        exact not_held_of_useCount (h.mapped hid) (hpath ▸ hcount) hid rfl
      rw [AList.lookup_erase_ne hne]
      exact h.mapped hid
    · exact h

lemma Linked.cleanupMutexes (h : s.Linked) : s.cleanupMutexes.Linked := by
  rw [MutexState.cleanupMutexes]
  generalize s.fileMutexes.keys = paths
  induction paths generalizing s with
  | nil => exact h
  | cons path paths ih => exact ih (h.cleanupMutex path)

/-- A call that gets a mutex finds it in the map, and changes no other entry. -/
lemma lookup_getMutex {newMutex : MutexId} {path : Str} {t : Table Str MutexId} :
    (getMutex newMutex path t).2.lookup path = some (getMutex newMutex path t).1 ∧
      ∀ q m, t.lookup q = some m → (getMutex newMutex path t).2.lookup q = some m := by
  rw [getMutex]
  cases hpath : t.lookup path with
  | some mutex => exact ⟨hpath, fun _ _ h => h⟩
  | none =>
    refine ⟨AList.lookup_insert _, fun q m hq => ?_⟩
    have hne : q ≠ path := by
      rintro rfl
      rw [hpath] at hq
      cases hq
    rw [AList.lookup_insert_ne hne, hq]

/-- A call may be entered with the mutex of its path, and with a lock if no other call has locked
it. -/
lemma Linked.insert {id : Nat} {k : Holder} {fileMutexes : Table Str MutexId} (h : s.Linked)
    (hmutexes : ∀ path m, s.fileMutexes.lookup path = some m → fileMutexes.lookup path = some m)
    (hmapped : fileMutexes.lookup k.path = some k.mutex)
    (hfree : k.locked = true → ∀ id' k', s.holders.lookup id' = some k' → k'.mutex = k.mutex →
      k'.locked = false) :
    Linked ⟨fileMutexes, s.holders.insert id k⟩ := by
  constructor
  · intro id₁ k₁ hk₁
    rcases Table.lookup_insert_cases hk₁ with ⟨rfl, rfl⟩ | ⟨-, hold⟩
    · exact hmapped
    · exact hmutexes _ _ (h.mapped hold)
  · intro id₁ id₂ k₁ k₂ hk₁ hk₂ hmutex hlocked₁ hlocked₂
    rcases Table.lookup_insert_cases hk₁ with ⟨rfl, rfl⟩ | ⟨-, hold₁⟩
    · rcases Table.lookup_insert_cases hk₂ with ⟨rfl, -⟩ | ⟨-, hold₂⟩
      · rfl
      · rw [hfree hlocked₁ _ _ hold₂ hmutex.symm] at hlocked₂
        cases hlocked₂
    · rcases Table.lookup_insert_cases hk₂ with ⟨rfl, rfl⟩ | ⟨-, hold₂⟩
      · rw [hfree hlocked₂ _ _ hold₁ hmutex] at hlocked₁
        cases hlocked₁
      · exact h.exclusive hold₁ hold₂ hmutex hlocked₁ hlocked₂

lemma Linked.step {e : Event} (h : s.Linked) (hstep : Step s e s') : s'.Linked := by
  cases hstep with
  | getMutex call hid hnew =>
    obtain ⟨hself, hother⟩ := lookup_getMutex
    exact h.insert hother hself fun hlocked => absurd hlocked Bool.false_ne_true
  | lock hid hfree =>
    have hmapped := h.mapped hid
    exact h.insert (fun _ _ hpath => hpath) hmapped fun _ => hfree
  | unlock hid =>
    have hmapped := h.mapped hid
    exact h.insert (fun _ _ hpath => hpath) hmapped fun hlocked =>
      absurd hlocked Bool.false_ne_true
  | drop id =>
    exact ⟨fun hk => h.mapped (Table.lookup_of_erase hk),
      fun hk hk' => h.exclusive (Table.lookup_of_erase hk) (Table.lookup_of_erase hk')⟩
  | cleanupMutexes => exact h.cleanupMutexes

/-- Along every run, calls for one path have one mutex, and only one of them is in its critical
section. -/
theorem run_exclusive {es : List Event} (hrun : Run Step initial es s) :
    (∀ id id' h h', s.holders.lookup id = some h → s.holders.lookup id' = some h' →
        h.path = h'.path → h.mutex = h'.mutex) ∧
      ∀ id id' path, s.Inside id path → s.Inside id' path → id = id' := by
  have hlinked : s.Linked :=
    hrun.invariant (fun h _ hstep => h.step hstep) (fun _ _ => trivial) linked_initial
  have hsame : ∀ id id' h h', s.holders.lookup id = some h → s.holders.lookup id' = some h' →
      h.path = h'.path → h.mutex = h'.mutex := by
    intro id id' h h' hid hid' hpath
    have hmapped := hlinked.mapped hid
    rw [hpath, hlinked.mapped hid', Option.some.injEq] at hmapped
    exact hmapped.symm
  refine ⟨hsame, ?_⟩
  rintro id id' path ⟨h, hid, rfl, hlocked⟩ ⟨h', hid', hpath', hlocked'⟩
  exact hlinked.exclusive hid hid' (hsame id id' h h' hid hid' hpath'.symm) hlocked hlocked'

/-- A mutex is dropped, cleaned up and made again at the same address. -/
theorem run_exclusive_cleanup :
    ∃ s, Run Step initial [.getMutex 0 .write_file ['p'] 7, .lock 0, .unlock 0, .drop 0,
        .cleanupMutexes, .getMutex 1 .read_file ['p'] 7, .lock 1] s ∧
      (∀ id id' h h', s.holders.lookup id = some h → s.holders.lookup id' = some h' →
          h.path = h'.path → h.mutex = h'.mutex) ∧
        ∀ id id' path, s.Inside id path → s.Inside id' path → id = id' := by
  have hrun : ∃ s, Run Step initial [.getMutex 0 .write_file ['p'] 7, .lock 0, .unlock 0, .drop 0,
      .cleanupMutexes, .getMutex 1 .read_file ['p'] 7, .lock 1] s := by
    refine ⟨_, .cons (.getMutex _ rfl rfl) (.cons (.lock rfl ?_) (.cons (.unlock rfl)
      (.cons (.drop 0) (.cons .cleanupMutexes (.cons (.getMutex _ rfl rfl)
        (.cons (.lock rfl ?_) (.nil _)))))))⟩
    · intro id h hid _
      rcases Table.lookup_insert_cases hid with ⟨-, rfl⟩ | ⟨-, hid⟩
      · rfl
      · cases hid
    · intro id h hid _
      rcases Table.lookup_insert_cases hid with ⟨-, rfl⟩ | ⟨-, hid⟩
      · rfl
      · cases hid
  obtain ⟨s, hrun⟩ := hrun
  exact ⟨s, hrun, run_exclusive hrun⟩

end MutexState

end SocialNetworkApp
