import SocialNetworkApp.Core.Locks
import SocialNetworkApp.Meme.Module
import SocialNetworkApp.Meme.Mutexes

/-!
# The order of the mutexes

Requests that are handled at the same time share factories, modules and file systems, and wait for
each other's mutexes. What a call locks depends on the branches it takes; here it may take any.
-/

namespace SocialNetworkApp

open SocialNetworkApp.Core

/-- The mutexes: one for every `CrudHandlerFactory`, three for every `MemeModule`, and for every
`FileSystem` one for its map and one for every path. -/
inductive Mutex where
  | entities (factory : Nat)
  | id (module : Nat)
  | views (module : Nat)
  | ratings (module : Nat)
  | fs (files : Nat)
  | file (files : Nat) (path : Str)
deriving DecidableEq

namespace Mutex

/-- Mutexes are locked upwards. -/
def rank : Mutex → Nat
  | entities _ | id _ | views _ | ratings _ => 0
  | fs _ => 1
  | file _ _ => 2

end Mutex

/-- Locks and unlocks. -/
abbrev Locks := List (LockOp Mutex)

namespace Locks

open LockOp

/-! ### File systems -/

/-- `BoostFileSystem::get_file_system`, on a local object. -/
def getFileSystem (files : Nat) : Locks := within (.fs files) []

/-- `FileSystem::get_mutex`. -/
def getMutex (files : Nat) : Locks := within (.fs files) []

/-- The calls of `BoostFileSystem` on a path. -/
def fileCall (_ : FileCall) (files : Nat) (path : Str) : Locks :=
  getMutex files ++ within (.file files path) []

/-! ### Modules -/

/-- A `MemeModule`, with its file system. -/
structure Object where
  module : Nat
  files : Nat
  root : Str

namespace Object

variable (o : Object)

def memePath (id : MemeId) : Str := o.root ++ '/' :: id.toStr

def generateId : Locks := within (.id o.module) []

/-- `create`; `made` says whether the directory could be made. -/
def create (newId : MemeId) (made : Bool) : Locks :=
  o.generateId ++ fileCall .create_directory o.files (o.memePath newId) ++
    if made then fileCall .write_file o.files (o.memePath newId ++ "/content".toList) else []

def incrementViewCount (id : MemeId) : Locks :=
  within (.views o.module) (fileCall .write_file o.files (o.memePath id ++ "/views".toList))

def getContent (id : MemeId) : Locks :=
  fileCall .read_file o.files (o.memePath id ++ "/content".toList)

/-- `get`; `found` says whether the directory is there. -/
def get (id : MemeId) (found : Bool) : Locks :=
  if found then o.incrementViewCount id ++ o.getContent id else []

def remove (id : MemeId) : Locks :=
  fileCall .delete_directory o.files (o.memePath id) ++ within (.views o.module) [] ++
    within (.ratings o.module) []

/-- `add_comment`; `fresh` says whether the directory of comments is still to be made. -/
def addComment (id : MemeId) (uuid : Str) (found fresh : Bool) : Locks :=
  if found then
    (if fresh then fileCall .create_directory o.files (o.memePath id ++ "/comments".toList)
      else []) ++
      fileCall .write_file o.files (o.memePath id ++ "/comments".toList ++ '/' :: uuid)
  else []

/-- `get_comments`, over the files in the directory of comments. -/
def getComments (id : MemeId) (names : List Str) : Locks :=
  (names.map fun name =>
    fileCall .read_file o.files (o.memePath id ++ "/comments".toList ++ '/' :: name)).flatten

def addRating (id : MemeId) : Locks :=
  within (.ratings o.module)
    (fileCall .write_file o.files (o.memePath id ++ "/ratings".toList))

/-- The constructor, over the directories below the root. -/
def load (names : List Str) : Locks :=
  (names.map fun name =>
    fileCall .read_file o.files (MemeModule.entryPath o.root name ++ "/views".toList) ++
      fileCall .read_file o.files (MemeModule.entryPath o.root name ++ "/ratings".toList)).flatten

end Object

end Locks

/-- What the handling of requests calls, with the branches that are taken. -/
inductive SharedCall where
  | getFileSystem (files : Nat)
  | load (o : Locks.Object) (names : List Str)
  | create (o : Locks.Object) (newId : MemeId) (made : Bool)
  | get (o : Locks.Object) (id : MemeId) (found : Bool)
  | remove (o : Locks.Object) (id : MemeId)
  | addComment (o : Locks.Object) (id : MemeId) (uuid : Str) (found fresh : Bool)
  | getComments (o : Locks.Object) (id : MemeId) (names : List Str)
  | addRating (o : Locks.Object) (id : MemeId)
  | handleCreation (factory : Nat)
  | handleDeletion (factory : Nat)
  | handleUpdate (factory : Nat)

namespace SharedCall

/-- What a call locks and unlocks. -/
def locks : SharedCall → Locks
  | getFileSystem files => Locks.getFileSystem files
  | load o names => o.load names
  | create o newId made => o.create newId made
  | get o id found => o.get id found
  | remove o id => o.remove id
  | addComment o id uuid found fresh => o.addComment id uuid found fresh
  | getComments o id names => o.getComments id names
  | addRating o id => o.addRating id
  | handleCreation factory | handleDeletion factory | handleUpdate factory =>
    LockOp.within (.entities factory) []

end SharedCall

/-! ### Calls lock upwards -/

namespace Locks

open LockOp

lemma leads_within (m : Mutex) : Leads Mutex.rank [] [] (within m []) :=
  Leads.within (rfl : Leads Mutex.rank [] [] []) fun m' hm' => by cases hm'

lemma leads_fileCall (call : FileCall) (files : Nat) (path : Str) :
    Leads Mutex.rank [] [] (fileCall call files path) :=
  (leads_within _).append (leads_within _)

/-- A mutex of a module is below those of its file system. -/
lemma leads_within_fileCall (hm : m.rank = 0) (call : FileCall) (files : Nat) (path : Str) :
    Leads Mutex.rank [] [] (within m (fileCall call files path)) := by
  refine (leads_fileCall call files path).within fun m' hm' => ?_
  rw [hm]
  simp only [fileCall, getMutex, within, List.nil_append, List.cons_append, List.mem_cons,
    List.not_mem_nil, or_false, acquire.injEq, reduceCtorEq, false_or] at hm'
  rcases hm' with rfl | rfl
  · exact Nat.one_pos
  · exact Nat.two_pos

lemma leads_flatten {A : Type} (names : List A) {f : A → Locks}
    (h : ∀ a, Leads Mutex.rank [] [] (f a)) : Leads Mutex.rank [] [] (names.map f).flatten := by
  refine Leads.flatten fun ops hops => ?_
  obtain ⟨a, -, rfl⟩ := List.mem_map.mp hops
  exact h a

/-- Every call locks upwards and unlocks what it has locked. -/
lemma leads_locks (call : SharedCall) : Leads Mutex.rank [] [] call.locks := by
  have hnil : Leads Mutex.rank [] [] [] := rfl
  cases call with
  | getFileSystem files => exact leads_within _
  | load o names =>
    exact leads_flatten names fun name => (leads_fileCall _ _ _).append (leads_fileCall _ _ _)
  | create o newId made =>
    refine ((leads_within _).append (leads_fileCall .create_directory _ _)).append ?_
    cases made with
    | false => exact hnil
    | true => exact leads_fileCall .write_file _ _
  | get o id found =>
    cases found with
    | false => exact hnil
    | true => exact (leads_within_fileCall rfl _ _ _).append (leads_fileCall _ _ _)
  | remove o id => exact ((leads_fileCall _ _ _).append (leads_within _)).append (leads_within _)
  | addComment o id uuid found fresh =>
    cases found with
    | false => exact hnil
    | true =>
      refine Leads.append ?_ (leads_fileCall .write_file _ _)
      cases fresh with
      | false => exact hnil
      | true => exact leads_fileCall .create_directory _ _
  | getComments o id names => exact leads_flatten names fun name => leads_fileCall _ _ _
  | addRating o id => exact leads_within_fileCall rfl _ _ _
  | handleCreation factory | handleDeletion factory | handleUpdate factory => exact leads_within _

end Locks

/-- Whatever threads call, and in whatever order they go on: no mutex is held by two threads, no
thread locks a mutex that it holds or unlocks one that it does not hold, some thread can go on unless
all are done, and they can all come to their ends. A run has no more steps than the calls have locks
and unlocks. -/
theorem SharedCall.never_deadlock {T : Type} [Fintype T] [DecidableEq T]
    (calls : T → List SharedCall) {ts : List T} {s : Threads T Mutex}
    (hrun : Run Threads.Step (Threads.start fun t => ((calls t).map locks).flatten) ts s) :
    (∀ t u m, m ∈ s.held t → m ∈ s.held u → t = u) ∧
      (∀ t m ops, s.todo t = .acquire m :: ops → m ∉ s.held t) ∧
      (∀ t m ops, s.todo t = .release m :: ops → m ∈ s.held t) ∧
      ((∃ t, s.todo t ≠ []) → ∃ u s', s.Step u s') ∧
      (∃ ts' s', Run Threads.Step s ts' s' ∧ ∀ t, s'.todo t = [] ∧ s'.held t = []) ∧
      ts.length ≤ ∑ t, ((calls t).map locks).flatten.length := by
  have hstart : (Threads.start fun t => ((calls t).map locks).flatten).Orderly Mutex.rank :=
    Threads.orderly_start fun t => Locks.leads_flatten (calls t) Locks.leads_locks
  have horderly := hstart.run hrun
  refine ⟨fun t u m ht hu => horderly.exclusive ht hu, fun t m ops => horderly.not_mem_of_acquire,
    fun t m ops => horderly.mem_of_release, ?_, horderly.completes, ?_⟩
  · rintro ⟨t, ht⟩
    exact horderly.exists_step ht
  · exact Nat.le_of_add_left_le (Threads.size_run hrun).le

/-- One thread counts a view and writes it down, while another waits for the mutex of the views. -/
theorem SharedCall.never_deadlock_twoViews :
    ∃ s : Threads Bool Mutex, s.held true = [.fs 0, .views 0] ∧
      (∃ ops, s.todo false = .acquire (.views 0) :: ops) ∧ (Mutex.fs 0 ∈ s.held true) ∧
      ∃ u s', s.Step u s' := by
  have hrun : Run Threads.Step (Threads.start fun _ : Bool =>
      (([.get ⟨0, 0, ['m']⟩ 1 true] : List SharedCall).map locks).flatten) [true, true] _ :=
    .cons (.acquire rfl fun u hu => by cases hu)
      (.cons (.acquire rfl fun u hu => by cases u <;> simp [Threads.start] at hu) (.nil _))
  obtain ⟨-, -, hreleases, hgoes, -, -⟩ := never_deadlock _ hrun
  exact ⟨_, rfl, ⟨_, rfl⟩, hreleases true _ _ rfl, hgoes ⟨false, List.cons_ne_nil _ _⟩⟩

end SocialNetworkApp
