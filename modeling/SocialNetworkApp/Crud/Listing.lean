import Mathlib.Data.Set.Finite.Basic
import SocialNetworkApp.Crud.Creation

/-!
# Listing a directory

A `GET` is a listing only if its last segment does not begin with a number, and a directory is listed
from the time an entity was created in it. A `POST` takes any segment for a directory.
-/

namespace SocialNetworkApp

open SocialNetworkApp.Core

lemma listingFrom_eq (ids : List CInt) (i : Nat) :
    listingFrom (i + ids.length) i ids = [','].intercalate (ids.map toStr) := by
  induction ids generalizing i with
  | nil => rfl
  | cons id ids ih =>
    have hrest := ih (i + 1)
    rw [Nat.add_right_comm, Nat.add_assoc] at hrest
    rw [listingFrom, List.length_cons, hrest, ← Nat.add_assoc, predSize_succ]
    cases ids with
    | nil => simp
    | cons id' ids =>
      have hne : i ≠ i + (id' :: ids).length := by
        rw [List.length_cons]
        omega
      rw [if_pos hne, List.map_cons, List.map_cons, List.map_cons, List.intercalate_cons_cons]

namespace CrudHandler

/-- A request on the handler, with the reply. -/
def Logs (root : Str) (w : CrudState) (e : CrudCall × Reply CrudState) (w' : CrudState) : Prop :=
  Answers root w e.1 e.2 ∧ e.2.state = w'

/-- A `GET` of `d` below any prefix is answered with the ids of the files in `d`, in increasing
order. -/
def Lists (R : List Str) (root : Str) (w : CrudState) (d : Str) : Prop :=
  ∀ (c : CrudCall) (pre : Str), c.request.method = .get → c.request.target = pre ++ '/' :: d →
    ∃ (reply : Reply CrudState) (ids : List CInt), Answers root w c reply ∧ reply.status = .ok ∧
      reply.response.body = '[' :: [','].intercalate (ids.map toStr) ++ [']'] ∧
      ids.Pairwise (· < ·) ∧ ∀ id, id ∈ ids ↔ w.fs.tree.IsFile (stepName R d ++ [toStr id])

end CrudHandler

variable {R : List Str} {D : Directories R} {root : Str} {w w' w₀ : CrudState} {d dir : Str}
  {entityIds entityIds' : EntityIds} {id : CInt} {req : Request} {res : Response} {faults : Faults}

/-! ### Which directories are in the map -/

lemma isSome_lookup_addIdToEntity :
    ((addIdToEntity entityIds dir id).lookup d).isSome = true ↔
      d = dir ∨ (entityIds.lookup d).isSome = true := by
  unfold addIdToEntity
  by_cases hd : d = dir
  · subst hd
    cases hlookup : entityIds.lookup d with
    | none => simp
    | some ids =>
      simp only
      split_ifs <;> simp [hlookup]
  · split
    · simp [hd, AList.lookup_insert_ne hd]
    · split_ifs <;> simp [hd, AList.lookup_insert_ne hd]

/-- A directory whose last entity is deleted stays in the map. -/
lemma isSome_lookup_remove (h : removeIdFromEntity entityIds dir id = some entityIds') :
    (entityIds'.lookup d).isSome = (entityIds.lookup d).isSome := by
  obtain ⟨hmem, rfl⟩ := removeIdFromEntity_eq_some h
  by_cases hd : d = dir
  · subst hd
    cases hlookup : entityIds.lookup d with
    | none => simp [idsOf, hlookup] at hmem
    | some ids => simp
  · rw [AList.lookup_insert_ne hd]

/-- A directory is entered by the requests that create an entity in it. -/
lemma CrudHandler.Logs.isSome_lookup {e : CrudCall × Reply CrudState} (h : Logs root w e w') :
    (w'.entityIds.lookup d).isSome = true ↔ (w.entityIds.lookup d).isSome = true ∨
      e.2.status = .created ∧ e.1.request.directory = some d := by
  obtain ⟨c, reply⟩ := e
  obtain ⟨hreply, rfl⟩ := h
  simp only [Answers, handleRequest] at hreply
  simp only [Request.directory]
  have hsame : ∀ {fs : FileSystem} {status : Status}, reply.status = status → status ≠ .created →
      reply.state = ⟨fs, w.entityIds⟩ → ∀ {x : Option Str},
        (((reply.state.entityIds.lookup d).isSome = true ↔ (w.entityIds.lookup d).isSome = true ∨
          reply.status = .created ∧ x = some d)) := by
    intro fs status hstatus hne hstate x
    rw [hstate, hstatus]
    exact (or_iff_left fun hcreated => hne hcreated.1).symm
  cases hmethod : c.request.method with
  | post =>
    simp only [hmethod] at hreply ⊢
    rcases handleCreation_cases hreply with
      ⟨hbad, hstate | ⟨i, d', fs, -, -, hstate⟩⟩ | ⟨i, d', fs, fs', hsegment, -, -, rfl⟩
    · exact hsame hbad Status.noConfusion hstate
    · exact hsame hbad Status.noConfusion hstate
    · rw [hsegment]
      simp only [isSome_lookup_addIdToEntity, Option.map_some, Option.some.injEq, true_and]
      rw [or_comm, @eq_comm _ d d']
  | get =>
    simp only [hmethod] at hreply ⊢
    rw [handleGet_state hreply]
    simp
  | put =>
    simp only [hmethod] at hreply ⊢
    rcases handleUpdate_cases hreply with ⟨hbad, hstate | ⟨d', id, fs, -, -, hstate⟩⟩ |
      ⟨d', id, htarget, ⟨fs, fs', -, -, rfl⟩ | ⟨fs, -, -, rfl⟩⟩
    · exact hsame hbad Status.noConfusion hstate
    · exact hsame hbad Status.noConfusion hstate
    · rw [htarget]
      simp only [isSome_lookup_addIdToEntity, Option.map_some, Option.some.injEq, true_and]
      rw [or_comm, @eq_comm _ d d']
    · exact hsame rfl Status.noConfusion rfl
  | delete_ =>
    simp only [hmethod] at hreply ⊢
    rcases handleDeletion_cases hreply with ⟨hbad, hstate⟩ |
      ⟨d', name, both, id, entityIds', -, -, -, -, -, hremove, ⟨fs, -, -, rfl⟩ | ⟨-, hstatus, hstate⟩⟩
    · exact hsame hbad Status.noConfusion hstate
    · simp [isSome_lookup_remove hremove]
    · rw [hstatus, hstate]
      simp [isSome_lookup_remove hremove]
  | other name =>
    simp only [hmethod, Except.ok.injEq] at hreply ⊢
    subst hreply
    simp

lemma isSome_lookup_of_run {log : List (CrudCall × Reply CrudState)}
    (hrun : Run (CrudHandler.Logs root) w₀ log w) :
    (w.entityIds.lookup d).isSome = true ↔ (w₀.entityIds.lookup d).isSome = true ∨
      ∃ e ∈ log, e.2.status = .created ∧ e.1.request.directory = some d := by
  induction hrun with
  | nil => simp
  | cons hstep _ ih =>
    rw [ih, hstep.isSome_lookup, or_assoc]
    simp only [List.mem_cons, exists_eq_or_imp]

/-! ### Listings -/

/-- A directory name that is not in the map. -/
lemma exists_unknown (entityIds : EntityIds) : ∃ d, '/' ∉ d ∧ entityIds.lookup d = none := by
  have hinf : (Set.range fun n => List.replicate n 'a').Infinite :=
    Set.infinite_range_of_injective fun m n h => by simpa using congrArg List.length h
  obtain ⟨_, ⟨n, rfl⟩, hn⟩ := hinf.exists_notMem_finset entityIds.keys.toFinset
  refine ⟨List.replicate n 'a', fun hslash => ?_, AList.lookup_eq_none.mpr ?_⟩
  · exact absurd (List.eq_of_mem_replicate hslash) (by decide)
  · rwa [List.mem_toFinset, ← AList.mem_keys] at hn

lemma handleGet_of_invalidArgument (hid : stoi (possibleId req.target) = .error .invalidArgument) :
    handleGet root faults req res w = .ok (listEntities req res w) := by
  rw [handleGet, endsWithId, hid]

lemma listEntities_of_some {ids : List CInt}
    (hids : w.entityIds.lookup (possibleId req.target) = some ids) : listEntities req res w =
      ⟨.ok, res.fill "application/json".toList ('[' :: [','].intercalate (ids.map toStr) ++ [']']),
        w⟩ := by
  have htext := listingFrom_eq ids 0
  rw [Nat.zero_add] at htext
  simp only [listEntities, hids, htext]

lemma listEntities_of_none (hids : w.entityIds.lookup (possibleId req.target) = none) :
    (listEntities req res w).status = .bad_request := by
  simp only [listEntities, hids]
  rfl

/-- A name that begins with a number is taken for an id. -/
lemma not_lists_of_stoi (hd : '/' ∉ d) (hid : stoi d = .ok id) : ¬ CrudHandler.Lists R root w d := by
  intro hlists
  obtain ⟨dir, hdir, hunknown⟩ := exists_unknown w.entityIds
  obtain ⟨reply, ids, hreply, hok, -⟩ :=
    hlists ⟨⟨.get, [] ++ '/' :: dir ++ '/' :: d, [], []⟩, {}, {}⟩ _ rfl rfl
  have hid' : stoi (possibleId ([] ++ '/' :: dir ++ '/' :: d)) = .ok id := by
    rwa [possibleId_append _ hd]
  have hretrieval := retrievalDir_append [] hdir hd
  have hnot : entityExists w.entityIds dir id = false := by
    rw [entityExists, hunknown]
  simp only [CrudHandler.Answers, CrudHandler.handleRequest, handleGet, endsWithId, hid',
    retrieveEntity, hretrieval, hnot, Bool.not_false, if_true, Except.ok.injEq] at hreply
  subst hreply
  cases hok

lemma not_lists_of_outOfRange (hd : '/' ∉ d) (hid : stoi d = .error .outOfRange) :
    ¬ CrudHandler.Lists R root w d := by
  intro hlists
  obtain ⟨reply, ids, hreply, -⟩ := hlists ⟨⟨.get, [] ++ '/' :: d, [], []⟩, {}, {}⟩ _ rfl rfl
  have hid' : stoi (possibleId ([] ++ '/' :: d)) = .error .outOfRange := by
    rwa [possibleId_append _ hd]
  simp only [CrudHandler.Answers, CrudHandler.handleRequest, handleGet, endsWithId, hid'] at hreply
  cases hreply

lemma Agree.lists_iff_lookup (h : Agree D root w) (hd : d ∈ D.names)
    (hid : stoi d = .error .invalidArgument) :
    CrudHandler.Lists R root w d ↔ (w.entityIds.lookup d).isSome = true := by
  have hslash := D.slash_free d hd
  have hget : ∀ (c : CrudCall) (pre : Str), c.request.method = .get →
      c.request.target = pre ++ '/' :: d → CrudHandler.handleRequest root c.faults c.request
        c.response w = .ok (listEntities c.request c.response w) := by
    intro c pre hmethod htarget
    rw [CrudHandler.handleRequest, hmethod]
    refine handleGet_of_invalidArgument ?_
    rwa [htarget, possibleId_append _ hslash]
  constructor
  · intro hlists
    obtain ⟨reply, ids, hreply, hok, -⟩ :=
      hlists ⟨⟨.get, [] ++ '/' :: d, [], []⟩, {}, {}⟩ _ rfl rfl
    rw [CrudHandler.Answers, hget _ [] rfl rfl, Except.ok.injEq] at hreply
    subst hreply
    rw [Option.isSome_iff_ne_none]
    intro hnone
    rw [← possibleId_append [] hslash] at hnone
    rw [listEntities_of_none hnone] at hok
    cases hok
  · intro hsome c pre hmethod htarget
    obtain ⟨ids, hids⟩ := Option.isSome_iff_exists.mp hsome
    have hidsOf : idsOf w.entityIds d = ids := by
      rw [idsOf, hids]
      rfl
    rw [← possibleId_append pre hslash, ← htarget] at hids
    have hanswer := hget c pre hmethod htarget
    rw [listEntities_of_some hids] at hanswer
    refine ⟨_, ids, hanswer, rfl, rfl, ?_, fun id => ?_⟩
    · rw [← hidsOf]
      exact h.sorted d hd
    · rw [← hidsOf, h.isFile_iff hd]

/-- After a run of requests a directory is listed exactly if its name does not begin with a number,
and it was in the map at first or an entity was created in it. -/
theorem lists_iff (h : Agree D root w₀) {log : List (CrudCall × Reply CrudState)}
    (hcs : ∀ e ∈ log, e.1.Within D) (hrun : Run (CrudHandler.Logs root) w₀ log w)
    (hd : d ∈ D.names) :
    CrudHandler.Lists R root w d ↔ stoi d = .error .invalidArgument ∧
      ((w₀.entityIds.lookup d).isSome = true ∨
        ∃ e ∈ log, e.2.status = .created ∧ e.1.request.directory = some d) := by
  have hagree : Agree D root w :=
    hrun.invariant (fun h hc hstep => h.step hc ⟨_, hstep⟩) hcs h
  rw [← isSome_lookup_of_run hrun]
  cases hid : stoi d with
  | ok id =>
    exact iff_of_false (not_lists_of_stoi (D.slash_free d hd) hid) fun hname => by cases hname.1
  | error e =>
    cases e with
    | invalidArgument => rw [hagree.lists_iff_lookup hd hid, and_iff_right rfl]
    | outOfRange =>
      exact iff_of_false (not_lists_of_outOfRange (D.slash_free d hd) hid) fun hname => by
        cases hname.1

/-- A `POST` for the empty disk. -/
def firstPost (target : Str) : CrudCall := ⟨⟨.post, target, ['x'], []⟩, {}, {}⟩

theorem lists_iff_firstPost :
    ∃ w reply, CrudHandler.Logs ['r'] emptyDisk (firstPost "/d".toList, reply) w ∧
      (CrudHandler.Lists [['r']] ['r'] w ['d'] ↔ stoi ['d'] = .error .invalidArgument ∧
        ((emptyDisk.entityIds.lookup ['d']).isSome = true ∨
          ∃ e ∈ [(firstPost "/d".toList, reply)],
            e.2.status = .created ∧ e.1.request.directory = some ['d'])) := by
  obtain ⟨reply, hreply⟩ : ∃ reply, CrudHandler.Answers ['r'] emptyDisk
      (firstPost "/d".toList) reply := ⟨_, rfl⟩
  refine ⟨_, reply, ⟨hreply, rfl⟩, ?_⟩
  refine lists_iff agree_emptyDisk ?_ (.cons ⟨hreply, rfl⟩ (.nil _))
    (show PlainName ['d'] by decide)
  intro e he
  obtain rfl := List.mem_singleton.mp he
  exact CrudCall.within_plain rfl

/-- A directory with the name `7` gets an entity, but is not listed. -/
theorem not_lists_seven :
    Agree (Directories.plain [['r']]) ['r'] emptyDisk ∧
    ∃ w reply, Run (CrudHandler.Logs ['r']) emptyDisk [(firstPost "/a/7".toList, reply)] w ∧
      reply.status = .created ∧
      (∃ reply', CrudHandler.Answers ['r'] w ⟨⟨.get, "/a/7".toList, [], []⟩, {}, {}⟩ reply' ∧
        reply'.status = .bad_request) ∧
      ¬ CrudHandler.Lists [['r']] ['r'] w ['7'] := by
  obtain ⟨reply, hreply, hcreated, reply', hreply', hbad⟩ : ∃ reply, CrudHandler.Answers ['r']
      emptyDisk (firstPost "/a/7".toList) reply ∧ reply.status = .created ∧
      ∃ reply', CrudHandler.Answers ['r'] reply.state
        ⟨⟨.get, "/a/7".toList, [], []⟩, {}, {}⟩ reply' ∧ reply'.status = .bad_request :=
    ⟨_, rfl, rfl, _, rfl, rfl⟩
  refine ⟨agree_emptyDisk, _, reply, .cons ⟨hreply, rfl⟩ (.nil _), hcreated,
    ⟨reply', hreply', hbad⟩, ?_⟩
  intro hlists
  obtain ⟨listed, ids, hlisted, hok, -⟩ :=
    hlists ⟨⟨.get, "/a/7".toList, [], []⟩, {}, {}⟩ "/a".toList rfl rfl
  obtain rfl : reply' = listed := Except.ok.inj (hreply'.symm.trans hlisted)
  rw [hbad] at hok
  cases hok

end SocialNetworkApp
