import SocialNetworkApp.Crud.Creation

/-!
# Requests that fail

A `POST` or a `PUT` enters the id after the file is written, so a call of the file system that fails
leaves no id behind. A `DELETE` takes the id out before it removes the file.
-/

namespace SocialNetworkApp

open SocialNetworkApp.Core

/-- The ids and the files are the same; a directory may have been made. -/
structure SameEntities (w w' : CrudState) : Prop where
  entityIds_eq : w'.entityIds = w.entityIds
  content_eq : ∀ p, w'.fs.tree.content p = w.fs.tree.content p

lemma SameEntities.refl (w : CrudState) : SameEntities w w := ⟨rfl, fun _ => rfl⟩

lemma SameEntities.of_eq {w w' : CrudState} (h : w' = w) : SameEntities w w' := h ▸ .refl w

lemma SameEntities.createDirectory {w w' : CrudState} {fs : FileSystem} {path : Str}
    (hdir : w.fs.createDirectory path = some fs) (hstate : w' = ⟨fs, w.entityIds⟩) :
    SameEntities w w' := by
  subst hstate
  obtain ⟨p, -, hfile, hsets⟩ := FileSystem.createDirectory_eq_some hdir
  exact ⟨rfl, hsets.content_dir hfile⟩

namespace CrudHandler

/-- An answer other than 200 and 201 says that the entities are as before. -/
def FailsCleanly (root : Str) (w : CrudState) (c : CrudCall) : Prop :=
  ∀ reply, Answers root w c reply → reply.status ≠ .ok → reply.status ≠ .created →
    SameEntities w reply.state

/-- A `DELETE` of an entity in the map, with a file that is found and cannot be removed. -/
def HalfDeletes (root : Str) (w : CrudState) (c : CrudCall) : Prop :=
  c.request.method = .delete_ ∧ c.faults.removal = true ∧
    ∃ (dir name both : Str) (id : CInt),
      deletionTarget c.request.target = some (dir, name, both) ∧ stoi name = .ok id ∧
      c.faults.Tells w.fs (root ++ '/' :: both) ∧ w.fs.pathExists (root ++ '/' :: both) = true ∧
      w.fs.isDirectory (root ++ '/' :: both) = false ∧ entityExists w.entityIds dir id = true

end CrudHandler

variable {root : Str} {faults : Faults} {req : Request} {res : Response} {w : CrudState}

/-! ### One handler at a time -/

lemma handleCreation_sameEntities
    {reply : Reply CrudState} (h : handleCreation root faults req res w = .ok reply)
    (hcreated : reply.status ≠ .created) : SameEntities w reply.state := by
  rcases handleCreation_cases h with
    ⟨-, hsame | ⟨i, d, fs, -, hdir, hstate⟩⟩ | ⟨i, d, fs, fs', -, -, -, rfl⟩
  · exact .of_eq hsame
  · exact .createDirectory hdir hstate
  · exact absurd rfl hcreated

lemma handleUpdate_sameEntities {reply : Reply CrudState}
    (h : handleUpdate root faults req res w = .ok reply) (hok : reply.status ≠ .ok)
    (hcreated : reply.status ≠ .created) : SameEntities w reply.state := by
  rcases handleUpdate_cases h with ⟨-, hsame | ⟨d, id, fs, -, hdir, hstate⟩⟩ |
    ⟨d, id, -, ⟨fs, fs', -, -, rfl⟩ | ⟨fs, -, -, rfl⟩⟩
  · exact .of_eq hsame
  · exact .createDirectory hdir hstate
  · exact absurd rfl hcreated
  · exact absurd rfl hok

/-- The id of an entity is lost with the vector it stood in. -/
lemma ne_of_removeIdFromEntity {entityIds entityIds' : EntityIds} {dir : Str} {id : CInt}
    (h : removeIdFromEntity entityIds dir id = some entityIds') : entityIds' ≠ entityIds := by
  obtain ⟨hmem, hinsert⟩ := removeIdFromEntity_eq_some h
  intro heq
  have hids : (idsOf entityIds dir).erase id = idsOf entityIds dir := by
    rw [← @idsOf_insert_self entityIds dir ((idsOf entityIds dir).erase id), ← hinsert, heq]
  have hlength := congrArg List.length hids
  rw [List.length_erase_of_mem hmem] at hlength
  have hpos := List.length_pos_of_mem hmem
  omega

lemma CrudHandler.HalfDeletes.not_failsCleanly {c : CrudCall}
    (h : CrudHandler.HalfDeletes root w c) : ¬ CrudHandler.FailsCleanly root w c := by
  obtain ⟨hmethod, hfault, dir, name, both, id, htarget, hid, htells, hexists, hdir, hentity⟩ := h
  obtain ⟨entityIds, hremove⟩ := removeIdFromEntity_of_mem (entityExists_iff.mp hentity)
  have hfile : c.faults.isFile w.fs (root ++ '/' :: both) = .ok true :=
    Faults.isFile_eq_ok_iff.mpr ⟨htells, by rw [hexists, hdir]; rfl⟩
  intro hclean
  have hreply : CrudHandler.Answers root w c
      ⟨.internal_server_error, prepareServerErrorResponse c.response
        "Could not delete file assosciated with deleted Entity".toList, w.fs, entityIds⟩ := by
    simp only [CrudHandler.Answers, CrudHandler.handleRequest, hmethod, handleDeletion, htarget,
      hfile, ok_bind, hid, hremove, Faults.remove, hfault, if_true]
  have hsame := hclean _ hreply Status.noConfusion Status.noConfusion
  exact ne_of_removeIdFromEntity hremove hsame.entityIds_eq

/-- A request that fails leaves the entities alone exactly if it is not a `DELETE` stopped between
the map and the file. -/
theorem failsCleanly_iff {c : CrudCall} :
    CrudHandler.FailsCleanly root w c ↔ ¬ CrudHandler.HalfDeletes root w c := by
  refine ⟨fun hclean hhalf => hhalf.not_failsCleanly hclean, ?_⟩
  intro hhalf reply hreply hok hcreated
  simp only [CrudHandler.Answers, CrudHandler.handleRequest] at hreply
  cases hmethod : c.request.method with
  | post =>
    simp only [hmethod] at hreply
    exact handleCreation_sameEntities hreply hcreated
  | get =>
    simp only [hmethod] at hreply
    exact .of_eq (handleGet_state hreply)
  | put =>
    simp only [hmethod] at hreply
    exact handleUpdate_sameEntities hreply hok hcreated
  | delete_ =>
    simp only [hmethod] at hreply
    rcases handleDeletion_cases hreply with ⟨-, hsame⟩ |
      ⟨d, name, both, id, entityIds, htarget, hid, htells, hexists, hdir, hremove, hremoved⟩
    · exact .of_eq hsame
    · -- the id is out of the map: either the file went too, or this is the half of a deletion
      rcases hremoved with ⟨fs, -, -, rfl⟩ | ⟨hfail, -⟩
      · exact absurd rfl hok
      · refine absurd
          ⟨hmethod, ?_, d, name, both, id, htarget, hid, htells, hexists, hdir, ?_⟩ hhalf
        · obtain ⟨fs, hfs⟩ := FileSystem.remove_isSome hexists hdir
          by_contra hfault
          simp [Faults.remove, hfault, hfs] at hfail
        · exact entityExists_iff.mpr (removeIdFromEntity_eq_some hremove).1
  | other name =>
    simp only [hmethod, Except.ok.injEq] at hreply
    subst hreply
    exact .refl w

/-- A `DELETE` of a new entity whose file cannot be removed: the file stays, and its id is gone. -/
theorem not_failsCleanly_firstPost :
    ∃ w reply, Run (CrudHandler.Step ['r']) emptyDisk
        [⟨⟨.post, "/d".toList, ['x'], []⟩, {}, {}⟩] w ∧
      CrudHandler.Answers ['r'] w
        ⟨⟨.delete_, "/d/1".toList, [], []⟩, {}, { removal := true }⟩ reply ∧
      reply.status = .internal_server_error ∧ idsOf reply.state.entityIds ['d'] = [] ∧
      reply.state.fs.tree.content [['r'], ['d'], ['1']] = some ['x'] ∧
      ¬ CrudHandler.FailsCleanly ['r'] w
        ⟨⟨.delete_, "/d/1".toList, [], []⟩, {}, { removal := true }⟩ := by
  refine ⟨_, _, .cons ⟨_, rfl, rfl⟩ (.nil _), rfl, rfl, rfl, rfl, ?_⟩
  intro hclean
  have hsame := hclean _ rfl Status.noConfusion Status.noConfusion
  have hids : [] = [(1 : CInt)] := congrArg (idsOf · ['d']) hsame.entityIds_eq
  cases hids

end SocialNetworkApp
