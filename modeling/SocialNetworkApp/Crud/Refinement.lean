import SocialNetworkApp.Crud.Creation
import SocialNetworkApp.Crud.Store

/-!
# The handler implements the store

On a disk that agrees with the ids, with nothing in the way of directories and files, every
canonical request is answered as the store answers it, and changes the entities as the store says.
-/

namespace SocialNetworkApp

open SocialNetworkApp.Core

/-- The files below the root, as a store. -/
def entities (R : List Str) (w : CrudState) : Store := fun key =>
  w.fs.tree.content (R ++ [key.1] ++ [toStr key.2])

/-- No file stands where a directory of entities would be, no directory where an entity would. -/
structure Unobstructed (R : List Str) (fs : FileSystem) : Prop where
  not_file : ∀ d, PlainName d → ¬ fs.tree.IsFile (R ++ [d])
  not_dir : ∀ d, PlainName d → ∀ id : CInt, ¬ fs.tree.IsDir (R ++ [d] ++ [toStr id])

variable {R : List Str} {root : Str} {w : CrudState} {fs fs' : FileSystem} {d : Str} {id : CInt}

lemma path_eq_iff {d d' : Str} {id id' : CInt} :
    R ++ [d] ++ [toStr id] = R ++ [d'] ++ [toStr id'] ↔ d = d' ∧ id = id' := by
  simp

lemma Unobstructed.directory (h : Unobstructed R fs)
    (hsets : fs.Sets (R ++ [d]) (some .dir) fs') : Unobstructed R fs' := by
  refine ⟨?_, ?_⟩
  · intro d' hd' hfile
    by_cases hdd : R ++ [d'] = R ++ [d]
    · rw [hdd] at hfile
      exact FileTree.not_isFile_of_isDir hsets.node_self hfile
    · exact h.not_file d' hd' ((hsets.isFile_ne hdd).mp hfile)
  · intro d' hd' id hdir
    have hne : R ++ [d'] ++ [toStr id] ≠ R ++ [d] := by
      intro heq
      have := congrArg List.length heq
      simp at this
    exact h.not_dir d' hd' id ((hsets.node_ne hne).symm.trans hdir)

lemma Unobstructed.file (h : Unobstructed R fs) {x : Option (Node Str)} (hx : x ≠ some .dir)
    (hsets : fs.Sets (R ++ [d] ++ [toStr id]) x fs') : Unobstructed R fs' := by
  refine ⟨?_, ?_⟩
  · intro d' hd' hfile
    have hne : R ++ [d'] ≠ R ++ [d] ++ [toStr id] := by
      intro heq
      have := congrArg List.length heq
      simp at this
    exact h.not_file d' hd' ((hsets.isFile_ne hne).mp hfile)
  · intro d' hd' id' hdir
    by_cases hp : R ++ [d'] ++ [toStr id'] = R ++ [d] ++ [toStr id]
    · rw [hp] at hdir
      exact hx (hsets.node_self.symm.trans hdir)
    · exact h.not_dir d' hd' id' ((hsets.node_ne hp).symm.trans hdir)

/-! ### Calls that succeed -/

namespace Core.FileSystem.RootAt

lemma resolve_plain (h : fs.RootAt root R) (hd : PlainName d) :
    fs.resolve (root ++ '/' :: d) = some (R ++ [d]) := by
  rw [h.resolve_dir hd.2.1, stepName_of_plain R hd]

lemma createDirectory_isSome (h : fs.RootAt root R) (hd : PlainName d)
    (hfile : ¬ fs.tree.IsFile (R ++ [d])) :
    ∃ fs', fs.createDirectory (root ++ '/' :: d) = some fs' ∧
      fs.Sets (R ++ [d]) (some .dir) fs' := by
  obtain ⟨t, ht⟩ := FileTree.createDirectory_isSome h.isDir hfile
  have hcreate : fs.createDirectory (root ++ '/' :: d) = some { fs with tree := t } := by
    simp [FileSystem.createDirectory, h.resolve_plain hd, ht]
  have hsets := (h.createDirectory hd.2.1 hcreate).2
  rw [stepName_of_plain R hd] at hsets
  exact ⟨_, hcreate, hsets⟩

lemma writeFile_isSome (h : fs.RootAt root R) (hd : PlainName d) (hdir : fs.tree.IsDir (R ++ [d]))
    (hfile : ¬ fs.tree.IsDir (R ++ [d] ++ [toStr id])) (content : Str) :
    ∃ fs', fs.writeFile (root ++ '/' :: d ++ '/' :: toStr id) content = some fs' ∧
      fs.Sets (R ++ [d] ++ [toStr id]) (some (.file content)) fs' := by
  obtain ⟨t, ht⟩ := FileTree.writeFile_isSome content hdir hfile
  have hresolve := h.resolve_file_of_isDir hd.2.1 (plainName_toStr id)
    (by rwa [stepName_of_plain R hd])
  rw [stepName_of_plain R hd] at hresolve
  have hwrite : fs.writeFile (root ++ '/' :: d ++ '/' :: toStr id) content =
      some { fs with tree := t } := by
    simp only [FileSystem.writeFile, hresolve, ht, Option.map_some]
  have hsets := (h.writeFile hd.2.1 hwrite).2
  rw [stepName_of_plain R hd] at hsets
  exact ⟨_, hwrite, hsets⟩

end Core.FileSystem.RootAt

/-! ### What the handler sees of an entity -/

section

variable {D : Directories R} {req : Request} {pre content : Str}

/-- An entity that is there is in the map, and its name denotes a file with its text. -/
lemma Agree.live (h : Agree D root w) (hd : d ∈ D.names)
    (hcontent : w.fs.tree.content (stepName R d ++ [toStr id]) = some content) :
    id ∈ idsOf w.entityIds d ∧
      w.fs.resolve (root ++ '/' :: d ++ '/' :: toStr id) = some (stepName R d ++ [toStr id]) ∧
      w.fs.tree.node (stepName R d ++ [toStr id]) = some (.file content) := by
  have hnode := FileTree.node_of_content hcontent
  refine ⟨(h.isFile_iff hd).mp ⟨content, hnode⟩, ?_, hnode⟩
  exact h.rootAt.resolve_file_of_isDir (D.slash_free d hd) (plainName_toStr id)
    (FileTree.isDir_of_node hnode)

lemma handleGet_live (h : Agree D root w) (hd : d ∈ D.names)
    (hcontent : w.fs.tree.content (stepName R d ++ [toStr id]) = some content)
    (hmethod : req.method = .get) (htarget : req.target = pre ++ '/' :: d ++ '/' :: toStr id)
    (res : Response) :
    CrudHandler.handleRequest root {} req res w =
      .ok ⟨.ok, res.fill "application/json".toList content, w⟩ := by
  obtain ⟨hmem, hresolve, hnode⟩ := h.live hd hcontent
  have hslash := (plainName_toStr id).2.1
  have hid : possibleId req.target = toStr id := by rw [htarget, possibleId_append _ hslash]
  have hdir : retrievalDir req.target (findLastOf '/' req.target) = d := by
    rw [htarget, retrievalDir_append pre (D.slash_free d hd) hslash]
  have hends : endsWithId req.target = .ok true := by rw [endsWithId, hid, stoi_toStr]
  have hexists : entityExists w.entityIds d id = true := entityExists_iff.mpr hmem
  have hread : Faults.openRead {} w.fs (root ++ '/' :: d ++ '/' :: toStr id) =
      .contents content := by
    simp only [Faults.openRead, FileSystem.openRead, hresolve, hnode, Bool.false_eq_true, if_false]
  simp only [CrudHandler.handleRequest, hmethod, handleGet, hends, retrieveEntity, hid,
    stoi_toStr, hdir, hexists, Bool.not_true, Bool.false_eq_true, if_false, hread]

lemma handleDeletion_live (h : Agree D root w) (hd : d ∈ D.names)
    (hcontent : w.fs.tree.content (stepName R d ++ [toStr id]) = some content)
    (hmethod : req.method = .delete_) (htarget : req.target = pre ++ '/' :: d ++ '/' :: toStr id)
    (res : Response) :
    ∃ entityIds fs, removeIdFromEntity w.entityIds d id = some entityIds ∧
      w.fs.Sets (stepName R d ++ [toStr id]) none fs ∧
      CrudHandler.handleRequest root {} req res w =
        .ok ⟨.ok, prepareDeletedResponse res id, fs, entityIds⟩ := by
  obtain ⟨hmem, hresolve, hnode⟩ := h.live hd hcontent
  have hname := plainName_toStr id
  have hcut : deletionTarget req.target = some (d, toStr id, d ++ '/' :: toStr id) := by
    rw [htarget, deletionTarget_append pre (D.slash_free d hd) hname.2.1 hname.1]
  have hpath : root ++ '/' :: (d ++ '/' :: toStr id) = root ++ '/' :: d ++ '/' :: toStr id := by
    simp
  have hexists : w.fs.pathExists (root ++ '/' :: d ++ '/' :: toStr id) = true := by
    rw [FileSystem.pathExists_of_resolve hresolve, hnode]
    rfl
  have hdir : w.fs.isDirectory (root ++ '/' :: d ++ '/' :: toStr id) = false := by
    rw [FileSystem.isDirectory_of_resolve hresolve]
    refine decide_eq_false ?_
    intro hdir
    exact FileTree.not_isFile_of_isDir hdir ⟨content, hnode⟩
  obtain ⟨entityIds, hremove⟩ := removeIdFromEntity_of_mem hmem
  obtain ⟨fs, hfs⟩ := FileSystem.remove_isSome hexists hdir
  have hfs' : Faults.remove {} w.fs (root ++ '/' :: d ++ '/' :: toStr id) = some fs := hfs
  refine ⟨entityIds, fs, hremove, FileSystem.remove_eq_some hfs hresolve, ?_⟩
  simp only [CrudHandler.handleRequest, hmethod, handleDeletion, hcut, hpath, Faults.isFile_empty,
    ok_bind, hexists, hdir, Bool.not_false, Bool.and_self, if_true, stoi_toStr, hremove, hfs']

end

/-- The disk and the ids as they are between requests. -/
structure Serving (R : List Str) (root : Str) (w : CrudState) : Prop where
  agree : Agree (Directories.plain R) root w
  unobstructed : Unobstructed R w.fs

namespace Serving

lemma live (h : Serving R root w) (hd : PlainName d) {content : Str}
    (hcontent : entities R w (d, id) = some content) :
    id ∈ idsOf w.entityIds d ∧ w.fs.tree.IsDir (R ++ [d]) ∧
      w.fs.resolve (root ++ '/' :: d ++ '/' :: toStr id) = some (R ++ [d] ++ [toStr id]) ∧
      w.fs.tree.node (R ++ [d] ++ [toStr id]) = some (.file content) := by
  obtain ⟨hmem, hresolve, hnode⟩ := h.agree.live (D := Directories.plain R) hd
    (show w.fs.tree.content (stepName R d ++ [toStr id]) = some content by
      rwa [stepName_of_plain R hd])
  rw [stepName_of_plain R hd] at hresolve hnode
  exact ⟨hmem, FileTree.isDir_of_node hnode, hresolve, hnode⟩

/-- An entity that is not there is neither in the map nor on the disk. -/
lemma dead (h : Serving R root w) (hd : PlainName d) (hcontent : entities R w (d, id) = none) :
    id ∉ idsOf w.entityIds d ∧
      w.fs.pathExists (root ++ '/' :: d ++ '/' :: toStr id) = false := by
  have hnot : ¬ w.fs.tree.IsFile (R ++ [d] ++ [toStr id]) :=
    FileTree.content_eq_none_iff.mp hcontent
  refine ⟨?_, ?_⟩
  · intro hmem
    have hfile := (h.agree.isFile_iff hd).mpr hmem
    rw [stepName_of_plain R hd] at hfile
    exact hnot hfile
  · by_contra hexists
    rw [Bool.not_eq_false] at hexists
    cases hresolve : w.fs.resolve (root ++ '/' :: d ++ '/' :: toStr id) with
    | none => simp only [FileSystem.pathExists, hresolve, Bool.false_eq_true] at hexists
    | some p =>
      obtain ⟨-, rfl⟩ := h.agree.rootAt.resolve_file hd.2.1 (plainName_toStr id) hresolve
      rw [FileSystem.pathExists_of_resolve hresolve, stepName_of_plain R hd] at hexists
      obtain ⟨x, hx⟩ := Option.isSome_iff_exists.mp hexists
      cases x with
      | file b => exact hnot ⟨b, hx⟩
      | dir => exact h.unobstructed.not_dir d hd id hx

end Serving

/-! ### The operations -/

section

variable {req : Request} {res : Response} {pre : Str}

/-- What the operations leave behind: the store changes at one key, and the next request finds the
same conditions. -/
structure Served (R : List Str) (root : Str) (w : CrudState) (op : StoreOp)
    (reply : Reply CrudState) : Prop where
  answer : op.AnsweredBy (entities R w) reply.status reply.response
  entities_eq : entities R reply.state =
    replay (entities R w) (op.effect reply.status reply.response)
  serving : Serving R root reply.state

lemma entities_sets_file {content : Str} {entityIds : EntityIds}
    (hsets : w.fs.Sets (R ++ [d] ++ [toStr id]) (some (.file content)) fs') :
    entities R ⟨fs', entityIds⟩ = Function.update (entities R w) (d, id) (some content) := by
  funext key
  obtain ⟨d', id'⟩ := key
  simp only [entities, hsets.content_file, path_eq_iff, Function.update_apply, Prod.mk.injEq]

lemma handleGet_served (h : Serving R root w) (hd : PlainName d) (hmethod : req.method = .get)
    (htarget : req.target = pre ++ '/' :: d ++ '/' :: toStr id) :
    ∃ reply, CrudHandler.handleRequest root {} req res w = .ok reply ∧
      Served R root w (.get d id) reply := by
  cases hcontent : entities R w (d, id) with
  | none =>
    obtain ⟨hmem, -⟩ := h.dead hd hcontent
    have hslash := (plainName_toStr id).2.1
    have hid : possibleId req.target = toStr id := by rw [htarget, possibleId_append _ hslash]
    have hdir : retrievalDir req.target (findLastOf '/' req.target) = d := by
      rw [htarget, retrievalDir_append pre hd.2.1 hslash]
    have hends : endsWithId req.target = .ok true := by rw [endsWithId, hid, stoi_toStr]
    have hexists : entityExists w.entityIds d id = false := by
      rwa [← Bool.not_eq_true, entityExists_iff]
    have hreply : CrudHandler.handleRequest root {} req res w =
        .ok (refuse res ("Entity with id: ".toList ++ toStr id ++ " does not exist in dir ".toList ++ d)
          w) := by
      simp only [CrudHandler.handleRequest, hmethod, handleGet, hends, retrieveEntity, hid,
        stoi_toStr, hdir, hexists, Bool.not_false, if_true]
    refine ⟨_, hreply, ?_, rfl, h⟩
    simp [StoreOp.AnsweredBy, hcontent, refuse]
  | some content =>
    have hfile : w.fs.tree.content (stepName R d ++ [toStr id]) = some content := by
      rwa [stepName_of_plain R hd]
    refine ⟨_, handleGet_live h.agree hd hfile hmethod htarget res, ?_, rfl, h⟩
    simp [StoreOp.AnsweredBy, hcontent]

/-- Where there is no such file, a `DELETE` is refused. -/
lemma handleDeletion_refused {name : Str} (res : Response) (hd : PlainName d)
    (hname : PlainName name) (hmethod : req.method = .delete_)
    (htarget : req.target = pre ++ '/' :: d ++ '/' :: name)
    (hmissing : ¬ (w.fs.pathExists (root ++ '/' :: d ++ '/' :: name) &&
      !w.fs.isDirectory (root ++ '/' :: d ++ '/' :: name)) = true) :
    CrudHandler.handleRequest root {} req res w =
      .ok (refuse res ("Failed to find file during Entity Deletion at : ".toList ++
        (root ++ '/' :: (d ++ '/' :: name))) w) := by
  have hcut : deletionTarget req.target = some (d, name, d ++ '/' :: name) := by
    rw [htarget, deletionTarget_append pre hd.2.1 hname.2.1 hname.1]
  have hpath : root ++ '/' :: (d ++ '/' :: name) = root ++ '/' :: d ++ '/' :: name := by
    rw [List.append_assoc, List.cons_append]
  simp only [CrudHandler.handleRequest, hmethod, handleDeletion, hcut, hpath, Faults.isFile_empty,
    ok_bind, if_neg hmissing]

lemma handleDeletion_served (h : Serving R root w) (hd : PlainName d)
    (hmethod : req.method = .delete_)
    (htarget : req.target = pre ++ '/' :: d ++ '/' :: toStr id) :
    ∃ reply, CrudHandler.handleRequest root {} req res w = .ok reply ∧
      Served R root w (.delete d id) reply := by
  cases hcontent : entities R w (d, id) with
  | none =>
    obtain ⟨-, hexists⟩ := h.dead hd hcontent
    have hmissing : ¬ (w.fs.pathExists (root ++ '/' :: d ++ '/' :: toStr id) &&
        !w.fs.isDirectory (root ++ '/' :: d ++ '/' :: toStr id)) = true := by
      rw [hexists]
      exact Bool.false_ne_true
    refine ⟨_, handleDeletion_refused res hd (plainName_toStr id) hmethod htarget hmissing, ?_,
      rfl, h⟩
    simp [StoreOp.AnsweredBy, hcontent, refuse]
  | some content =>
    have hlive : w.fs.tree.content (stepName R d ++ [toStr id]) = some content := by
      rwa [stepName_of_plain R hd]
    obtain ⟨entityIds, fs, hremove, hsets, hreply⟩ :=
      handleDeletion_live h.agree hd hlive hmethod htarget res
    have hagree := h.agree.delete hd hremove hsets
    rw [stepName_of_plain R hd] at hsets
    refine ⟨_, hreply, ?_, ?_, hagree, h.unobstructed.file (by simp) hsets⟩
    · simp [StoreOp.AnsweredBy, hcontent]
    · funext key
      obtain ⟨d', id'⟩ := key
      simp [entities, hsets.content_none, StoreOp.effect, Function.update_apply]

/-- A directory that was made, or was there, is ready for a new entity. -/
lemma Serving.makeDirectory (h : Serving R root w) (hd : PlainName d) :
    ∃ fs, w.fs.createDirectory (root ++ '/' :: d) = some fs ∧ fs.tree.IsDir (R ++ [d]) ∧
      Serving R root ⟨fs, w.entityIds⟩ ∧ entities R ⟨fs, w.entityIds⟩ = entities R w := by
  have hfile := h.unobstructed.not_file d hd
  obtain ⟨fs, hcreate, hsets⟩ := h.agree.rootAt.createDirectory_isSome hd hfile
  refine ⟨fs, hcreate, hsets.node_self, ⟨?_, h.unobstructed.directory hsets⟩, ?_⟩
  · exact Agree.directory h.agree hfile hsets
  · funext key
    exact hsets.content_dir hfile _

/-- A text that is written becomes an entity. -/
lemma Serving.storeFile (h : Serving R root w) (hd : PlainName d)
    (hdir : w.fs.tree.IsDir (R ++ [d])) (id : CInt) (content : Str) :
    ∃ fs, w.fs.writeFile (root ++ '/' :: d ++ '/' :: toStr id) content = some fs ∧
      Serving R root ⟨fs, addIdToEntity w.entityIds d id⟩ ∧
      entities R ⟨fs, addIdToEntity w.entityIds d id⟩ =
        Function.update (entities R w) (d, id) (some content) := by
  have hnot := h.unobstructed.not_dir d hd id
  obtain ⟨fs, hwrite, hsets⟩ := h.agree.rootAt.writeFile_isSome hd hdir hnot content
  refine ⟨fs, hwrite, ⟨?_, h.unobstructed.file (by simp) hsets⟩, entities_sets_file hsets⟩
  rw [← stepName_of_plain R hd] at hnot hsets
  exact Agree.store h.agree hd hnot hsets

lemma handleCreation_served (h : Serving R root w) (hd : PlainName d) {body : Str}
    (hmethod : req.method = .post) (htarget : req.target = pre ++ '/' :: d)
    (hbody : req.body = body) :
    ∃ reply, CrudHandler.handleRequest root {} req res w = .ok reply ∧
      Served R root w (.post d body) reply := by
  have hsegment : lastSegment req.target = some (pre.length, d) := by
    rw [htarget, lastSegment_append pre hd.2.1 hd.1]
  obtain ⟨fs, hensure, hdir, hserving, hsame⟩ : ∃ fs,
      ensureDirectory {} w.fs (root ++ '/' :: d) = .ok (some fs) ∧ fs.tree.IsDir (R ++ [d]) ∧
        Serving R root ⟨fs, w.entityIds⟩ ∧ entities R ⟨fs, w.entityIds⟩ = entities R w := by
    simp only [ensureDirectory, Faults.isNoDirectory_empty, ok_bind]
    split_ifs with hmissing
    · obtain ⟨fs, hcreate, hmade⟩ := h.makeDirectory hd
      exact ⟨fs, congrArg Except.ok hcreate, hmade⟩
    · refine ⟨w.fs, rfl, ?_, h, rfl⟩
      simp only [Bool.or_eq_true, Bool.not_eq_true', not_or, Bool.not_eq_false] at hmissing
      rw [FileSystem.isDirectory_of_resolve (h.agree.rootAt.resolve_plain hd)] at hmissing
      exact of_decide_eq_true hmissing.2
  obtain ⟨fs', hwrite, hserving', hentities⟩ :=
    hserving.storeFile hd hdir (getAvailableId w.entityIds d) body
  have hwrite' : Faults.writeFile {} fs
      (root ++ '/' :: d ++ '/' :: toStr (getAvailableId w.entityIds d)) body = some fs' := hwrite
  have hreply : CrudHandler.handleRequest root {} req res w =
      .ok ⟨.created, prepareCreatedResponse res (getAvailableId w.entityIds d), fs',
        addIdToEntity w.entityIds d (getAvailableId w.entityIds d)⟩ := by
    simp only [CrudHandler.handleRequest, hmethod, handleCreation, hsegment, hensure, ok_bind, hbody,
      hwrite']
  have hreported := StoreOp.reportedId_entityText (getAvailableId w.entityIds d)
  refine ⟨_, hreply, ⟨rfl, _, hreported⟩, ?_, hserving'⟩
  rw [hentities, hsame]
  simp only [StoreOp.effect, prepareCreatedResponse, Response.body_fill, if_true, hreported]
  rfl

lemma handleUpdate_served (h : Serving R root w) (hd : PlainName d) {body : Str}
    (hmethod : req.method = .put) (htarget : req.target = pre ++ '/' :: d ++ '/' :: toStr id)
    (hbody : req.body = body) :
    ∃ reply, CrudHandler.handleRequest root {} req res w = .ok reply ∧
      Served R root w (.put d id body) reply := by
  have hname := plainName_toStr id
  have hsegment : lastSegment req.target = some ((pre ++ '/' :: d).length, toStr id) := by
    rw [htarget, lastSegment_append _ hname.2.1 hname.1]
  have hcut : req.target.take (req.target.length - (toStr id).length - 1) = pre ++ '/' :: d := by
    rw [htarget]
    exact List.take_left' (by simp only [List.length_append, List.length_cons]; omega)
  have hdirectory : lastSegment (pre ++ '/' :: d) = some (pre.length, d) :=
    lastSegment_append pre hd.2.1 hd.1
  cases hcontent : entities R w (d, id) with
  | none =>
    obtain ⟨-, hexists⟩ := h.dead hd hcontent
    obtain ⟨fs, hcreate, hdir, hserving, hsame⟩ := h.makeDirectory hd
    obtain ⟨fs', hwrite, hserving', hentities⟩ := hserving.storeFile hd hdir id body
    have hcreate' : Faults.createDirectory {} w.fs (root ++ '/' :: d) = some fs := hcreate
    have hwrite' : Faults.writeFile {} fs (root ++ '/' :: d ++ '/' :: toStr id) body = some fs' :=
      hwrite
    have hreply : CrudHandler.handleRequest root {} req res w =
        .ok ⟨.created, prepareCreatedResponse res id, fs', addIdToEntity w.entityIds d id⟩ := by
      simp only [CrudHandler.handleRequest, hmethod, handleUpdate, hsegment, stoi_toStr, hcut,
        hdirectory, Faults.isMissing_empty, ok_bind, hexists, Bool.not_false, Bool.true_or, if_true,
        hcreate', hbody, hwrite']
    refine ⟨_, hreply, ?_, ?_, hserving'⟩
    · simp [StoreOp.AnsweredBy, hcontent]
    · rw [hentities, hsame]
      simp [StoreOp.effect]
  | some content =>
    obtain ⟨hmem, hdir, hresolve, hnode⟩ := h.live hd hcontent
    obtain ⟨fs', hwrite, hserving', hentities⟩ := h.storeFile hd hdir id body
    rw [addIdToEntity_of_mem hmem] at hserving' hentities
    have hexists : w.fs.pathExists (root ++ '/' :: d ++ '/' :: toStr id) = true := by
      rw [FileSystem.pathExists_of_resolve hresolve, hnode]
      rfl
    have hdirname := h.agree.rootAt.resolve_plain hd
    have hdirexists : w.fs.pathExists (root ++ '/' :: d) = true := by
      rw [FileSystem.pathExists_of_resolve hdirname, hdir]
      rfl
    have hisdir : w.fs.isDirectory (root ++ '/' :: d) = true := by
      rw [FileSystem.isDirectory_of_resolve hdirname]
      exact decide_eq_true hdir
    have hwrite' : Faults.writeFile {} w.fs (root ++ '/' :: d ++ '/' :: toStr id) body = some fs' :=
      hwrite
    have hreply : CrudHandler.handleRequest root {} req res w =
        .ok ⟨.ok, prepareUpdateResponse res id, fs', w.entityIds⟩ := by
      simp only [CrudHandler.handleRequest, hmethod, handleUpdate, hsegment, stoi_toStr, hcut,
        hdirectory, Faults.isMissing_empty, ok_bind, hexists, hdirexists, hisdir, Bool.not_true,
        Bool.and_false, Bool.or_self, Bool.false_eq_true, if_false, hbody, hwrite']
    refine ⟨_, hreply, ?_, ?_, hserving'⟩
    · simp [StoreOp.AnsweredBy, hcontent]
    · rw [hentities]
      simp [StoreOp.effect]

/-- One canonical request: it is answered as the store answers it. -/
theorem handleRequest_served (h : Serving R root w) {op : StoreOp} (hop : PlainName op.dir)
    (hreq : op.RequestedBy req) (res : Response) :
    ∃ reply, CrudHandler.handleRequest root {} req res w = .ok reply ∧
      Served R root w op reply := by
  obtain ⟨pre, hreq⟩ := hreq
  cases op with
  | post d body => exact handleCreation_served h hop hreq.1 hreq.2.1 hreq.2.2
  | put d id body => exact handleUpdate_served h hop hreq.1 hreq.2.1 hreq.2.2
  | delete d id => exact handleDeletion_served h hop hreq.1 hreq.2
  | get d id => exact handleGet_served h hop hreq.1 hreq.2

end

/-! ### Runs -/

/-- A canonical request to a plain directory, and its answer. -/
def CrudHandler.Exchanges (root : Str) (w : CrudState) (e : Exchange) (w' : CrudState) : Prop :=
  PlainName e.op.dir ∧ ∃ req res, e.op.RequestedBy req ∧
    CrudHandler.handleRequest root {} req res w = .ok ⟨e.status, e.response, w'⟩

lemma Serving.exchange (h : Serving R root w) {e : Exchange} {w' : CrudState}
    (hstep : CrudHandler.Exchanges root w e w') :
    Serving R root w' ∧ entities R w' = replay (entities R w) (e.op.effect e.status e.response) := by
  obtain ⟨hop, req, res, hreq, hreply⟩ := hstep
  obtain ⟨reply, hreply', hserved⟩ := handleRequest_served h hop hreq res
  obtain rfl : ⟨e.status, e.response, w'⟩ = reply := by
    simpa [hreply] using hreply'
  exact ⟨hserved.serving, hserved.entities_eq⟩

/-- The files hold what the answers told. -/
theorem Serving.run (h : Serving R root w) {trace : List Exchange} {w' : CrudState}
    (hrun : Run (CrudHandler.Exchanges root) w trace w') :
    Serving R root w' ∧ entities R w' = latest (entities R w) trace := by
  refine hrun.induction_on_last
    (P := fun trace w' => Serving R root w' ∧ entities R w' = latest (entities R w) trace)
    ⟨h, ?_⟩ ?_
  · rw [latest_eq_replay]
    rfl
  · rintro trace e t t' - ⟨hserving, hentities⟩ hstep
    obtain ⟨hserving', hentities'⟩ := hserving.exchange hstep
    refine ⟨hserving', ?_⟩
    rw [hentities', hentities, latest_eq_replay, latest_eq_replay, storeLog, storeLog,
      List.flatMap_append, replay_append]
    simp

/-- Behind any run of canonical requests, the next one is answered from what the answers so far
told of the store, and leaves all entities alone but the one its own answer tells of. -/
theorem crudHandler_refines_store {w₀ : CrudState} (h : Agree (Directories.plain R) root w₀)
    (hfree : Unobstructed R w₀.fs) {trace : List Exchange}
    (hrun : Run (CrudHandler.Exchanges root) w₀ trace w) {op : StoreOp} (hop : PlainName op.dir)
    {req : Request} (hreq : op.RequestedBy req) (res : Response) :
    ∃ reply, CrudHandler.handleRequest root {} req res w = .ok reply ∧
      op.AnsweredBy (latest (entities R w₀) trace) reply.status reply.response ∧
      ∀ key, (∀ e ∈ op.effect reply.status reply.response, e.1 ≠ key) →
        entities R reply.state key = entities R w key := by
  have hstart : Serving R root w₀ := ⟨h, hfree⟩
  obtain ⟨hserving, hentities⟩ := hstart.run hrun
  obtain ⟨reply, hreply, hserved⟩ := handleRequest_served hserving hop hreq res
  refine ⟨reply, hreply, hentities ▸ hserved.answer, ?_⟩
  intro key hkey
  rw [hserved.entities_eq, replay_eq_last, List.filter_eq_nil_iff.mpr]
  · rfl
  · simpa using hkey

lemma unobstructed_emptyDisk : Unobstructed [['r']] emptyDisk.fs := by
  refine ⟨?_, ?_⟩
  · rintro d - ⟨content, hcontent⟩
    rw [node_emptyDisk (by simp)] at hcontent
    cases hcontent
  · intro d _ id hdir
    rw [FileTree.IsDir, node_emptyDisk (by simp)] at hdir
    cases hdir

/-- A `GET` of an entity that was put before. -/
theorem crudHandler_refines_store_get :
    ∃ w reply,
      Run (CrudHandler.Exchanges ['r']) emptyDisk
        [⟨.put ['d'] 1 ['x'], .created, prepareCreatedResponse {} 1⟩] w ∧
      CrudHandler.handleRequest ['r'] {} ⟨.get, "/d/1".toList, [], []⟩ {} w = .ok reply ∧
      (StoreOp.get ['d'] 1).AnsweredBy
        (latest (entities [['r']] emptyDisk)
          [⟨.put ['d'] 1 ['x'], .created, prepareCreatedResponse {} 1⟩])
        reply.status reply.response := by
  have hrun : ∃ w, Run (CrudHandler.Exchanges ['r']) emptyDisk
      [⟨.put ['d'] 1 ['x'], .created, prepareCreatedResponse {} 1⟩] w :=
    ⟨_, .cons ⟨by decide, ⟨.put, "/d/1".toList, ['x'], []⟩, {}, ⟨[], rfl, rfl, rfl⟩, rfl⟩ (.nil _)⟩
  obtain ⟨w, hrun⟩ := hrun
  obtain ⟨reply, hreply, hanswer, -⟩ :=
    crudHandler_refines_store agree_emptyDisk unobstructed_emptyDisk hrun
      (show PlainName (StoreOp.dir (.get ['d'] 1)) by decide)
      (show (StoreOp.get ['d'] 1).RequestedBy ⟨.get, "/d/1".toList, [], []⟩ from ⟨[], rfl, rfl⟩) {}
  exact ⟨w, reply, hrun, hreply, hanswer⟩

end SocialNetworkApp
