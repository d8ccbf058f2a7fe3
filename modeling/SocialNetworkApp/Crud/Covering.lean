import SocialNetworkApp.Core.Subtree
import SocialNetworkApp.Crud.Refinement
import SocialNetworkApp.Crud.Rescan

/-!
# Ids that cover the files

The scan before a request enters the ids of all files, some of them twice, and keeps ids whose files
are gone. To answer as the store does, a handler needs no more than that: it looks up an id only
together with a file.
-/

namespace SocialNetworkApp

open SocialNetworkApp.Core

variable {R R' : List Str} {root : Str} {fs fs' : FileSystem} {d : Str} {id : CInt}

/-! ### A root for entities -/

lemma Core.FileSystem.RootAt.grows (h : fs.RootAt root R') (hgrows : fs.GrowsBelow R fs') :
    fs'.RootAt root R' :=
  ⟨FileSystem.resolve_mono hgrows.within.cwd_eq hgrows.isDir h.resolve_eq, hgrows.isDir R' h.isDir⟩

/-- Below the root stand directories of entities, and nothing else. -/
structure EntityRoot (R : List Str) (root : Str) (fs : FileSystem) : Prop
    extends EntityDisk R root fs where
  not_file : ∀ d, PlainName d → ¬ fs.tree.IsFile (R ++ [d])

namespace EntityRoot

lemma unobstructed (h : EntityRoot R root fs) : Unobstructed R fs := by
  refine ⟨h.not_file, ?_⟩
  intro d _ id hdir
  obtain ⟨content, id', heq, -⟩ := h.shape.entity hdir
  cases heq

/-- What happens elsewhere does not matter. -/
lemma apart (h : EntityRoot R' root fs) (hgrows : fs.GrowsBelow R fs')
    (hapart : FileSystem.Apart R R') : EntityRoot R' root fs' := by
  have hnode := hgrows.node_apart hapart
  refine ⟨⟨FileSystem.RootAt.grows h.rootAt hgrows, ?_, ?_⟩, ?_⟩
  · intro d x hx
    rw [hnode] at hx
    exact h.shape.plain hx
  · intro d name x hx
    rw [List.append_assoc, hnode, ← List.append_assoc] at hx
    exact h.shape.entity hx
  · rintro d hd ⟨content, hcontent⟩
    rw [hnode] at hcontent
    exact h.not_file d hd ⟨content, hcontent⟩

/-- A directory is made, or is there. -/
lemma makeDirectory (h : EntityRoot R root fs) (hd : PlainName d) :
    ∃ fs', fs.createDirectory (root ++ '/' :: d) = some fs' ∧ fs'.tree.IsDir (R ++ [d]) ∧
      EntityRoot R root fs' ∧ fs.GrowsBelow R fs' ∧
      ∀ q, fs'.tree.content q = fs.tree.content q := by
  have hfile := h.not_file d hd
  obtain ⟨fs', hcreate, hsets⟩ := h.rootAt.createDirectory_isSome hd hfile
  refine ⟨fs', hcreate, hsets.node_self, ⟨h.directory hd.2.1 hcreate, ?_⟩, ?_, ?_⟩
  · exact (h.unobstructed.directory hsets).not_file
  · exact .of_sets hsets fun _ => rfl
  · exact hsets.content_dir hfile

/-- A text is stored. -/
lemma storeFile (h : EntityRoot R root fs) (hd : PlainName d) (hdir : fs.tree.IsDir (R ++ [d]))
    (id : CInt) (content : Str) :
    ∃ fs', fs.writeFile (root ++ '/' :: d ++ '/' :: toStr id) content = some fs' ∧
      EntityRoot R root fs' ∧ fs.GrowsBelow R fs' ∧
      fs.Sets (R ++ [d] ++ [toStr id]) (some (.file content)) fs' := by
  have hnot := h.unobstructed.not_dir d hd id
  obtain ⟨fs', hwrite, hsets⟩ := h.rootAt.writeFile_isSome hd hdir hnot content
  refine ⟨fs', hwrite, ⟨h.file hd.2.1 hwrite, ?_⟩, ?_, hsets⟩
  · exact (h.unobstructed.file (by simp) hsets).not_file
  · rw [List.append_assoc] at hsets hnot
    exact .of_sets hsets fun hp => absurd hp hnot

/-- The name of an entity denotes its file. -/
lemma resolve_entity (h : EntityRoot R root fs) (hd : PlainName d) {x : Node Str}
    (hnode : fs.tree.node (R ++ [d] ++ [toStr id]) = some x) :
    fs.resolve (root ++ '/' :: d ++ '/' :: toStr id) = some (R ++ [d] ++ [toStr id]) := by
  have hdir := FileTree.isDir_of_node hnode
  have hresolve := h.rootAt.resolve_file_of_isDir hd.2.1 (plainName_toStr id)
    (by rwa [stepName_of_plain R hd])
  rwa [stepName_of_plain R hd] at hresolve

/-- Without the file, the name denotes nothing that is there. -/
lemma pathExists_eq_false (h : EntityRoot R root fs) (hd : PlainName d)
    (hnone : fs.tree.content (R ++ [d] ++ [toStr id]) = none) :
    fs.pathExists (root ++ '/' :: d ++ '/' :: toStr id) = false := by
  by_contra hexists
  rw [Bool.not_eq_false] at hexists
  cases hresolve : fs.resolve (root ++ '/' :: d ++ '/' :: toStr id) with
  | none => simp only [FileSystem.pathExists, hresolve, Bool.false_eq_true] at hexists
  | some p =>
    obtain ⟨-, rfl⟩ := h.rootAt.resolve_file hd.2.1 (plainName_toStr id) hresolve
    rw [FileSystem.pathExists_of_resolve hresolve, stepName_of_plain R hd] at hexists
    obtain ⟨x, hx⟩ := Option.isSome_iff_exists.mp hexists
    obtain ⟨content, id', rfl, -⟩ := h.shape.entity hx
    exact FileTree.content_eq_none_iff.mp hnone ⟨content, hx⟩

end EntityRoot

/-! ### The operations -/

/-- The ids of all files are entered. -/
structure Covered (R : List Str) (root : Str) (w : CrudState) : Prop where
  disk : EntityRoot R root w.fs
  mem : ∀ d, PlainName d → ∀ id,
    w.fs.tree.IsFile (R ++ [d] ++ [toStr id]) → id ∈ idsOf w.entityIds d

/-- The request is answered as the store answers it, changes the entities as the store says, and
leaves a root for entities behind. -/
structure CrudKept (R : List Str) (root : Str) (w : CrudState) (op : StoreOp)
    (reply : Reply CrudState) : Prop where
  answer : op.AnsweredBy (entities R w) reply.status reply.response
  result : reply.response.result = reply.status
  entities_eq : entities R reply.state =
    replay (entities R w) (op.effect reply.status reply.response)
  disk : EntityRoot R root reply.state.fs
  grows : w.fs.GrowsBelow R reply.state.fs

section

variable {w : CrudState} {req : Request} {res : Response} {pre : Str}

lemma handleGet_kept (h : Covered R root w) (hd : PlainName d) (hres : res.result = .ok)
    (hmethod : req.method = .get) (htarget : req.target = pre ++ '/' :: d ++ '/' :: toStr id) :
    ∃ reply, CrudHandler.handleRequest root {} req res w = .ok reply ∧
      CrudKept R root w (.get d id) reply := by
  have hslash := (plainName_toStr id).2.1
  have hid : possibleId req.target = toStr id := by rw [htarget, possibleId_append _ hslash]
  have hdir : retrievalDir req.target (findLastOf '/' req.target) = d := by
    rw [htarget, retrievalDir_append pre hd.2.1 hslash]
  have hends : endsWithId req.target = .ok true := by rw [endsWithId, hid, stoi_toStr]
  cases hcontent : entities R w (d, id) with
  | some content =>
    have hnode := FileTree.node_of_content hcontent
    have hexists : entityExists w.entityIds d id = true :=
      entityExists_iff.mpr (h.mem d hd id ⟨content, hnode⟩)
    have hread : Faults.openRead {} w.fs (root ++ '/' :: d ++ '/' :: toStr id) =
        .contents content :=
      FileSystem.openRead_of_node (h.disk.resolve_entity hd hnode) hnode
    have hreply : CrudHandler.handleRequest root {} req res w =
        .ok ⟨.ok, res.fill "application/json".toList content, w⟩ := by
      simp only [CrudHandler.handleRequest, hmethod, handleGet, hends, retrieveEntity, hid,
        stoi_toStr, hdir, hexists, Bool.not_true, Bool.false_eq_true, if_false, hread]
    refine ⟨_, hreply, ?_, hres, rfl, h.disk, .refl _ _⟩
    simp [StoreOp.AnsweredBy, hcontent]
  | none =>
    -- an id without a file is refused as well
    have hread : Faults.openRead {} w.fs (root ++ '/' :: d ++ '/' :: toStr id) = .closed :=
      FileSystem.openRead_of_not_pathExists (h.disk.pathExists_eq_false hd hcontent)
    have hreply : ∃ reason, CrudHandler.handleRequest root {} req res w =
        .ok (refuse res reason w) := by
      cases hexists : entityExists w.entityIds d id with
      | true =>
        refine ⟨"Failed to open entity file at: ".toList ++ (root ++ '/' :: d ++ '/' :: toStr id), ?_⟩
        simp only [CrudHandler.handleRequest, hmethod, handleGet, hends, retrieveEntity, hid,
          stoi_toStr, hdir, hexists, Bool.not_true, Bool.false_eq_true, if_false, hread]
      | false =>
        refine ⟨"Entity with id: ".toList ++ toStr id ++ " does not exist in dir ".toList ++ d, ?_⟩
        simp only [CrudHandler.handleRequest, hmethod, handleGet, hends, retrieveEntity, hid,
          stoi_toStr, hdir, hexists, Bool.not_false, if_true]
    obtain ⟨reason, hreply⟩ := hreply
    refine ⟨_, hreply, ?_, rfl, rfl, h.disk, .refl _ _⟩
    simp [StoreOp.AnsweredBy, hcontent, refuse]

lemma handleDeletion_kept (h : Covered R root w) (hd : PlainName d)
    (hmethod : req.method = .delete_)
    (htarget : req.target = pre ++ '/' :: d ++ '/' :: toStr id) :
    ∃ reply, CrudHandler.handleRequest root {} req res w = .ok reply ∧
      CrudKept R root w (.delete d id) reply := by
  cases hcontent : entities R w (d, id) with
  | none =>
    have hmissing : ¬ (w.fs.pathExists (root ++ '/' :: d ++ '/' :: toStr id) &&
        !w.fs.isDirectory (root ++ '/' :: d ++ '/' :: toStr id)) = true := by
      rw [h.disk.pathExists_eq_false hd hcontent]
      exact Bool.false_ne_true
    refine ⟨_, handleDeletion_refused res hd (plainName_toStr id) hmethod htarget hmissing, ?_,
      rfl, rfl, h.disk, .refl _ _⟩
    simp [StoreOp.AnsweredBy, hcontent, refuse]
  | some content =>
    have hnode := FileTree.node_of_content hcontent
    have hname := plainName_toStr id
    have hcut : deletionTarget req.target = some (d, toStr id, d ++ '/' :: toStr id) := by
      rw [htarget, deletionTarget_append pre hd.2.1 hname.2.1 hname.1]
    have hpath : root ++ '/' :: (d ++ '/' :: toStr id) = root ++ '/' :: d ++ '/' :: toStr id := by
      rw [List.append_assoc, List.cons_append]
    have hresolve := h.disk.resolve_entity hd hnode
    have hexists : w.fs.pathExists (root ++ '/' :: d ++ '/' :: toStr id) = true := by
      rw [FileSystem.pathExists_of_resolve hresolve, hnode]
      rfl
    have hnot : ¬ w.fs.tree.IsDir (R ++ [d] ++ [toStr id]) :=
      fun hdir => FileTree.not_isFile_of_isDir hdir ⟨content, hnode⟩
    have hdir : w.fs.isDirectory (root ++ '/' :: d ++ '/' :: toStr id) = false := by
      rw [FileSystem.isDirectory_of_resolve hresolve]
      exact decide_eq_false hnot
    obtain ⟨entityIds, hremove⟩ := removeIdFromEntity_of_mem (h.mem d hd id ⟨content, hnode⟩)
    obtain ⟨fs, hfs⟩ := FileSystem.remove_isSome hexists hdir
    have hfs' : Faults.remove {} w.fs (root ++ '/' :: d ++ '/' :: toStr id) = some fs := hfs
    have hsets := FileSystem.remove_eq_some hfs hresolve
    have hreply : CrudHandler.handleRequest root {} req res w =
        .ok ⟨.ok, prepareDeletedResponse res id, fs, entityIds⟩ := by
      simp only [CrudHandler.handleRequest, hmethod, handleDeletion, hcut, hpath,
        Faults.isFile_empty, ok_bind, hexists, hdir, Bool.not_false, Bool.and_self, if_true,
        stoi_toStr, hremove, hfs']
    refine ⟨_, hreply, ?_, rfl, ?_, ⟨?_, ?_⟩, ?_⟩
    · simp [StoreOp.AnsweredBy, hcontent]
    · funext key
      obtain ⟨d', id'⟩ := key
      simp [entities, hsets.content_none, StoreOp.effect, Function.update_apply]
    · have hchange : Change root w d ⟨fs, entityIds⟩ :=
        .delete (Or.inl rfl) hname.2.1 (stoi_toStr id) (hpath ▸ hexists) (hpath ▸ hdir) hremove
          (hpath ▸ hfs)
      exact h.disk.toEntityDisk.change hd.2.1 hchange
    · exact (h.disk.unobstructed.file (by simp) hsets).not_file
    · rw [List.append_assoc] at hsets hnot
      exact .of_sets hsets fun hp => absurd hp hnot

/-- A new entity is stored below a directory that is made if need be. -/
lemma EntityRoot.storeNew (h : EntityRoot R root w.fs) (hd : PlainName d) {fs : FileSystem}
    (hdir : fs = w.fs ∧ w.fs.tree.IsDir (R ++ [d]) ∨
      w.fs.createDirectory (root ++ '/' :: d) = some fs) (id : CInt) (content : Str)
    (entityIds : EntityIds) :
    ∃ fs', Faults.writeFile {} fs (root ++ '/' :: d ++ '/' :: toStr id) content = some fs' ∧
      entities R ⟨fs', entityIds⟩ = Function.update (entities R w) (d, id) (some content) ∧
      EntityRoot R root fs' ∧ w.fs.GrowsBelow R fs' := by
  obtain ⟨hisdir, hroot, hgrows, hcontent⟩ : fs.tree.IsDir (R ++ [d]) ∧ EntityRoot R root fs ∧
      w.fs.GrowsBelow R fs ∧ ∀ q, fs.tree.content q = w.fs.tree.content q := by
    rcases hdir with ⟨rfl, hdir⟩ | hdir
    · exact ⟨hdir, h, .refl _ _, fun _ => rfl⟩
    · obtain ⟨fs', hcreate, hmade⟩ := h.makeDirectory hd
      rw [hdir] at hcreate
      obtain rfl := Option.some.inj hcreate
      exact hmade
  obtain ⟨fs', hwrite, hroot', hgrows', hsets⟩ := hroot.storeFile hd hisdir id content
  refine ⟨fs', hwrite, ?_, hroot', hgrows.trans hgrows'⟩
  have hsame : entities R ⟨fs, entityIds⟩ = entities R w := funext fun key => hcontent _
  rw [← hsame]
  exact entities_sets_file hsets

lemma handleCreation_kept (h : EntityRoot R root w.fs) (hd : PlainName d) {body : Str}
    (hmethod : req.method = .post) (htarget : req.target = pre ++ '/' :: d)
    (hbody : req.body = body) :
    ∃ reply, CrudHandler.handleRequest root {} req res w = .ok reply ∧
      CrudKept R root w (.post d body) reply := by
  have hsegment : lastSegment req.target = some (pre.length, d) := by
    rw [htarget, lastSegment_append pre hd.2.1 hd.1]
  obtain ⟨fs, hensure, hdir⟩ : ∃ fs, ensureDirectory {} w.fs (root ++ '/' :: d) = .ok (some fs) ∧
      (fs = w.fs ∧ w.fs.tree.IsDir (R ++ [d]) ∨
        w.fs.createDirectory (root ++ '/' :: d) = some fs) := by
    simp only [ensureDirectory, Faults.isNoDirectory_empty, ok_bind]
    split_ifs with hmissing
    · obtain ⟨fs, hcreate, -⟩ := h.makeDirectory hd
      exact ⟨fs, congrArg Except.ok hcreate, Or.inr hcreate⟩
    · refine ⟨w.fs, rfl, Or.inl ⟨rfl, ?_⟩⟩
      simp only [Bool.or_eq_true, Bool.not_eq_true', not_or, Bool.not_eq_false] at hmissing
      rw [FileSystem.isDirectory_of_resolve (h.rootAt.resolve_plain hd)] at hmissing
      exact of_decide_eq_true hmissing.2
  obtain ⟨fs', hwrite, hentities, hroot, hgrows⟩ := h.storeNew hd hdir
    (getAvailableId w.entityIds d) body (addIdToEntity w.entityIds d (getAvailableId w.entityIds d))
  have hreply : CrudHandler.handleRequest root {} req res w =
      .ok ⟨.created, prepareCreatedResponse res (getAvailableId w.entityIds d), fs',
        addIdToEntity w.entityIds d (getAvailableId w.entityIds d)⟩ := by
    simp only [CrudHandler.handleRequest, hmethod, handleCreation, hsegment, hensure, ok_bind, hbody,
      hwrite]
  have hreported := StoreOp.reportedId_entityText (getAvailableId w.entityIds d)
  refine ⟨_, hreply, ⟨rfl, _, hreported⟩, rfl, ?_, hroot, hgrows⟩
  rw [hentities]
  simp only [StoreOp.effect, prepareCreatedResponse, Response.body_fill, if_true, hreported]
  rfl

lemma handleUpdate_kept (h : EntityRoot R root w.fs) (hd : PlainName d) {body : Str}
    (hmethod : req.method = .put) (htarget : req.target = pre ++ '/' :: d ++ '/' :: toStr id)
    (hbody : req.body = body) :
    ∃ reply, CrudHandler.handleRequest root {} req res w = .ok reply ∧
      CrudKept R root w (.put d id body) reply := by
  have hname := plainName_toStr id
  have hsegment : lastSegment req.target = some ((pre ++ '/' :: d).length, toStr id) := by
    rw [htarget, lastSegment_append _ hname.2.1 hname.1]
  have hcut : req.target.take (req.target.length - (toStr id).length - 1) = pre ++ '/' :: d := by
    rw [htarget]
    exact List.take_left' (by simp only [List.length_append, List.length_cons]; omega)
  have hdirectory : lastSegment (pre ++ '/' :: d) = some (pre.length, d) :=
    lastSegment_append pre hd.2.1 hd.1
  cases hcontent : entities R w (d, id) with
  | none =>
    have hexists := h.pathExists_eq_false hd hcontent
    obtain ⟨fs, hcreate, -⟩ := h.makeDirectory hd
    obtain ⟨fs', hwrite, hentities, hroot, hgrows⟩ := h.storeNew hd (Or.inr hcreate) id body
      (addIdToEntity w.entityIds d id)
    have hcreate' : Faults.createDirectory {} w.fs (root ++ '/' :: d) = some fs := hcreate
    have hreply : CrudHandler.handleRequest root {} req res w =
        .ok ⟨.created, prepareCreatedResponse res id, fs', addIdToEntity w.entityIds d id⟩ := by
      simp only [CrudHandler.handleRequest, hmethod, handleUpdate, hsegment, stoi_toStr, hcut,
        hdirectory, Faults.isMissing_empty, ok_bind, hexists, Bool.not_false, Bool.true_or, if_true,
        hcreate', hbody, hwrite]
    refine ⟨_, hreply, ?_, rfl, ?_, hroot, hgrows⟩
    · simp [StoreOp.AnsweredBy, hcontent]
    · rw [hentities]
      simp [StoreOp.effect]
  | some content =>
    have hnode := FileTree.node_of_content hcontent
    have hdir : w.fs.tree.IsDir (R ++ [d]) := FileTree.isDir_of_node hnode
    have hexists : w.fs.pathExists (root ++ '/' :: d ++ '/' :: toStr id) = true := by
      rw [FileSystem.pathExists_of_resolve (h.resolve_entity hd hnode), hnode]
      rfl
    have hdirname := h.rootAt.resolve_plain hd
    have hdirexists : w.fs.pathExists (root ++ '/' :: d) = true := by
      rw [FileSystem.pathExists_of_resolve hdirname, hdir]
      rfl
    have hisdir : w.fs.isDirectory (root ++ '/' :: d) = true := by
      rw [FileSystem.isDirectory_of_resolve hdirname]
      exact decide_eq_true hdir
    obtain ⟨fs', hwrite, hentities, hroot, hgrows⟩ := h.storeNew hd (Or.inl ⟨rfl, hdir⟩) id body
      w.entityIds
    have hreply : CrudHandler.handleRequest root {} req res w =
        .ok ⟨.ok, prepareUpdateResponse res id, fs', w.entityIds⟩ := by
      simp only [CrudHandler.handleRequest, hmethod, handleUpdate, hsegment, stoi_toStr, hcut,
        hdirectory, Faults.isMissing_empty, ok_bind, hexists, hdirexists, hisdir, Bool.not_true,
        Bool.and_false, Bool.or_self, Bool.false_eq_true, if_false, hbody, hwrite]
    refine ⟨_, hreply, ?_, rfl, ?_, hroot, hgrows⟩
    · simp [StoreOp.AnsweredBy, hcontent]
    · rw [hentities]
      simp [StoreOp.effect]

/-- One canonical request to a handler whose ids cover the files. -/
lemma handleRequest_kept (h : Covered R root w) {op : StoreOp} (hop : PlainName op.dir)
    (hreq : op.RequestedBy req) (hres : res.result = .ok) :
    ∃ reply, CrudHandler.handleRequest root {} req res w = .ok reply ∧
      CrudKept R root w op reply := by
  obtain ⟨pre, hreq⟩ := hreq
  cases op with
  | post d body => exact handleCreation_kept h.disk hop hreq.1 hreq.2.1 hreq.2.2
  | put d id body => exact handleUpdate_kept h.disk hop hreq.1 hreq.2.1 hreq.2.2
  | delete d id => exact handleDeletion_kept h hop hreq.1 hreq.2
  | get d id => exact handleGet_kept h hop hres hreq.1 hreq.2

/-- The scan before a request enters the ids of all files. -/
lemma initializeEntityMap_covered {uninit : Str → CInt} (h : EntityRoot R root w.fs) :
    ∃ entityIds, initializeEntityMap uninit {} root w = .ok entityIds ∧
      Covered R root ⟨w.fs, entityIds⟩ := by
  obtain ⟨entityIds, hscan, hscanned⟩ :=
    @initializeEntityMap_scanned R root uninit w h.shape h.rootAt
  refine ⟨entityIds, hscan, h, ?_⟩
  intro d _ id hfile
  apply List.count_pos_iff.mp
  rw [hscanned.count_eq, fileCount_eq_one_iff.mpr hfile]
  exact Nat.succ_pos _

end

end SocialNetworkApp
