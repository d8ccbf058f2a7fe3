import SocialNetworkApp.Core.Returns
import SocialNetworkApp.Crud.Rescan

/-!
# Exceptions of CRUD requests

A request is answered unless a query of the file system on its way throws, a number is too large for
an `int`, or an entity that is in the map is a directory on the disk. Only `std::invalid_argument` is
caught, and the failure of a call that creates or removes.
-/

namespace SocialNetworkApp

open SocialNetworkApp.Core

variable {uninit : Str → CInt} {faults : Faults} {fs : FileSystem} {root : Str}
  {entityIds : EntityIds} {d dir : Str} {id : CInt}

/-! ### The scan -/

/-- The scan of an entry of the root is told what it asks for, and comes upon no name that is a
number too large for an `int`. -/
def DirectoryFits (faults : Faults) (fs : FileSystem) (root dir : Str) : Prop :=
  faults.query (.isDirectory (root ++ '/' :: dir)) = false ∧
    (fs.isDirectory (root ++ '/' :: dir) = true →
      faults.query (.entries (root ++ '/' :: dir)) = false ∧
        ∀ name ∈ fs.entries (root ++ '/' :: dir), stoi name ≠ .error .outOfRange)

/-- The same of the scan of the root. -/
structure ScanFits (faults : Faults) (fs : FileSystem) (root : Str) : Prop where
  tells : faults.Tells fs root
  iterates : fs.isDirectory root = true → faults.query (.entries root) = false
  directories : ∀ dir ∈ fs.entries root, DirectoryFits faults fs root dir

lemma Core.FileSystem.isDirectory_of_mem_entries {name n : Str} (h : n ∈ fs.entries name) :
    ∃ p, fs.resolve name = some p ∧ fs.tree.IsDir p ∧ n ∈ fs.tree.children p := by
  unfold entries at h
  cases hname : fs.resolve name with
  | none => simp [hname] at h
  | some p =>
    simp only [hname] at h
    exact ⟨p, rfl, fs.tree.parent_dir (FileTree.mem_children_iff.mp h), h⟩

lemma succeeds_scannedId_iff {path name : Str} :
    Succeeds (scannedId uninit path name) ↔ stoi name ≠ .error .outOfRange := by
  unfold scannedId
  cases stoi name with
  | ok id => simp
  | error e => cases e <;> simp

lemma succeeds_scanDirectory_iff :
    Succeeds (scanDirectory uninit faults fs root entityIds dir) ↔
      DirectoryFits faults fs root dir := by
  refine (succeeds_bind_iff_of_eq_ok_iff Faults.ask_eq_ok_iff).trans (and_congr_right fun _ => ?_)
  split_ifs with hdir
  · rw [forall_prop_of_true hdir]
    refine (succeeds_bind_iff_of_eq_ok_iff Faults.ask_eq_ok_iff).trans (and_congr_right fun _ => ?_)
    refine succeeds_foldlM_iff ?_ _ _
    intro entityIds name
    exact succeeds_map_iff.trans succeeds_scannedId_iff
  · exact iff_of_true (succeeds_ok entityIds) fun h => absurd h hdir

lemma returns_scanDirectory :
    Returns (scanDirectory uninit {} fs root entityIds dir) fun entityIds' =>
      id ∈ idsOf entityIds' d ↔ id ∈ idsOf entityIds d ∨
        fs.isDirectory (root ++ '/' :: dir) = true ∧ ∃ name ∈ fs.entries (root ++ '/' :: dir),
          d = dir ∧ scannedId uninit (root ++ '/' :: dir ++ '/' :: name) name = .ok id := by
  rw [scanDirectory_empty]
  split_ifs with hdir
  · simp only [hdir, true_and]
    refine Returns.foldlM_iff (M := fun entityIds => id ∈ idsOf entityIds d) ?_ _ _
    intro entityIds name
    rw [scanFile]
    cases hscan : scannedId uninit (root ++ '/' :: dir ++ '/' :: name) name with
    | error e => exact .error
    | ok n => exact .ok (by rw [mem_idsOf_scanId, Except.ok.injEq])
  · exact .ok (by simp [hdir])

/-- What is not there, or is no directory, has no entries. -/
lemma not_isDirectory_of_missing (h : (!fs.pathExists root || !fs.isDirectory root) = true) :
    fs.isDirectory root ≠ true ∧ ∀ dir, dir ∉ fs.entries root := by
  have hnot : fs.isDirectory root ≠ true := by
    intro hdir
    simp [hdir, FileSystem.pathExists_of_isDirectory hdir] at h
  refine ⟨hnot, ?_⟩
  intro dir hdir
  obtain ⟨p, hp, hisdir, -⟩ := FileSystem.isDirectory_of_mem_entries hdir
  rw [FileSystem.isDirectory_of_resolve hp] at hnot
  exact hnot (decide_eq_true hisdir)

/-- The scan returns, unless a query throws or it comes upon a number that is too large. -/
lemma succeeds_initializeEntityMap_iff {w : CrudState} :
    Succeeds (initializeEntityMap uninit faults root w) ↔ ScanFits faults w.fs root := by
  refine (succeeds_bind_iff_of_eq_ok_iff Faults.isNoDirectory_eq_ok_iff).trans ?_
  have hfits : ScanFits faults w.fs root ↔ faults.Tells w.fs root ∧
      (w.fs.isDirectory root = true → faults.query (.entries root) = false) ∧
      ∀ dir ∈ w.fs.entries root, DirectoryFits faults w.fs root dir :=
    ⟨fun h => ⟨h.1, h.2, h.3⟩, fun h => ⟨h.1, h.2.1, h.2.2⟩⟩
  rw [hfits]
  refine and_congr_right fun _ => ?_
  split_ifs with hmissing
  · obtain ⟨hnot, hempty⟩ := not_isDirectory_of_missing hmissing
    refine iff_of_true (succeeds_ok w.entityIds) ⟨fun hdir => absurd hdir hnot, ?_⟩
    exact fun dir hdir => absurd hdir (hempty dir)
  · simp only [Bool.or_eq_true, Bool.not_eq_true', not_or, Bool.not_eq_false] at hmissing
    rw [forall_prop_of_true hmissing.2]
    refine (succeeds_bind_iff_of_eq_ok_iff Faults.ask_eq_ok_iff).trans (and_congr_right fun _ => ?_)
    exact succeeds_foldlM_iff (f := scanDirectory uninit faults w.fs root)
      (fun _ _ => succeeds_scanDirectory_iff) _ _

/-- Behind the scan the map holds what it held and what was found. -/
lemma returns_initializeEntityMap {w : CrudState} :
    Returns (initializeEntityMap uninit {} root w) fun entityIds' =>
      id ∈ idsOf entityIds' d ↔ id ∈ idsOf w.entityIds d ∨ d ∈ w.fs.entries root ∧
        ∃ name ∈ w.fs.entries (root ++ '/' :: d),
          scannedId uninit (root ++ '/' :: d ++ '/' :: name) name = .ok id := by
  rw [initializeEntityMap_empty]
  split_ifs with hmissing
  · refine .ok (iff_self_or.mpr ?_)
    rintro ⟨hd, -⟩
    exact absurd hd ((not_isDirectory_of_missing hmissing).2 d)
  · refine (Returns.foldlM_iff (f := scanDirectory uninit {} w.fs root)
      (M := fun entityIds => id ∈ idsOf entityIds d)
      (fun _ _ => returns_scanDirectory) _ _).imp ?_
    intro entityIds' h
    rw [h]
    refine or_congr_right ⟨?_, ?_⟩
    · rintro ⟨dir, hdir, -, name, hname, rfl, hid⟩
      exact ⟨hdir, name, hname, hid⟩
    · rintro ⟨hd, name, hname, hid⟩
      obtain ⟨p, hp, hisdir, -⟩ := FileSystem.isDirectory_of_mem_entries hname
      refine ⟨d, hd, ?_, name, hname, rfl, hid⟩
      rw [FileSystem.isDirectory_of_resolve hp]
      exact decide_eq_true hisdir

/-! ### The handlers -/

section

variable {req : Request} {res : Response} {w : CrudState}

lemma succeeds_handleCreation_iff :
    Succeeds (handleCreation root faults req res w) ↔
      ∀ segment ∈ lastSegment req.target, faults.Tells w.fs (root ++ '/' :: segment.2) := by
  simp only [handleCreation]
  cases lastSegment req.target with
  | none => simp
  | some segment =>
    simp only [Option.mem_def, Option.some.injEq, forall_eq']
    rw [succeeds_bind_of_forall ?_]
    · refine (succeeds_bind_iff_of_eq_ok_iff Faults.isNoDirectory_eq_ok_iff).trans
        (and_iff_left ?_)
      split_ifs <;> exact succeeds_ok _
    · intro made
      (repeat' split) <;> exact succeeds_ok _

lemma succeeds_handleGet_iff :
    Succeeds (handleGet root faults req res w) ↔
      stoi (possibleId req.target) ≠ .error .outOfRange ∧
        ∀ id, stoi (possibleId req.target) = .ok id →
          id ∈ idsOf w.entityIds (retrievalDir req.target (findLastOf '/' req.target)) →
          faults.openRead w.fs (root ++ '/' :: retrievalDir req.target (findLastOf '/' req.target) ++
            '/' :: possibleId req.target) ≠ .directory := by
  simp only [handleGet, endsWithId, retrieveEntity]
  cases hid : stoi (possibleId req.target) with
  | error e => cases e <;> simp
  | ok id =>
    simp only [ne_eq, reduceCtorEq, not_false_eq_true, true_and, Except.ok.injEq, forall_eq',
      ← entityExists_iff]
    cases entityExists w.entityIds (retrievalDir req.target (findLastOf '/' req.target)) id with
    | false => simp
    | true =>
      simp only [Bool.not_true, Bool.false_eq_true, if_false, forall_const]
      cases faults.openRead w.fs (root ++ '/' :: retrievalDir req.target
        (findLastOf '/' req.target) ++ '/' :: possibleId req.target) <;> simp

lemma succeeds_handleUpdate_iff :
    Succeeds (handleUpdate root faults req res w) ↔
      (∀ segment ∈ lastSegment req.target, stoi segment.2 ≠ .error .outOfRange) ∧
        ∀ target ∈ updateTarget req.target, faults.TellsBoth w.fs
          (root ++ '/' :: target.1 ++ '/' :: toStr target.2) (root ++ '/' :: target.1) := by
  simp only [handleUpdate, updateTarget]
  cases lastSegment req.target with
  | none => simp
  | some segment =>
    simp only [Option.mem_def, Option.some.injEq, forall_eq']
    cases stoi segment.2 with
    | error e => cases e <;> simp
    | ok id =>
      simp only [ne_eq, reduceCtorEq, not_false_eq_true, true_and]
      cases lastSegment (req.target.take (req.target.length - (toStr id).length - 1)) with
      | none => simp
      | some segment =>
        simp only [Option.map_some, Option.some.injEq, forall_eq']
        refine (succeeds_bind_iff_of_eq_ok_iff Faults.isMissing_eq_ok_iff).trans (and_iff_left ?_)
        split_ifs <;> (repeat' split) <;> exact succeeds_ok _

lemma succeeds_handleDeletion_iff :
    Succeeds (handleDeletion root faults req res w) ↔
      ∀ cut ∈ deletionTarget req.target, faults.Tells w.fs (root ++ '/' :: cut.2.2) ∧
        ((w.fs.pathExists (root ++ '/' :: cut.2.2) && !w.fs.isDirectory (root ++ '/' :: cut.2.2)) →
          stoi cut.2.1 ≠ .error .outOfRange) := by
  simp only [handleDeletion]
  cases deletionTarget req.target with
  | none => simp
  | some cut =>
    obtain ⟨d, name, both⟩ := cut
    simp only [Option.mem_def, Option.some.injEq, forall_eq']
    refine (succeeds_bind_iff_of_eq_ok_iff Faults.isFile_eq_ok_iff).trans
      (and_congr_right fun _ => ?_)
    split_ifs with hfile
    · rw [forall_prop_of_true hfile]
      cases stoi name with
      | error e => cases e <;> simp
      | ok id =>
        simp only [ne_eq, reduceCtorEq, not_false_eq_true, iff_true]
        (repeat' split) <;> exact succeeds_ok _
    · exact iff_of_true (succeeds_ok _) fun h => absurd h hfile

end

/-! ### Requests -/

/-- No query on the way of a request throws, no number is too large for an `int`, and an entity that
the map holds, or the scan enters, is not a directory. -/
def CrudCall.Harmless (root : Str) (c : CrudCall) (w : CrudState) : Prop :=
  let target := c.request.target
  match c.request.method with
  | .get =>
    let dir := retrievalDir target (findLastOf '/' target)
    stoi (possibleId target) ≠ .error .outOfRange ∧
      ∀ id, stoi (possibleId target) = .ok id → id ∈ idsOf w.entityIds dir ∨ dir ∈ w.fs.entries root →
        c.faults.openRead w.fs (root ++ '/' :: dir ++ '/' :: possibleId target) ≠ .directory
  | .post => ∀ segment ∈ lastSegment target, c.faults.Tells w.fs (root ++ '/' :: segment.2)
  | .put =>
    (∀ segment ∈ lastSegment target, stoi segment.2 ≠ .error .outOfRange) ∧
      ∀ entity ∈ updateTarget target, c.faults.TellsBoth w.fs
        (root ++ '/' :: entity.1 ++ '/' :: toStr entity.2) (root ++ '/' :: entity.1)
  | .delete_ => ∀ cut ∈ deletionTarget target, c.faults.Tells w.fs (root ++ '/' :: cut.2.2) ∧
      ((w.fs.pathExists (root ++ '/' :: cut.2.2) && !w.fs.isDirectory (root ++ '/' :: cut.2.2)) →
        stoi cut.2.1 ≠ .error .outOfRange)
  | .other _ => True

section

variable {config : NginxConfig} {c : CrudCall} {w w₁ : CrudState}

lemma CrudHandlerFactory.create_eq_ok_iff (hconfig : config.rootArgument = some root) :
    create uninit faults config w = .ok (some root, w₁) ↔
      ∃ entityIds, initializeEntityMap uninit faults root w = .ok entityIds ∧
        w₁ = ⟨w.fs, entityIds⟩ := by
  simp only [create, hconfig]
  cases initializeEntityMap uninit faults root w with
  | error e => simp [Except.map]
  | ok entityIds => simp [Except.map, eq_comm]

lemma Faults.openRead_eq_directory {path : Str}
    (h : faults.openRead fs path = .directory) :
    ∃ p, fs.resolve path = some p ∧ fs.tree.IsDir p := by
  simp only [Faults.openRead, FileSystem.openRead] at h
  split_ifs at h
  cases hpath : fs.resolve path with
  | none => simp [hpath] at h
  | some p =>
    simp only [hpath] at h
    split at h
    · cases h
    · exact ⟨p, rfl, ‹_›⟩
    · cases h

/-- The scan enters what is there: a directory in the place of an entity is one of the entries it
goes through. -/
lemma mem_idsOf_of_scan {faults' : Faults} {name : Str} (hslash : '/' ∉ name)
    (hid : stoi name = .ok id)
    (hopen : faults.openRead w.fs (root ++ '/' :: d ++ '/' :: name) = .directory)
    (hscan : initializeEntityMap uninit faults' root w = .ok entityIds) :
    id ∈ idsOf entityIds d ↔ id ∈ idsOf w.entityIds d ∨ d ∈ w.fs.entries root := by
  have hscanned : id ∈ idsOf entityIds d ↔ _ :=
    returns_initializeEntityMap entityIds (initializeEntityMap_eq_ok hscan)
  rw [hscanned]
  refine or_congr_right ⟨fun h => h.1, fun h => ⟨h, name, ?_, ?_⟩⟩
  · obtain ⟨p, hp, hdir⟩ := Faults.openRead_eq_directory hopen
    obtain ⟨q, hq, -, rfl⟩ := FileSystem.isDir_of_resolve_append (by simp) hslash hp
    rw [stepName_of_plain q (plainName_of_stoi hslash hid)] at hdir
    simp only [FileSystem.entries, hq]
    exact FileTree.mem_children_iff.mpr (FileTree.mem_nodes_of_node hdir)
  · rw [scannedId, hid]

/-- What the handler meets behind the scan, in terms of what was there before it. -/
lemma succeeds_handleRequest_iff (hscan : initializeEntityMap uninit faults root w = .ok entityIds) :
    Succeeds (CrudHandler.handleRequest root c.faults c.request c.response ⟨w.fs, entityIds⟩) ↔
      c.Harmless root w := by
  simp only [CrudHandler.handleRequest, CrudCall.Harmless]
  cases c.request.method with
  | post => exact succeeds_handleCreation_iff
  | other name => exact iff_of_true (succeeds_ok _) trivial
  | put => exact succeeds_handleUpdate_iff
  | delete_ => exact succeeds_handleDeletion_iff
  | get =>
    rw [succeeds_handleGet_iff]
    refine and_congr_right fun _ => forall_congr' fun id => imp_congr_right fun hid => ?_
    by_cases hopen : c.faults.openRead w.fs (root ++ '/' :: retrievalDir c.request.target
        (findLastOf '/' c.request.target) ++ '/' :: possibleId c.request.target) = .directory
    · rw [mem_idsOf_of_scan (slash_not_mem_possibleId _) hid hopen hscan]
    · exact iff_of_true (fun _ => hopen) fun _ => hopen

/-- A request that finds a handler is answered exactly when the scan is told all it asks for and meets
no number that is too large, and the request is harmless. -/
theorem crudHandler_returns_iff (hconfig : config.rootArgument = some root) :
    (∃ w₁ reply, CrudHandlerFactory.create uninit c.faults config w = .ok (some root, w₁) ∧
      CrudHandler.Answers root w₁ c reply) ↔
      ScanFits c.faults w.fs root ∧ c.Harmless root w := by
  constructor
  · rintro ⟨w₁, reply, hcreate, hreply⟩
    obtain ⟨entityIds, hscan, rfl⟩ := (CrudHandlerFactory.create_eq_ok_iff hconfig).mp hcreate
    refine ⟨succeeds_initializeEntityMap_iff.mp ⟨entityIds, hscan⟩, ?_⟩
    exact (succeeds_handleRequest_iff hscan).mp ⟨reply, hreply⟩
  · rintro ⟨hfits, hharmless⟩
    obtain ⟨entityIds, hscan⟩ : Succeeds (initializeEntityMap uninit c.faults root w) :=
      succeeds_initializeEntityMap_iff.mpr hfits
    obtain ⟨reply, hreply⟩ := (succeeds_handleRequest_iff hscan).mpr hharmless
    exact ⟨_, reply, (CrudHandlerFactory.create_eq_ok_iff hconfig).mpr ⟨entityIds, hscan, rfl⟩, hreply⟩

/-- A system that refuses names of more than 255 bytes. -/
def nameLimit : Faults where
  query
    | .pathExists path | .isDirectory path | .entries path =>
      (path.splitOn '/').any fun component => 255 < component.length

/-- A `PUT` below a root that is scanned, on a system with a limit for names. -/
theorem crudHandler_returns_iff_put :
    emptyDiskConfig.rootArgument = some ['r'] ∧
      ((∃ w₁ reply,
          CrudHandlerFactory.create (fun _ => 0) nameLimit emptyDiskConfig emptyDisk =
            .ok (some ['r'], w₁) ∧
          CrudHandler.Answers ['r'] w₁ ⟨⟨.put, "/d/1".toList, ['x'], []⟩, {}, nameLimit⟩ reply) ↔
        ScanFits nameLimit emptyDisk.fs ['r'] ∧
          CrudCall.Harmless ['r'] ⟨⟨.put, "/d/1".toList, ['x'], []⟩, {}, nameLimit⟩ emptyDisk) :=
  ⟨rfl, crudHandler_returns_iff (c := ⟨⟨.put, "/d/1".toList, ['x'], []⟩, {}, nameLimit⟩) rfl⟩

/-- A `GET` of an id that does not fit an `int` throws, and so does a `POST` to a directory whose
name is too long. -/
theorem crudHandler_throws :
    CrudHandlerFactory.create (fun _ => 0) nameLimit emptyDiskConfig emptyDisk =
        .ok (some ['r'], emptyDisk) ∧
      CrudHandler.handleRequest ['r'] nameLimit ⟨.get, "/d/99999999999".toList, [], []⟩ {}
        emptyDisk = .error (.number .outOfRange) ∧
      CrudHandler.handleRequest ['r'] nameLimit ⟨.post, '/' :: List.replicate 256 'd', [], []⟩ {}
        emptyDisk = .error .filesystemError := by
  refine ⟨rfl, rfl, ?_⟩
  have hsegment : lastSegment ('/' :: List.replicate 256 'd') = some (0, List.replicate 256 'd') :=
    lastSegment_append [] (fun hslash => absurd (List.eq_of_mem_replicate hslash) (by decide))
      (List.cons_ne_nil _ _)
  have hquery : nameLimit.query (.pathExists ('r' :: '/' :: List.replicate 256 'd')) = true := by
    decide +kernel
  simp only [CrudHandler.handleRequest, handleCreation, hsegment, ensureDirectory,
    Faults.isNoDirectory, Faults.pathExists, Faults.ask, List.singleton_append, hquery, if_true,
    error_bind]

end

end SocialNetworkApp
