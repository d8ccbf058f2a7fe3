import SocialNetworkApp.Crud.Agreement
import SocialNetworkApp.Crud.Factory

/-!
# The scan of the disk

On a disk of the shape `root/<directory>/<id>` the scan adds to each vector the ids of all files of
its directory, whether they are there already or not.
-/

namespace SocialNetworkApp

open SocialNetworkApp.Core

/-- Below `R` stand directories with plain names, and in these files named by ids. -/
structure EntityShape (R : List Str) (fs : FileSystem) : Prop where
  plain : ∀ {d : Str} {x : Node Str}, fs.tree.node (R ++ [d]) = some x → PlainName d
  entity : ∀ {d name : Str} {x : Node Str}, fs.tree.node (R ++ [d] ++ [name]) = some x →
    ∃ content id, x = .file content ∧ name = toStr id

/-- Is there a file for the entity? -/
def fileCount (R : List Str) (fs : FileSystem) (d : Str) (id : CInt) : Nat :=
  if (fs.tree.content (R ++ [d] ++ [toStr id])).isSome then 1 else 0

variable {R : List Str} {fs : FileSystem} {root : Str} {uninit : Str → CInt}
  {entityIds : EntityIds} {d dir : Str} {id : CInt}

lemma fileCount_le_one : fileCount R fs d id ≤ 1 := by
  rw [fileCount]
  split_ifs <;> decide

lemma fileCount_eq_one_iff :
    fileCount R fs d id = 1 ↔ fs.tree.IsFile (R ++ [d] ++ [toStr id]) := by
  rw [fileCount, FileTree.isFile_iff_content, ← Option.isSome_iff_exists]
  split_ifs <;> simp_all

lemma fileCount_eq_zero_iff :
    fileCount R fs d id = 0 ↔ ¬ fs.tree.IsFile (R ++ [d] ++ [toStr id]) := by
  rw [← fileCount_eq_one_iff, fileCount]
  split_ifs <;> simp

/-! ### One id, one directory, all directories -/

lemma idsOf_scanId_ne (h : d ≠ dir) : idsOf (scanId dir entityIds id) d = idsOf entityIds d := by
  unfold scanId
  split <;> exact idsOf_insert_ne _ h

lemma idsOf_scanId_self :
    idsOf (scanId dir entityIds id) dir = (idsOf entityIds dir ++ [id]).insertionSort (· ≤ ·) := by
  unfold scanId
  cases hlookup : entityIds.lookup dir with
  | none => simp [idsOf, hlookup]
  | some ids =>
    have hids : idsOf entityIds dir = ids := by rw [idsOf, hlookup]; rfl
    simp only [idsOf_insert_self, hids]

lemma count_scanId (n : CInt) :
    (idsOf (scanId dir entityIds id) d).count n =
      (idsOf entityIds d).count n + if d = dir ∧ id = n then 1 else 0 := by
  by_cases hd : d = dir
  · subst hd
    rw [idsOf_scanId_self, (List.perm_insertionSort _ _).count_eq, List.count_append,
      List.count_singleton]
    simp
  · rw [idsOf_scanId_ne hd, if_neg (by simp [hd]), Nat.add_zero]

lemma mem_idsOf_scanId {n : CInt} :
    n ∈ idsOf (scanId dir entityIds id) d ↔ n ∈ idsOf entityIds d ∨ d = dir ∧ id = n := by
  rw [← List.count_pos_iff, ← List.count_pos_iff, count_scanId]
  split_ifs with h
  · exact iff_of_true (Nat.succ_pos _) (Or.inr h)
  · simp [h]

lemma pairwise_scanId (h : (idsOf entityIds d).Pairwise (· ≤ ·)) :
    (idsOf (scanId dir entityIds id) d).Pairwise (· ≤ ·) := by
  by_cases hd : d = dir
  · subst hd
    rw [idsOf_scanId_self]
    exact List.pairwise_insertionSort _ _
  · rwa [idsOf_scanId_ne hd]

/-- What a scan adds to the vectors, as numbers of occurrences; it keeps them sorted. -/
structure Scanned (entityIds entityIds' : EntityIds) (added : Str → CInt → Nat) : Prop where
  count_eq : ∀ d id, (idsOf entityIds' d).count id = (idsOf entityIds d).count id + added d id
  sorted : ∀ d, (idsOf entityIds d).Pairwise (· ≤ ·) → (idsOf entityIds' d).Pairwise (· ≤ ·)

lemma Scanned.refl : Scanned entityIds entityIds fun _ _ => 0 := ⟨by simp, fun _ h => h⟩

lemma Scanned.trans {entityIds' entityIds'' : EntityIds} {added added' : Str → CInt → Nat}
    (h : Scanned entityIds entityIds' added) (h' : Scanned entityIds' entityIds'' added') :
    Scanned entityIds entityIds'' fun d id => added d id + added' d id := by
  refine ⟨?_, fun d hd => h'.sorted d (h.sorted d hd)⟩
  intro d id
  rw [h'.count_eq, h.count_eq, Nat.add_assoc]

/-- The loop over the names of the files of a directory. -/
lemma scanned_names {names : List Str} (hnames : ∀ name ∈ names, ∃ id, name = toStr id)
    (hnodup : names.Nodup) :
    ∃ entityIds', names.foldlM (scanFile uninit root dir) entityIds = .ok entityIds' ∧
      Scanned entityIds entityIds' fun d id => if d = dir ∧ toStr id ∈ names then 1 else 0 := by
  induction names generalizing entityIds with
  | nil => exact ⟨entityIds, rfl, by simpa using Scanned.refl⟩
  | cons name names ih =>
    obtain ⟨n, rfl⟩ := hnames name List.mem_cons_self
    obtain ⟨hfirst, hrest⟩ := List.nodup_cons.mp hnodup
    have hstep : scanFile uninit root dir entityIds (toStr n) = .ok (scanId dir entityIds n) := by
      rw [scanFile, scannedId, stoi_toStr]
      rfl
    obtain ⟨entityIds', hfold, hscanned⟩ :=
      @ih (scanId dir entityIds n) (fun name hname => hnames name (List.mem_cons_of_mem _ hname)) hrest
    refine ⟨entityIds', ?_, ?_⟩
    · rw [List.foldlM_cons, hstep]
      exact hfold
    · refine ⟨?_, fun d hd => hscanned.sorted d (pairwise_scanId hd)⟩
      intro d id
      rw [hscanned.count_eq, count_scanId, Nat.add_assoc]
      congr 1
      by_cases hd : d = dir
      · by_cases hid : n = id
        · subst hid
          simp [hd, hfirst]
        · have hne : ¬ toStr id = toStr n := fun h => hid (toStr_injective h).symm
          simp [hd, hid, hne, List.mem_cons]
      · simp [hd]

lemma mem_children_of_file {d name : Str} (h : fs.tree.IsFile (R ++ [d] ++ [name])) :
    d ∈ fs.tree.children R ∧ name ∈ fs.tree.children (R ++ [d]) := by
  obtain ⟨content, hcontent⟩ := h
  have hdir := FileTree.isDir_of_node hcontent
  exact ⟨FileTree.mem_children_iff.mpr (FileTree.mem_nodes_of_node hdir),
    FileTree.mem_children_iff.mpr (FileTree.mem_nodes_of_node hcontent)⟩

lemma toStr_mem_children_iff (h : EntityShape R fs) :
    toStr id ∈ fs.tree.children (R ++ [d]) ↔ fs.tree.IsFile (R ++ [d] ++ [toStr id]) := by
  constructor
  · intro hmem
    obtain ⟨x, hx⟩ := FileTree.exists_node_of_mem_children hmem
    obtain ⟨content, -, rfl, -⟩ := h.entity hx
    exact ⟨content, hx⟩
  · exact fun hfile => (mem_children_of_file hfile).2

/-- The scan of one entry of the root. -/
lemma scanned_directory (h : EntityShape R fs) (hroot : fs.RootAt root R)
    (hdir : dir ∈ fs.tree.children R) :
    ∃ entityIds', scanDirectory uninit {} fs root entityIds dir = .ok entityIds' ∧
      Scanned entityIds entityIds' fun d id => if d = dir then fileCount R fs d id else 0 := by
  obtain ⟨x, hx⟩ := FileTree.exists_node_of_mem_children hdir
  have hplain := h.plain hx
  have hresolve : fs.resolve (root ++ '/' :: dir) = some (R ++ [dir]) := by
    rw [hroot.resolve_dir hplain.2.1, stepName_of_plain R hplain]
  simp only [scanDirectory_empty, FileSystem.isDirectory_of_resolve hresolve, FileSystem.entries, hresolve,
    decide_eq_true_eq]
  split_ifs with hisdir
  · have hnames : ∀ name ∈ fs.tree.children (R ++ [dir]), ∃ id, name = toStr id := by
      intro name hname
      obtain ⟨y, hy⟩ := FileTree.exists_node_of_mem_children hname
      obtain ⟨-, id, -, hid⟩ := h.entity hy
      exact ⟨id, hid⟩
    obtain ⟨entityIds', hfold, hscanned⟩ :=
      scanned_names hnames (FileTree.nodup_children fs.tree (R ++ [dir]))
    refine ⟨entityIds', hfold, ?_⟩
    convert hscanned using 3 with d id
    by_cases hd : d = dir
    · subst hd
      have hiff : (fs.tree.content (R ++ [d] ++ [toStr id])).isSome = true ↔
          d = d ∧ toStr id ∈ fs.tree.children (R ++ [d]) := by
        rw [toStr_mem_children_iff h, FileTree.isFile_iff_content, Option.isSome_iff_exists]
        simp
      rw [if_pos rfl, fileCount]
      exact if_congr hiff rfl rfl
    · simp [hd]
  · refine ⟨entityIds, rfl, ?_⟩
    convert Scanned.refl using 3 with d id
    split_ifs with hd
    · subst hd
      refine fileCount_eq_zero_iff.mpr ?_
      rintro ⟨content, hcontent⟩
      exact hisdir (FileTree.isDir_of_node hcontent)
    · rfl

/-- The loop over the entries of the root. -/
lemma scanned_directories (h : EntityShape R fs) (hroot : fs.RootAt root R) {dirs : List Str}
    (hdirs : ∀ dir ∈ dirs, dir ∈ fs.tree.children R) (hnodup : dirs.Nodup) :
    ∃ entityIds', dirs.foldlM (scanDirectory uninit {} fs root) entityIds = .ok entityIds' ∧
      Scanned entityIds entityIds' fun d id => if d ∈ dirs then fileCount R fs d id else 0 := by
  induction dirs generalizing entityIds with
  | nil => exact ⟨entityIds, rfl, by simpa using Scanned.refl⟩
  | cons dir dirs ih =>
    obtain ⟨hfirst, hrest⟩ := List.nodup_cons.mp hnodup
    obtain ⟨entityIds', hdir, hscanned⟩ :=
      scanned_directory h hroot (hdirs dir List.mem_cons_self)
    obtain ⟨entityIds'', hfold, hscanned'⟩ :=
      ih (fun d hd => hdirs d (List.mem_cons_of_mem _ hd)) hrest
    refine ⟨entityIds'', ?_, ?_⟩
    · rw [List.foldlM_cons, hdir]
      exact hfold
    · convert hscanned.trans hscanned' using 3 with d id
      by_cases hd : d = dir
      · subst hd
        simp [hfirst]
      · simp [hd]

/-- The scan enters every file once more. -/
theorem initializeEntityMap_scanned {w : CrudState} (h : EntityShape R w.fs)
    (hroot : w.fs.RootAt root R) :
    ∃ entityIds', initializeEntityMap uninit {} root w = .ok entityIds' ∧
      Scanned w.entityIds entityIds' (fileCount R w.fs) := by
  have hexists : w.fs.pathExists root = true := by
    rw [FileSystem.pathExists_of_resolve hroot.resolve_eq, hroot.isDir]
    rfl
  have hdir : w.fs.isDirectory root = true := by
    rw [FileSystem.isDirectory_of_resolve hroot.resolve_eq]
    exact decide_eq_true hroot.isDir
  obtain ⟨entityIds', hfold, hscanned⟩ := scanned_directories h hroot
    (fun dir hdir => hdir) (FileTree.nodup_children w.fs.tree R)
  refine ⟨entityIds', ?_, ?_⟩
  · simp only [initializeEntityMap_empty, hexists, hdir, Bool.not_true, Bool.or_self, Bool.false_eq_true,
      if_false, FileSystem.entries, hroot.resolve_eq]
    exact hfold
  · convert hscanned using 3 with d id
    split_ifs with hd
    · rfl
    · refine fileCount_eq_zero_iff.mpr ?_
      exact fun hfile => hd (mem_children_of_file hfile).1

end SocialNetworkApp
