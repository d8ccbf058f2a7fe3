import SocialNetworkApp.Crud.Change
import SocialNetworkApp.Crud.Ids

/-!
# Ids and files

The ids agree with the disk when each vector is strictly increasing and holds exactly the ids of
the files in its directory. A change to one directory preserves this, in all directories.
-/

namespace SocialNetworkApp

open SocialNetworkApp.Core

lemma plainName_toStr (n : CInt) : PlainName (toStr n) := by
  refine ⟨toStr_ne_nil n, not_mem_toStr (by decide) (by decide), ?_, ?_⟩
  · intro h
    exact not_mem_toStr (n := n) (c := '.') (by decide) (by decide) (by simp [h])
  · intro h
    exact not_mem_toStr (n := n) (c := '.') (by decide) (by decide) (by simp [h])

lemma plainName_of_stoi {name : Str} {id : CInt} (hslash : '/' ∉ name) (h : stoi name = .ok id) :
    PlainName name := by
  refine ⟨?_, hslash, ?_, ?_⟩
  · rintro rfl
    cases h
  · rintro rfl
    cases h
  · rintro rfl
    cases h

/-! ### The directories below the root -/

/-- The name `root` denotes the directory `R`. -/
structure Core.FileSystem.RootAt (fs : FileSystem) (root : Str) (R : List Str) : Prop where
  resolve_eq : fs.resolve root = some R
  isDir : fs.tree.IsDir R

namespace Core.FileSystem.RootAt

variable {fs fs' : FileSystem} {root : Str} {R : List Str} {d name : Str}

lemma sets (h : fs.RootAt root R) {p : List Str} {x : Option (Node Str)} (hsets : fs.Sets p x fs')
    (hp : fs.tree.IsDir p → x = some .dir) : fs'.RootAt root R :=
  ⟨hsets.resolve_mono hp h.resolve_eq, hsets.isDir_mono hp h.isDir⟩

lemma resolve_dir (h : fs.RootAt root R) (hd : '/' ∉ d) :
    fs.resolve (root ++ '/' :: d) = some (stepName R d) :=
  resolve_below h.resolve_eq h.isDir hd

lemma resolve_file (h : fs.RootAt root R) (hd : '/' ∉ d) (hname : PlainName name) {p : List Str}
    (hp : fs.resolve (root ++ '/' :: d ++ '/' :: name) = some p) :
    fs.tree.IsDir (stepName R d) ∧ p = stepName R d ++ [name] := by
  obtain ⟨q, hq, hdir, rfl⟩ := isDir_of_resolve_append (by simp) hname.2.1 hp
  rw [h.resolve_dir hd, Option.some.injEq] at hq
  subst hq
  exact ⟨hdir, stepName_of_plain _ hname⟩

lemma resolve_file_of_isDir (h : fs.RootAt root R) (hd : '/' ∉ d) (hname : PlainName name)
    (hdir : fs.tree.IsDir (stepName R d)) :
    fs.resolve (root ++ '/' :: d ++ '/' :: name) = some (stepName R d ++ [name]) := by
  rw [resolve_below (h.resolve_dir hd) hdir hname.2.1, stepName_of_plain _ hname]

lemma createDirectory (h : fs.RootAt root R) (hd : '/' ∉ d)
    (hcreate : fs.createDirectory (root ++ '/' :: d) = some fs') :
    ¬ fs.tree.IsFile (stepName R d) ∧ fs.Sets (stepName R d) (some .dir) fs' := by
  obtain ⟨p, hp, hfile, hsets⟩ := createDirectory_eq_some hcreate
  rw [h.resolve_dir hd, Option.some.injEq] at hp
  subst hp
  exact ⟨hfile, hsets⟩

lemma writeFile (h : fs.RootAt root R) (hd : '/' ∉ d) {id : CInt} {content : Str}
    (hwrite : fs.writeFile (root ++ '/' :: d ++ '/' :: toStr id) content = some fs') :
    ¬ fs.tree.IsDir (stepName R d ++ [toStr id]) ∧
      fs.Sets (stepName R d ++ [toStr id]) (some (.file content)) fs' := by
  obtain ⟨p, hp, hdir, hsets⟩ := writeFile_eq_some hwrite
  obtain ⟨-, rfl⟩ := h.resolve_file hd (plainName_toStr id) hp
  exact ⟨hdir, hsets⟩

end Core.FileSystem.RootAt

/-- Names of directories below `R`, no two of which name the same one. -/
structure Directories (R : List Str) where
  names : Set Str
  slash_free : ∀ d ∈ names, '/' ∉ d
  injOn : Set.InjOn (stepName R) names

/-- The entries of `R` that may be directories. -/
def Directories.plain (R : List Str) : Directories R where
  names := {d | PlainName d}
  slash_free := fun _ hd => hd.2.1
  injOn := by
    intro d hd d' hd' h
    simpa [stepName_of_plain R hd, stepName_of_plain R hd'] using h

@[simp] lemma Directories.mem_plain {R : List Str} {d : Str} :
    d ∈ (Directories.plain R).names ↔ PlainName d := Iff.rfl

lemma Directories.path_inj {R : List Str} (D : Directories R) {d d' name name' : Str}
    (hd : d ∈ D.names) (hd' : d' ∈ D.names)
    (h : stepName R d ++ [name] = stepName R d' ++ [name']) : d = d' ∧ name = name' := by
  obtain ⟨hdir, hname⟩ := List.append_inj' h rfl
  exact ⟨D.injOn hd hd' hdir, by simpa using hname⟩

/-- The name `d` leads to none of the directories and to nothing in them. -/
structure Directories.Apart {R : List Str} (D : Directories R) (d : Str) : Prop where
  ne : ∀ d' ∈ D.names, d' ≠ d
  dir_ne : ∀ d' ∈ D.names, stepName R d' ≠ stepName R d
  path_ne : ∀ d' ∈ D.names, ∀ name, stepName R d' ++ [name] ≠ stepName R d

/-- A name that is not plain leads to `R` or above. -/
lemma length_stepName_le (R : List Str) {d : Str} (hslash : '/' ∉ d) (hd : ¬ PlainName d) :
    (stepName R d).length ≤ R.length := by
  by_contra h
  refine hd ⟨?_, hslash, ?_, ?_⟩
  · rintro rfl
    simp [stepName] at h
  · rintro rfl
    simp [stepName] at h
  · rintro rfl
    simp [stepName] at h

lemma Directories.apart_plain {R : List Str} {d : Str} (hslash : '/' ∉ d) (hd : ¬ PlainName d) :
    (Directories.plain R).Apart d := by
  have hlength := length_stepName_le R hslash hd
  have hlength' : ∀ d', PlainName d' → (stepName R d').length = R.length + 1 := by
    intro d' hd'
    simp [stepName_of_plain R hd']
  refine ⟨?_, ?_, ?_⟩
  · rintro d' hd' rfl
    exact hd hd'
  · intro d' hd' h
    have := hlength' d' hd'
    rw [h] at this
    omega
  · intro d' hd' name h
    have := hlength' d' hd'
    have := congrArg List.length h
    simp only [List.length_append, List.length_singleton] at this
    omega

/-! ### Agreement -/

/-- The vectors hold the ids of the files in their directories. -/
structure Matches {R : List Str} (D : Directories R) (root : Str) (w : CrudState) : Prop where
  rootAt : w.fs.RootAt root R
  file_iff : ∀ d ∈ D.names, ∀ name, w.fs.tree.IsFile (stepName R d ++ [name]) ↔
    ∃ id ∈ idsOf w.entityIds d, toStr id = name

/-- Moreover, each vector is strictly increasing. -/
structure Agree {R : List Str} (D : Directories R) (root : Str) (w : CrudState) : Prop
    extends Matches D root w where
  sorted : ∀ d ∈ D.names, (idsOf w.entityIds d).Pairwise (· < ·)

variable {R : List Str} {D : Directories R} {root : Str} {w w' : CrudState} {d : Str}
  {fs fs' : FileSystem} {entityIds entityIds' : EntityIds} {id : CInt}

namespace Matches

lemma isFile_iff (h : Matches D root w) (hd : d ∈ D.names) :
    w.fs.tree.IsFile (stepName R d ++ [toStr id]) ↔ id ∈ idsOf w.entityIds d := by
  rw [h.file_iff d hd]
  constructor
  · rintro ⟨n, hn, heq⟩
    rwa [← toStr_injective heq]
  · intro hid
    exact ⟨id, hid, rfl⟩

/-- A deletion that went through removed the file of the id. -/
lemma delete_path (h : Matches D root w) (hd : d ∈ D.names) {name both : Str}
    (hboth : both = d ++ '/' :: name ∨ both = name ∧ d = name) (hname : '/' ∉ name)
    (hid : stoi name = .ok id) (hexists : w.fs.pathExists (root ++ '/' :: both) = true)
    (hdir : w.fs.isDirectory (root ++ '/' :: both) = false)
    (hremove : removeIdFromEntity w.entityIds d id = some entityIds') :
    w.fs.resolve (root ++ '/' :: both) = some (stepName R d ++ [toStr id]) := by
  obtain ⟨p, hp, hfile⟩ := FileSystem.isFile_of_exists hexists hdir
  have hslash := D.slash_free d hd
  rcases hboth with rfl | ⟨rfl, rfl⟩
  · rw [← List.cons_append, ← List.append_assoc] at hp ⊢
    obtain ⟨-, rfl⟩ := h.rootAt.resolve_file hslash (plainName_of_stoi hname hid) hp
    obtain ⟨n, hn, rfl⟩ := (h.file_iff d hd name).mp hfile
    rw [stoi_toStr, Except.ok.injEq] at hid
    rw [hp, hid]
  · -- the segment would have to be a file and a directory at once
    rw [h.rootAt.resolve_dir hslash, Option.some.injEq] at hp
    subst hp
    have hentity : w.fs.tree.IsFile (stepName R d ++ [toStr id]) :=
      (h.isFile_iff hd).mpr (removeIdFromEntity_eq_some hremove).1
    obtain ⟨content, hcontent⟩ := hentity
    exact absurd hfile (FileTree.not_isFile_of_isDir (FileTree.isDir_of_node hcontent))

end Matches

namespace Agree

lemma nodup (h : Agree D root w) (hd : d ∈ D.names) : (idsOf w.entityIds d).Nodup :=
  (h.sorted d hd).imp ne_of_lt

lemma directory (h : Agree D root ⟨fs, entityIds⟩) {p : List Str} (hfile : ¬ fs.tree.IsFile p)
    (hsets : fs.Sets p (some .dir) fs') : Agree D root ⟨fs', entityIds⟩ := by
  refine ⟨⟨h.rootAt.sets hsets fun _ => rfl, ?_⟩, h.sorted⟩
  intro d hd name
  rw [← h.file_iff d hd name]
  by_cases hp : stepName R d ++ [name] = p
  · subst hp
    refine iff_of_false ?_ hfile
    exact FileTree.not_isFile_of_isDir hsets.node_self
  · exact hsets.isFile_ne hp

lemma store (h : Agree D root ⟨fs, entityIds⟩) (hd : d ∈ D.names) {content : Str}
    (hdir : ¬ fs.tree.IsDir (stepName R d ++ [toStr id]))
    (hsets : fs.Sets (stepName R d ++ [toStr id]) (some (.file content)) fs') :
    Agree D root ⟨fs', addIdToEntity entityIds d id⟩ := by
  refine ⟨⟨h.rootAt.sets hsets fun hp => absurd hp hdir, ?_⟩,
    fun d' hd' => pairwise_addIdToEntity (h.sorted d' hd')⟩
  · intro d' hd' name
    simp only [mem_idsOf_addIdToEntity]
    by_cases hp : stepName R d' ++ [name] = stepName R d ++ [toStr id]
    · obtain ⟨rfl, rfl⟩ := D.path_inj hd' hd hp
      exact iff_of_true ⟨content, hsets.node_self⟩ ⟨id, Or.inl ⟨rfl, rfl⟩, rfl⟩
    · rw [hsets.isFile_ne hp, h.file_iff d' hd' name]
      constructor
      · rintro ⟨n, hn, hname⟩
        exact ⟨n, Or.inr hn, hname⟩
      · rintro ⟨n, ⟨rfl, rfl⟩ | hn, rfl⟩
        · exact absurd rfl hp
        · exact ⟨n, hn, rfl⟩

lemma delete (h : Agree D root ⟨fs, entityIds⟩) (hd : d ∈ D.names)
    (hremove : removeIdFromEntity entityIds d id = some entityIds')
    (hsets : fs.Sets (stepName R d ++ [toStr id]) none fs') :
    Agree D root ⟨fs', entityIds'⟩ := by
  have hfile : fs.tree.IsFile (stepName R d ++ [toStr id]) :=
    (h.isFile_iff hd).mpr (removeIdFromEntity_eq_some hremove).1
  refine ⟨⟨h.rootAt.sets hsets fun hp => absurd hfile (FileTree.not_isFile_of_isDir hp), ?_⟩,
    fun d' hd' => pairwise_remove hremove (h.sorted d' hd')⟩
  · intro d' hd' name
    simp only [mem_idsOf_remove (h.nodup hd) hremove]
    by_cases hp : stepName R d' ++ [name] = stepName R d ++ [toStr id]
    · obtain ⟨rfl, rfl⟩ := D.path_inj hd' hd hp
      refine iff_of_false ?_ ?_
      · rintro ⟨content, hcontent⟩
        rw [hsets.node_self] at hcontent
        cases hcontent
      · rintro ⟨n, ⟨-, hn⟩, hname⟩
        exact hn ⟨rfl, toStr_injective hname⟩
    · rw [hsets.isFile_ne hp, h.file_iff d' hd' name]
      constructor
      · rintro ⟨n, hn, rfl⟩
        exact ⟨n, ⟨hn, by rintro ⟨rfl, rfl⟩; exact hp rfl⟩, rfl⟩
      · rintro ⟨n, ⟨hn, -⟩, rfl⟩
        exact ⟨n, hn, rfl⟩

/-- What happens elsewhere does not matter. -/
lemma elsewhere (h : Agree D root ⟨fs, entityIds⟩) {p : List Str} {x : Option (Node Str)}
    (hsets : fs.Sets p x fs') (hdir : fs.tree.IsDir p → x = some .dir)
    (hpath : ∀ d ∈ D.names, ∀ name, stepName R d ++ [name] ≠ p)
    (hids : ∀ d ∈ D.names, idsOf entityIds' d = idsOf entityIds d) :
    Agree D root ⟨fs', entityIds'⟩ := by
  refine ⟨⟨h.rootAt.sets hsets hdir, ?_⟩, ?_⟩
  · intro d hd name
    rw [hsets.isFile_ne (hpath d hd name), hids d hd]
    exact h.file_iff d hd name
  · intro d hd
    rw [hids d hd]
    exact h.sorted d hd

/-- Nor does it whether the directory was there before. -/
lemma createDirectory (h : Agree D root ⟨fs, entityIds⟩) (hslash : '/' ∉ d)
    (hdir : fs' = fs ∨ fs.createDirectory (root ++ '/' :: d) = some fs') :
    Agree D root ⟨fs', entityIds⟩ := by
  rcases hdir with rfl | hdir
  · exact h
  · obtain ⟨hfile, hsets⟩ := h.rootAt.createDirectory hslash hdir
    exact h.directory hfile hsets

/-- A change to a directory preserves the agreement. -/
theorem change (h : Agree D root w) (hd : d ∈ D.names) (hchange : Change root w d w') :
    Agree D root w' := by
  have hslash := D.slash_free d hd
  cases hchange with
  | nothing => exact h
  | directory hdir => exact createDirectory h hslash (Or.inr hdir)
  | @store fs fs' id content hdir hfile =>
    have hagree := createDirectory h hslash hdir
    obtain ⟨hnot, hsets⟩ := hagree.rootAt.writeFile hslash hfile
    exact hagree.store hd hnot hsets
  | @overwrite fs id content hexists hfile =>
    obtain ⟨hnot, hsets⟩ := h.rootAt.writeFile hslash hfile
    have hmem : id ∈ idsOf w.entityIds d := by
      have hdir : w.fs.isDirectory (root ++ '/' :: d ++ '/' :: toStr id) = false := by
        obtain ⟨p, hp, hdir, -⟩ := FileSystem.writeFile_eq_some hfile
        rw [FileSystem.isDirectory_of_resolve hp]
        exact decide_eq_false hdir
      obtain ⟨p, hp, hisfile⟩ := FileSystem.isFile_of_exists hexists hdir
      obtain ⟨-, rfl⟩ := h.rootAt.resolve_file hslash (plainName_toStr id) hp
      exact (h.isFile_iff hd).mp hisfile
    have hagree := Agree.store h hd hnot hsets
    rwa [addIdToEntity_of_mem hmem] at hagree
  | delete hboth hname hid hexists hdir hremove hfile =>
    have hpath := h.delete_path hd hboth hname hid hexists hdir hremove
    exact Agree.delete h hd hremove (FileSystem.remove_eq_some hfile hpath)

/-- So does a change to any other directory. -/
theorem change_apart (h : Agree D root w) (hslash : '/' ∉ d) (hd : D.Apart d)
    (hchange : Change root w d w') : Agree D root w' := by
  have hpath : ∀ d' ∈ D.names, ∀ name name', stepName R d' ++ [name] ≠ stepName R d ++ [name'] := by
    intro d' hd' name name' heq
    exact hd.dir_ne d' hd' (List.append_inj' heq rfl).1
  cases hchange with
  | nothing => exact h
  | directory hdir => exact createDirectory h hslash (Or.inr hdir)
  | @store fs fs' id content hdir hfile =>
    have hagree := createDirectory h hslash hdir
    obtain ⟨hnot, hsets⟩ := hagree.rootAt.writeFile hslash hfile
    refine hagree.elsewhere hsets (fun hp => absurd hp hnot) ?_ ?_
    · intro d' hd' name
      exact hpath d' hd' name _
    · intro d' hd'
      exact idsOf_addIdToEntity_ne (hd.ne d' hd')
  | overwrite hexists hfile =>
    obtain ⟨hnot, hsets⟩ := h.rootAt.writeFile hslash hfile
    exact Agree.elsewhere h hsets (fun hp => absurd hp hnot)
      (fun d' hd' name => hpath d' hd' name _) fun _ _ => rfl
  | @delete name both id entityIds fs hboth hname hid hexists hdir hremove hfile =>
    obtain ⟨p, hp, hisfile⟩ := FileSystem.isFile_of_exists hexists hdir
    have hsets := FileSystem.remove_eq_some hfile hp
    refine Agree.elsewhere h hsets
      (fun hpdir => absurd hisfile (FileTree.not_isFile_of_isDir hpdir)) ?_ ?_
    · intro d' hd' name'
      rcases hboth with rfl | ⟨rfl, rfl⟩
      · rw [← List.cons_append, ← List.append_assoc] at hp
        obtain ⟨-, rfl⟩ := h.rootAt.resolve_file hslash (plainName_of_stoi hname hid) hp
        exact hpath d' hd' name' name
      · rw [h.rootAt.resolve_dir hslash, Option.some.injEq] at hp
        subst hp
        exact hd.path_ne d' hd' name'
    · intro d' hd'
      obtain ⟨-, rfl⟩ := removeIdFromEntity_eq_some hremove
      exact idsOf_insert_ne _ (hd.ne d' hd')

end Agree

/-- A disk on which the directory `r` is all there is, and no ids. -/
def emptyDisk : CrudState :=
  ⟨⟨FileTree.bare.insert [['r']] .dir (by simp) (by decide) fun _ => rfl, []⟩, ∅⟩

lemma node_emptyDisk {p : List Str} (h : 1 < p.length) : emptyDisk.fs.tree.node p = none := by
  have hr : p ≠ [['r']] := by
    rintro rfl
    simp at h
  have hnil : p ≠ [] := by
    rintro rfl
    simp at h
  unfold emptyDisk
  rw [FileTree.node_insert_ne _ _ _ _ _ hr]
  exact AList.lookup_insert_ne hnil

lemma agree_emptyDisk : Agree (Directories.plain [['r']]) ['r'] emptyDisk := by
  refine ⟨⟨⟨rfl, rfl⟩, ?_⟩, fun d _ => List.Pairwise.nil⟩
  intro d hd name
  refine iff_of_false ?_ (by rintro ⟨id, hid, -⟩; cases hid)
  rintro ⟨content, hcontent⟩
  rw [stepName_of_plain _ hd, node_emptyDisk (by simp)] at hcontent
  cases hcontent

end SocialNetworkApp
