import SocialNetworkApp.Core.Subtree
import SocialNetworkApp.Http.Message

/-!
# The file system of the memes

`BoostFileSystem` wraps the calls of the file system and reports their outcome as a status. Its
locks are left out: here one call is made at a time.
-/

namespace SocialNetworkApp

open SocialNetworkApp.Core

/-- `status_f`. -/
inductive StatusF where
  | success
  | not_found
  | conflict
  | error
deriving DecidableEq

/-- Which calls fail although the file system would allow them, by path. -/
structure StorageFaults where
  directory : Str → Bool := fun _ => false
  opening : Str → Bool := fun _ => false

namespace BoostFileSystem

variable (faults : StorageFaults) (fs : FileSystem)

def exist (path : Str) : Bool := fs.pathExists path

def writeFile (path content : Str) : StatusF × FileSystem :=
  match if faults.opening path then none else fs.writeFile path content with
  | some fs' => (.success, fs')
  | none => (.not_found, fs)

/-- `read_file`, with the content it leaves behind; reading a directory throws. -/
def readFile (path : Str) : Except Exception (StatusF × Str) :=
  if !exist fs path then .ok (.not_found, [])
  else
    match if faults.opening path then .closed else fs.openRead path with
    | .closed => .ok (.error, [])
    | .directory => .error .iosFailure
    | .contents content => .ok (.success, content)

def createDirectory (path : Str) : StatusF × FileSystem :=
  if exist fs path then (.conflict, fs)
  else
    match if faults.directory path then none else fs.createDirectory path with
    | some fs' => (.success, fs')
    | none => (.error, fs)

def deleteDirectory (path : Str) : StatusF × FileSystem :=
  if !exist fs path || !fs.isDirectory path then (.not_found, fs)
  else
    match if faults.directory path then none else fs.removeAll path with
    | some fs' => (.success, fs')
    | none => (.error, fs)

/-! ### Outcomes -/

variable {faults fs} {path content : Str} {status : StatusF} {fs' : FileSystem}

/-- A file is written or nothing happens. -/
lemma writeFile_cases (h : writeFile faults fs path content = (status, fs')) :
    status = .success ∧ fs.writeFile path content = some fs' ∨ status ≠ .success ∧ fs' = fs := by
  rw [writeFile] at h
  split_ifs at h with hfault
  · obtain ⟨rfl, rfl⟩ := Prod.mk.inj h
    exact Or.inr ⟨StatusF.noConfusion, rfl⟩
  · cases hwrite : fs.writeFile path content with
    | none =>
      rw [hwrite] at h
      obtain ⟨rfl, rfl⟩ := Prod.mk.inj h
      exact Or.inr ⟨StatusF.noConfusion, rfl⟩
    | some fs'' =>
      rw [hwrite] at h
      obtain ⟨rfl, rfl⟩ := Prod.mk.inj h
      exact Or.inl ⟨rfl, rfl⟩

/-- A directory is created where there was nothing, or nothing happens. -/
lemma createDirectory_cases (h : createDirectory faults fs path = (status, fs')) :
    status = .success ∧ exist fs path = false ∧ fs.createDirectory path = some fs' ∨
      status ≠ .success ∧ fs' = fs := by
  rw [createDirectory] at h
  split_ifs at h with hexist hfault
  · obtain ⟨rfl, rfl⟩ := Prod.mk.inj h
    exact Or.inr ⟨StatusF.noConfusion, rfl⟩
  · obtain ⟨rfl, rfl⟩ := Prod.mk.inj h
    exact Or.inr ⟨StatusF.noConfusion, rfl⟩
  · rw [Bool.not_eq_true] at hexist
    cases hcreate : fs.createDirectory path with
    | none =>
      rw [hcreate] at h
      obtain ⟨rfl, rfl⟩ := Prod.mk.inj h
      exact Or.inr ⟨StatusF.noConfusion, rfl⟩
    | some fs'' =>
      rw [hcreate] at h
      obtain ⟨rfl, rfl⟩ := Prod.mk.inj h
      exact Or.inl ⟨rfl, hexist, rfl⟩

lemma isDirectory_writeFile (name : Str) :
    (writeFile faults fs path content).2.isDirectory name = fs.isDirectory name := by
  obtain ⟨status, fs', hwrite⟩ : ∃ status fs', writeFile faults fs path content = (status, fs') :=
    ⟨_, _, rfl⟩
  rw [hwrite]
  rcases writeFile_cases hwrite with ⟨-, hfs'⟩ | ⟨-, rfl⟩
  · obtain ⟨p, -, hp, hsets⟩ := FileSystem.writeFile_eq_some hfs'
    exact hsets.isDirectory_file hp name
  · rfl

lemma isDirectory_createDirectory {name : Str} (h : fs.isDirectory name = true) :
    (createDirectory faults fs path).2.isDirectory name = true := by
  obtain ⟨status, fs', hcreate⟩ : ∃ status fs', createDirectory faults fs path = (status, fs') :=
    ⟨_, _, rfl⟩
  rw [hcreate]
  rcases createDirectory_cases hcreate with ⟨-, -, hfs'⟩ | ⟨-, rfl⟩
  · obtain ⟨p, -, -, hsets⟩ := FileSystem.createDirectory_eq_some hfs'
    exact hsets.isDirectory_mono (fun _ => rfl) h
  · exact h

/-- Writing a file leaves all other nodes alone. -/
lemma node_writeFile {q : List Str} (h : fs.resolve path ≠ some q) :
    (writeFile faults fs path content).2.tree.node q = fs.tree.node q := by
  obtain ⟨status, fs', hwrite⟩ : ∃ status fs', writeFile faults fs path content = (status, fs') :=
    ⟨_, _, rfl⟩
  rw [hwrite]
  rcases writeFile_cases hwrite with ⟨-, hfs'⟩ | ⟨-, rfl⟩
  · obtain ⟨p, hp, -, hsets⟩ := FileSystem.writeFile_eq_some hfs'
    exact hsets.node_ne fun hq => h (hq ▸ hp)
  · rfl

lemma node_createDirectory {q : List Str} (h : fs.resolve path ≠ some q) :
    (createDirectory faults fs path).2.tree.node q = fs.tree.node q := by
  obtain ⟨status, fs', hcreate⟩ : ∃ status fs', createDirectory faults fs path = (status, fs') :=
    ⟨_, _, rfl⟩
  rw [hcreate]
  rcases createDirectory_cases hcreate with ⟨-, -, hfs'⟩ | ⟨-, rfl⟩
  · obtain ⟨p, hp, -, hsets⟩ := FileSystem.createDirectory_eq_some hfs'
    exact hsets.node_ne fun hq => h (hq ▸ hp)
  · rfl

/-- Deleting a directory makes nothing. -/
lemma node_deleteDirectory {q : List Str} {x : Node Str}
    (h : (deleteDirectory faults fs path).2.tree.node q = some x) : fs.tree.node q = some x := by
  rw [deleteDirectory] at h
  split_ifs at h with hdir hfault
  · exact h
  · exact h
  · cases hremove : fs.removeAll path with
    | none =>
      rw [hremove] at h
      exact h
    | some fs' =>
      rw [hremove] at h
      cases hp : fs.resolve path with
      | none =>
        simp only [FileSystem.removeAll, hp, Option.some.injEq] at hremove
        rw [hremove]
        exact h
      | some p =>
        have hnode := (FileSystem.removeAll_eq_some hremove hp).node_eq q
        split_ifs at hnode with hpre
        · exact absurd (h.symm.trans hnode) (Option.some_ne_none x)
        · rw [← hnode]
          exact h

/-! ### Calls that succeed -/

section

variable {p : List Str} {n : Str}

lemma exist_of_resolve (hpath : fs.resolve path = some p) :
    exist fs path = (fs.tree.node p).isSome := FileSystem.pathExists_of_resolve hpath

lemma writeFile_success (content : Str) (hpath : fs.resolve path = some (p ++ [n]))
    (hp : fs.tree.IsDir p) (hn : ¬ fs.tree.IsDir (p ++ [n])) :
    ∃ fs', writeFile {} fs path content = (.success, fs') ∧
      fs.Sets (p ++ [n]) (some (.file content)) fs' := by
  obtain ⟨t, ht⟩ := FileTree.writeFile_isSome content hp hn
  have hwrite : fs.writeFile path content = some { fs with tree := t } := by
    rw [FileSystem.writeFile, hpath]
    simp only [ht, Option.map_some]
  obtain ⟨q, hq, -, hsets⟩ := FileSystem.writeFile_eq_some hwrite
  obtain rfl := Option.some.inj (hpath.symm.trans hq)
  refine ⟨_, ?_, hsets⟩
  rw [writeFile, hwrite]
  rfl

lemma createDirectory_success (hpath : fs.resolve path = some (p ++ [n])) (hp : fs.tree.IsDir p)
    (hn : fs.tree.node (p ++ [n]) = none) :
    ∃ fs', createDirectory {} fs path = (.success, fs') ∧
      fs.Sets (p ++ [n]) (some .dir) fs' := by
  have hfile : ¬ fs.tree.IsFile (p ++ [n]) := by
    rintro ⟨s, hs⟩
    rw [hn] at hs
    cases hs
  obtain ⟨t, ht⟩ := FileTree.createDirectory_isSome hp hfile
  have hcreate : fs.createDirectory path = some { fs with tree := t } := by
    rw [FileSystem.createDirectory, hpath]
    simp only [ht, Option.map_some]
  obtain ⟨q, hq, -, hsets⟩ := FileSystem.createDirectory_eq_some hcreate
  obtain rfl := Option.some.inj (hpath.symm.trans hq)
  refine ⟨_, ?_, hsets⟩
  rw [createDirectory, exist_of_resolve hpath, hn, hcreate]
  rfl

lemma deleteDirectory_success (hpath : fs.resolve path = some (p ++ [n]))
    (hn : fs.tree.IsDir (p ++ [n])) :
    ∃ fs', deleteDirectory {} fs path = (.success, fs') ∧ fs.Clears (p ++ [n]) fs' := by
  obtain ⟨fs', hremove⟩ := FileSystem.removeAll_isSome hpath
  refine ⟨fs', ?_, FileSystem.removeAll_eq_some hremove hpath⟩
  rw [deleteDirectory, exist_of_resolve hpath, FileSystem.isDirectory_of_resolve hpath,
    show fs.tree.node (p ++ [n]) = some .dir from hn, decide_eq_true hn, hremove]
  rfl

lemma deleteDirectory_of_not_isDir (hpath : fs.resolve path = some p) (hp : ¬ fs.tree.IsDir p) :
    deleteDirectory faults fs path = (.not_found, fs) := by
  rw [deleteDirectory, FileSystem.isDirectory_of_resolve hpath, decide_eq_false hp,
    Bool.not_false, Bool.or_true, if_pos rfl]

lemma readFile_of_file (hpath : fs.resolve path = some p)
    (hp : fs.tree.node p = some (.file content)) :
    readFile {} fs path = .ok (.success, content) := by
  rw [readFile, exist_of_resolve hpath, hp, FileSystem.openRead_of_node hpath hp]
  rfl

end

end BoostFileSystem

end SocialNetworkApp
