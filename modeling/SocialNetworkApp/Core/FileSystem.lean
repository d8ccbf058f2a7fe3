import SocialNetworkApp.Core.FileTree
import SocialNetworkApp.Core.Str

/-!
# Path names

A path name is walked component by component from the working directory (or from the root when it
starts with a slash): every component is looked up in a directory that exists, `.` and the empty
component stay there, `..` goes to its parent.
-/

namespace SocialNetworkApp
namespace Core

/-- A file tree together with the working directory of the process. -/
structure FileSystem where
  tree : FileTree Str Str
  cwd : List Str

/-- Where one component leads. -/
def stepName (p : List Str) (n : Str) : List Str :=
  if n = [] ∨ n = ['.'] then p
  else if n = ['.', '.'] then p.dropLast
  else p ++ [n]

/-- Walk the components `ns` from `p`. -/
def FileTree.walk (t : FileTree Str Str) (p : List Str) : List Str → Option (List Str)
  | [] => some p
  | n :: ns => if t.IsDir p then t.walk (stepName p n) ns else none

/-- What opening a file for reading gives. -/
inductive OpenRead where
  | closed
  | directory
  | contents (s : Str)
deriving DecidableEq

namespace FileSystem

/-- The path a path name denotes. -/
def resolve (fs : FileSystem) (name : Str) : Option (List Str) :=
  if name = [] then none
  else fs.tree.walk (if name.head? = some '/' then [] else fs.cwd) (name.splitOn '/')

/-- `boost::filesystem::exists`. -/
def pathExists (fs : FileSystem) (name : Str) : Bool :=
  match fs.resolve name with
  | some p => (fs.tree.node p).isSome
  | none => false

/-- `boost::filesystem::is_directory`. -/
def isDirectory (fs : FileSystem) (name : Str) : Bool :=
  match fs.resolve name with
  | some p => decide (fs.tree.IsDir p)
  | none => false

/-- Open a file for reading. -/
def openRead (fs : FileSystem) (name : Str) : OpenRead :=
  match fs.resolve name with
  | none => .closed
  | some p =>
    match fs.tree.node p with
    | none => .closed
    | some .dir => .directory
    | some (.file s) => .contents s

/-- Open a file for writing and write `s`; `none` when it does not open. -/
def writeFile (fs : FileSystem) (name s : Str) : Option FileSystem :=
  match fs.resolve name with
  | none => none
  | some p => (fs.tree.writeFile p s).map fun t => { fs with tree := t }

/-- `boost::filesystem::create_directory`; `none` when it throws. -/
def createDirectory (fs : FileSystem) (name : Str) : Option FileSystem :=
  match fs.resolve name with
  | none => none
  | some p => (fs.tree.createDirectory p).map fun t => { fs with tree := t }

/-- `boost::filesystem::remove`; `none` when it throws. -/
def remove (fs : FileSystem) (name : Str) : Option FileSystem :=
  match fs.resolve name with
  | none => some fs
  | some p => (fs.tree.remove p).map fun t => { fs with tree := t }

/-- `boost::filesystem::remove_all`; `none` when it throws. -/
def removeAll (fs : FileSystem) (name : Str) : Option FileSystem :=
  match fs.resolve name with
  | none => some fs
  | some p => (fs.tree.removeAll p).map fun t => { fs with tree := t }

/-- The names a `boost::filesystem::directory_iterator` goes through. -/
def entries (fs : FileSystem) (name : Str) : List Str :=
  match fs.resolve name with
  | some p => fs.tree.children p
  | none => []

end FileSystem

/-! ### Walking -/

/-- A name that stands for an entry of its directory. -/
def PlainName (n : Str) : Prop := n ≠ [] ∧ '/' ∉ n ∧ n ≠ ['.'] ∧ n ≠ ['.', '.']

instance (n : Str) : Decidable (PlainName n) := inferInstanceAs (Decidable (_ ∧ _))

/-- A plain name together with the fact that it is one. -/
abbrev FileName := { n : Str // PlainName n }

lemma plainName_of_isDigit {n : Str} (hne : n ≠ []) (h : ∀ c ∈ n, c.isDigit = true) :
    PlainName n := by
  have hdot : '.' ∉ n := fun hc => Bool.false_ne_true (h _ hc)
  refine ⟨hne, fun hc => Bool.false_ne_true (h _ hc), ?_, ?_⟩
  · rintro rfl
    exact hdot List.mem_cons_self
  · rintro rfl
    exact hdot List.mem_cons_self

lemma stepName_of_plain {n : Str} (p : List Str) (h : PlainName n) : stepName p n = p ++ [n] := by
  simp [stepName, h.1, h.2.2.1, h.2.2.2]

namespace FileTree

variable {t t' : FileTree Str Str}

lemma walk_append (p : List Str) (ms ns : List Str) :
    t.walk p (ms ++ ns) = (t.walk p ms).bind fun q => t.walk q ns := by
  induction ms generalizing p with
  | nil => rfl
  | cons m ms ih =>
    simp only [List.cons_append, walk]
    split_ifs
    · exact ih _
    · rfl

lemma walk_singleton (p : List Str) (n : Str) :
    t.walk p [n] = if t.IsDir p then some (stepName p n) else none := rfl

/-- A walk through a tree is also one through a tree with more directories. -/
lemma walk_mono (hdir : ∀ p, t.IsDir p → t'.IsDir p) {p q : List Str} {ns : List Str}
    (h : t.walk p ns = some q) : t'.walk p ns = some q := by
  induction ns generalizing p with
  | nil => exact h
  | cons n ns ih =>
    simp only [walk] at h ⊢
    split_ifs at h with hp
    rw [if_pos (hdir p hp)]
    exact ih h

end FileTree

namespace FileSystem

variable {fs fs' : FileSystem}

/-- Appending a component without slashes to a path name goes one step further. -/
lemma resolve_append {name n : Str} (hname : name ≠ []) (hn : '/' ∉ n) :
    fs.resolve (name ++ '/' :: n) =
      (fs.resolve name).bind fun p => if fs.tree.IsDir p then some (stepName p n) else none := by
  have hhead : (name ++ '/' :: n).head? = name.head? := by
    obtain ⟨c, cs, rfl⟩ := List.exists_cons_of_ne_nil hname
    rfl
  have hsplit : (name ++ '/' :: n).splitOn '/' = name.splitOn '/' ++ [n] := by
    rw [List.splitOn_append_cons_self, List.splitOn_eq_singleton hn]
  simp only [resolve, hname, List.append_eq_nil_iff, false_and, if_false, hhead, hsplit,
    FileTree.walk_append, FileTree.walk_singleton]

/-- A name below a directory denotes the entry of that directory. -/
lemma resolve_below {name n : Str} {p : List Str} (hname : fs.resolve name = some p)
    (hp : fs.tree.IsDir p) (hn : '/' ∉ n) :
    fs.resolve (name ++ '/' :: n) = some (stepName p n) := by
  have hne : name ≠ [] := by
    rintro rfl
    simp [resolve] at hname
  simp [resolve_append hne hn, hname, hp]

lemma pathExists_of_resolve {name : Str} {p : List Str} (h : fs.resolve name = some p) :
    fs.pathExists name = (fs.tree.node p).isSome := by
  simp [pathExists, h]

lemma isDirectory_of_resolve {name : Str} {p : List Str} (h : fs.resolve name = some p) :
    fs.isDirectory name = decide (fs.tree.IsDir p) := by
  simp [isDirectory, h]

/-- What exists and is not a directory is a file. -/
lemma isFile_of_exists {name : Str} (hexists : fs.pathExists name = true)
    (hdir : fs.isDirectory name = false) :
    ∃ p, fs.resolve name = some p ∧ fs.tree.IsFile p := by
  cases hname : fs.resolve name with
  | none => simp [pathExists, hname] at hexists
  | some p =>
    rw [pathExists_of_resolve hname] at hexists
    rw [isDirectory_of_resolve hname, decide_eq_false_iff_not] at hdir
    obtain ⟨x, hx⟩ := Option.isSome_iff_exists.mp hexists
    cases x with
    | file b => exact ⟨p, rfl, b, hx⟩
    | dir => exact absurd hx hdir

/-- A file can be removed. -/
lemma remove_isSome {name : Str} (hexists : fs.pathExists name = true)
    (hdir : fs.isDirectory name = false) : ∃ fs', fs.remove name = some fs' := by
  obtain ⟨p, hname, hfile⟩ := isFile_of_exists hexists hdir
  obtain ⟨t, ht⟩ := FileTree.remove_isSome_of_isFile hfile
  exact ⟨{ fs with tree := t }, by simp [remove, hname, ht]⟩

lemma resolve_mono (hcwd : fs'.cwd = fs.cwd) (hdir : ∀ p, fs.tree.IsDir p → fs'.tree.IsDir p)
    {name : Str} {p : List Str} (h : fs.resolve name = some p) : fs'.resolve name = some p := by
  simp only [resolve, hcwd] at h ⊢
  by_cases hne : name = []
  · simp [hne] at h
  · rw [if_neg hne] at h ⊢
    exact FileTree.walk_mono hdir h

/-! ### Operations -/

/-- The node at `p` becomes `x`, and nothing else changes. -/
structure Sets (fs : FileSystem) (p : List Str) (x : Option (Node Str)) (fs' : FileSystem) :
    Prop where
  cwd_eq : fs'.cwd = fs.cwd
  node_eq : ∀ q, fs'.tree.node q = if q = p then x else fs.tree.node q

namespace Sets

variable {p q : List Str} {x : Option (Node Str)}

lemma node_self (h : fs.Sets p x fs') : fs'.tree.node p = x := by rw [h.node_eq, if_pos rfl]

lemma node_ne (h : fs.Sets p x fs') (hq : q ≠ p) : fs'.tree.node q = fs.tree.node q := by
  rw [h.node_eq, if_neg hq]

/-- Directories stay where they are, unless one is overwritten. -/
lemma isDir_mono (h : fs.Sets p x fs') (hp : fs.tree.IsDir p → x = some .dir)
    (hq : fs.tree.IsDir q) : fs'.tree.IsDir q := by
  by_cases hqp : q = p
  · subst hqp
    exact h.node_self.trans (hp hq)
  · exact (h.node_ne hqp).trans hq

lemma resolve_mono (h : fs.Sets p x fs') (hp : fs.tree.IsDir p → x = some .dir) {name : Str}
    (hname : fs.resolve name = some q) : fs'.resolve name = some q :=
  FileSystem.resolve_mono h.cwd_eq (fun _ => h.isDir_mono hp) hname

lemma isFile_ne (h : fs.Sets p x fs') (hq : q ≠ p) :
    fs'.tree.IsFile q ↔ fs.tree.IsFile q := by
  simp only [FileTree.IsFile, h.node_ne hq]

lemma content_ne (h : fs.Sets p x fs') (hq : q ≠ p) :
    fs'.tree.content q = fs.tree.content q := by
  simp only [FileTree.content, h.node_ne hq]

lemma content_file {s : Str} (h : fs.Sets p (some (.file s)) fs') (q : List Str) :
    fs'.tree.content q = if q = p then some s else fs.tree.content q := by
  split_ifs with hq
  · subst hq
    simp only [FileTree.content, h.node_self]
  · exact h.content_ne hq

/-- A new directory does not change what is in the files. -/
lemma content_dir (h : fs.Sets p (some .dir) fs') (hp : ¬ fs.tree.IsFile p) (q : List Str) :
    fs'.tree.content q = fs.tree.content q := by
  by_cases hq : q = p
  · subst hq
    rw [FileTree.content_eq_none_iff.mpr hp]
    simp only [FileTree.content, h.node_self]
  · exact h.content_ne hq

lemma content_none (h : fs.Sets p none fs') (q : List Str) :
    fs'.tree.content q = if q = p then none else fs.tree.content q := by
  split_ifs with hq
  · subst hq
    simp only [FileTree.content, h.node_self]
  · exact h.content_ne hq

/-- A change elsewhere is not seen through a name that is resolved. -/
lemma openRead_ne (h : fs.Sets p x fs') (hp : fs.tree.IsDir p → x = some .dir) {name : Str}
    (hname : fs.resolve name = some q) (hq : q ≠ p) : fs'.openRead name = fs.openRead name := by
  simp only [openRead, h.resolve_mono hp hname, hname, h.node_ne hq]

end Sets

/-- A name of something that stands there, resolved. -/
lemma exists_resolve_of_pathExists {name : Str} (h : fs.pathExists name = true) :
    ∃ p x, fs.resolve name = some p ∧ fs.tree.node p = some x := by
  cases hname : fs.resolve name with
  | none => simp [pathExists, hname] at h
  | some p =>
    rw [pathExists_of_resolve hname] at h
    obtain ⟨x, hx⟩ := Option.isSome_iff_exists.mp h
    exact ⟨p, x, rfl, hx⟩

/-- Where something is set, nothing disappears. -/
lemma Sets.pathExists_mono {p : List Str} {x : Node Str} (h : fs.Sets p (some x) fs')
    (hp : fs.tree.IsDir p → some x = some .dir) {name : Str} (hname : fs.pathExists name = true) :
    fs'.pathExists name = true := by
  obtain ⟨q, y, hq, hy⟩ := exists_resolve_of_pathExists hname
  rw [pathExists_of_resolve (h.resolve_mono hp hq), h.node_eq]
  split_ifs with hqp
  · rfl
  · rw [hy]
    rfl

/-- A file that is read has a name that resolves. -/
lemma resolve_of_openRead {name s : Str} (h : fs.openRead name = .contents s) :
    ∃ p, fs.resolve name = some p ∧ fs.tree.node p = some (.file s) := by
  simp only [openRead] at h
  cases hname : fs.resolve name with
  | none => simp [hname] at h
  | some p =>
    refine ⟨p, rfl, ?_⟩
    simp only [hname] at h
    cases hnode : fs.tree.node p with
    | none => simp [hnode] at h
    | some x =>
      cases x with
      | dir => simp [hnode] at h
      | file t => simpa [hnode] using h

lemma openRead_of_node {name s : Str} {p : List Str} (hname : fs.resolve name = some p)
    (hp : fs.tree.node p = some (.file s)) : fs.openRead name = .contents s := by
  simp only [openRead, hname, hp]

lemma openRead_of_not_pathExists {name : Str} (h : fs.pathExists name = false) :
    fs.openRead name = .closed := by
  unfold pathExists at h
  unfold openRead
  cases hname : fs.resolve name with
  | none => rfl
  | some p =>
    simp only [hname, Option.isSome_eq_false_iff, Option.isNone_iff_eq_none] at h
    simp only [h]

lemma isDirectory_eq_true {name : Str} (h : fs.isDirectory name = true) :
    ∃ p, fs.resolve name = some p ∧ fs.tree.IsDir p := by
  unfold isDirectory at h
  cases hname : fs.resolve name with
  | none => simp [hname] at h
  | some p => exact ⟨p, rfl, by simpa [hname] using h⟩

lemma pathExists_of_isDirectory {name : Str} (h : fs.isDirectory name = true) :
    fs.pathExists name = true := by
  obtain ⟨p, hname, hp⟩ := isDirectory_eq_true h
  rw [pathExists_of_resolve hname, show fs.tree.node p = some .dir from hp]
  rfl

lemma isDirectory_mono (hcwd : fs'.cwd = fs.cwd) (hdir : ∀ p, fs.tree.IsDir p → fs'.tree.IsDir p)
    {name : Str} (h : fs.isDirectory name = true) : fs'.isDirectory name = true := by
  obtain ⟨p, hp, hpdir⟩ := isDirectory_eq_true h
  rw [isDirectory_of_resolve (resolve_mono hcwd hdir hp), decide_eq_true (hdir p hpdir)]

lemma Sets.isDirectory_mono {p : List Str} {x : Option (Node Str)} (h : fs.Sets p x fs')
    (hp : fs.tree.IsDir p → x = some .dir) {name : Str} (hname : fs.isDirectory name = true) :
    fs'.isDirectory name = true :=
  FileSystem.isDirectory_mono h.cwd_eq (fun _ => h.isDir_mono hp) hname

/-- Where a file is written, no directory comes or goes. -/
lemma Sets.isDirectory_file {p : List Str} {s : Str} (h : fs.Sets p (some (.file s)) fs')
    (hp : ¬ fs.tree.IsDir p) (name : Str) : fs'.isDirectory name = fs.isDirectory name := by
  have hback : ∀ q, fs'.tree.IsDir q → fs.tree.IsDir q := by
    intro q hq
    have hqp : q ≠ p := by
      rintro rfl
      rw [FileTree.IsDir, h.node_self] at hq
      cases hq
    exact (h.node_ne hqp).symm.trans hq
  apply Bool.eq_iff_iff.mpr
  constructor
  · exact FileSystem.isDirectory_mono h.cwd_eq.symm hback
  · exact h.isDirectory_mono fun hdir => absurd hdir hp

lemma createDirectory_eq_some {name : Str} (h : fs.createDirectory name = some fs') :
    ∃ p, fs.resolve name = some p ∧ ¬ fs.tree.IsFile p ∧ fs.Sets p (some .dir) fs' := by
  unfold createDirectory at h
  cases hname : fs.resolve name with
  | none => simp [hname] at h
  | some p =>
    simp only [hname, Option.map_eq_some_iff] at h
    obtain ⟨t, ht, rfl⟩ := h
    exact ⟨p, rfl, FileTree.not_isFile_of_createDirectory ht, rfl,
      FileTree.node_createDirectory ht⟩

lemma writeFile_eq_some {name s : Str} (h : fs.writeFile name s = some fs') :
    ∃ p, fs.resolve name = some p ∧ ¬ fs.tree.IsDir p ∧ fs.Sets p (some (.file s)) fs' := by
  unfold writeFile at h
  cases hname : fs.resolve name with
  | none => simp [hname] at h
  | some p =>
    simp only [hname, Option.map_eq_some_iff] at h
    obtain ⟨t, ht, rfl⟩ := h
    exact ⟨p, rfl, FileTree.not_isDir_of_writeFile ht, rfl, FileTree.node_writeFile ht⟩

lemma remove_eq_some {name : Str} {p : List Str} (h : fs.remove name = some fs')
    (hname : fs.resolve name = some p) : fs.Sets p none fs' := by
  unfold remove at h
  simp only [hname, Option.map_eq_some_iff] at h
  obtain ⟨t, ht, rfl⟩ := h
  exact ⟨rfl, FileTree.node_remove ht⟩

/-- A name that goes on behind another resolves only if the first part is a directory. -/
lemma isDir_of_resolve_append {name n : Str} {p : List Str} (hne : name ≠ []) (hn : '/' ∉ n)
    (h : fs.resolve (name ++ '/' :: n) = some p) :
    ∃ q, fs.resolve name = some q ∧ fs.tree.IsDir q ∧ p = stepName q n := by
  rw [resolve_append hne hn] at h
  obtain ⟨q, hq, hp⟩ := Option.bind_eq_some_iff.mp h
  split_ifs at hp with hdir
  exact ⟨q, hq, hdir, (Option.some.inj hp).symm⟩

/-- The last component of a name is the last step to what it denotes. -/
lemma exists_stepName_of_resolve {name n : Str} {q : List Str} (hn : '/' ∉ n)
    (h : fs.resolve (name ++ '/' :: n) = some q) : ∃ r, q = stepName r n := by
  rw [resolve, if_neg (by simp), List.splitOn_append_cons_self, List.splitOn_eq_singleton hn,
    FileTree.walk_append] at h
  obtain ⟨r, -, hr⟩ := Option.bind_eq_some_iff.mp h
  rw [FileTree.walk_singleton] at hr
  split_ifs at hr
  exact ⟨r, (Option.some.inj hr).symm⟩

/-! ### Calls on a set of names -/

/-- Calls that change the disk, all on names in `S`, lead from one file system to another. -/
inductive CallsOn (S : Str → Prop) : FileSystem → FileSystem → Prop
  | nil (fs : FileSystem) : CallsOn S fs fs
  | createDirectory {fs fs' fs'' : FileSystem} {name : Str} (hname : S name)
      (h : fs.createDirectory name = some fs') (hrest : CallsOn S fs' fs'') : CallsOn S fs fs''
  | writeFile {fs fs' fs'' : FileSystem} {name content : Str} (hname : S name)
      (h : fs.writeFile name content = some fs') (hrest : CallsOn S fs' fs'') : CallsOn S fs fs''
  | remove {fs fs' fs'' : FileSystem} {name : Str} (hname : S name)
      (h : fs.remove name = some fs') (hrest : CallsOn S fs' fs'') : CallsOn S fs fs''

lemma CallsOn.cwd_eq {S : Str → Prop} {fs fs' : FileSystem} (h : CallsOn S fs fs') :
    fs'.cwd = fs.cwd := by
  induction h with
  | nil => rfl
  | createDirectory _ h _ ih =>
    obtain ⟨p, -, -, hsets⟩ := createDirectory_eq_some h
    rw [ih, hsets.cwd_eq]
  | writeFile _ h _ ih =>
    obtain ⟨p, -, -, hsets⟩ := writeFile_eq_some h
    rw [ih, hsets.cwd_eq]
  | @remove fs fs' _ name _ h _ ih =>
    rw [ih]
    cases hname : fs.resolve name with
    | none =>
      simp only [FileSystem.remove, hname, Option.some.injEq] at h
      rw [h]
    | some p => exact (remove_eq_some h hname).cwd_eq

end FileSystem

end Core
end SocialNetworkApp
