import Mathlib.Data.List.Induction
import SocialNetworkApp.Core.Table

/-!
# Trees of directories and files

A tree is a finite table of nodes indexed by paths, in which every path but the empty one stands
below a directory. `N` is the type of names, `B` the type of file contents.
-/

namespace SocialNetworkApp
namespace Core

/-- What stands at a path. -/
inductive Node (B : Type*) where
  | file (content : B)
  | dir
deriving DecidableEq

/-- A finite tree: the root is a directory, and so is whatever has an entry below it. -/
structure FileTree (N B : Type*) [DecidableEq N] where
  nodes : AList (fun _ : List N => Node B)
  root_dir : nodes.lookup [] = some .dir
  parent_dir : ∀ {p : List N} {n : N}, p ++ [n] ∈ nodes → nodes.lookup p = some .dir

namespace FileTree

variable {N B : Type*} [DecidableEq N]

/-! ### Observations -/

/-- The node at a path. -/
def node (t : FileTree N B) (p : List N) : Option (Node B) := t.nodes.lookup p

/-- Is there a directory at `p`? -/
def IsDir (t : FileTree N B) (p : List N) : Prop := t.node p = some .dir

/-- Is there a file at `p`? -/
def IsFile (t : FileTree N B) (p : List N) : Prop := ∃ b, t.node p = some (.file b)

/-- The content of the file at `p`. -/
def content (t : FileTree N B) (p : List N) : Option B :=
  match t.node p with
  | some (.file b) => some b
  | _ => none

/-- The names standing directly below `p`. -/
def children (t : FileTree N B) (p : List N) : List N :=
  t.nodes.keys.filterMap fun q => if q.dropLast = p then q.getLast? else none

lemma node_eq_none_iff {t : FileTree N B} {p : List N} : t.node p = none ↔ p ∉ t.nodes :=
  AList.lookup_eq_none

@[simp] lemma node_nil (t : FileTree N B) : t.node [] = some .dir := t.root_dir

lemma mem_nodes_of_node {t : FileTree N B} {p : List N} {x : Node B} (h : t.node p = some x) :
    p ∈ t.nodes := by
  rw [← AList.lookup_isSome]
  exact Option.isSome_iff_exists.mpr ⟨x, h⟩

/-- Whatever stands at `p ++ [n]` stands in a directory. -/
lemma isDir_of_node {t : FileTree N B} {p : List N} {n : N} {x : Node B}
    (h : t.node (p ++ [n]) = some x) : t.IsDir p :=
  t.parent_dir (mem_nodes_of_node h)

/-- What holds something is a directory. -/
lemma isDir_of_append {t : FileTree N B} {p r : List N} {x : Node B} (hr : r ≠ [])
    (h : t.node (p ++ r) = some x) : t.IsDir p := by
  induction r using List.reverseRecOn generalizing x with
  | nil => exact absurd rfl hr
  | append_singleton r n ih =>
    rw [← List.append_assoc] at h
    by_cases hr' : r = []
    · subst hr'
      rw [List.append_nil] at h
      exact isDir_of_node h
    · exact ih hr' (isDir_of_node h)

lemma not_isFile_of_isDir {t : FileTree N B} {p : List N} (h : t.IsDir p) : ¬ t.IsFile p := by
  rintro ⟨b, hb⟩
  rw [IsDir, hb] at h
  cases h

lemma isFile_iff_content {t : FileTree N B} {p : List N} :
    t.IsFile p ↔ ∃ b, t.content p = some b := by
  simp only [IsFile, content]
  constructor
  · rintro ⟨b, hb⟩
    exact ⟨b, by rw [hb]⟩
  · rintro ⟨b, hb⟩
    split at hb
    · exact ⟨_, ‹_›⟩
    · cases hb

lemma node_of_content {t : FileTree N B} {p : List N} {b : B} (h : t.content p = some b) :
    t.node p = some (.file b) := by
  simp only [content] at h
  split at h
  · rw [‹t.node p = _›, Option.some.inj h]
  · cases h

lemma content_eq_none_iff {t : FileTree N B} {p : List N} : t.content p = none ↔ ¬ t.IsFile p := by
  rw [isFile_iff_content, Option.eq_none_iff_forall_ne_some]
  push Not
  rfl

lemma mem_children_iff {t : FileTree N B} {p : List N} {n : N} :
    n ∈ t.children p ↔ p ++ [n] ∈ t.nodes := by
  simp only [children, List.mem_filterMap, Option.ite_none_right_eq_some, AList.mem_keys]
  constructor
  · rintro ⟨q, hq, rfl, hn⟩
    rwa [List.dropLast_append_getLast? n hn]
  · intro h
    exact ⟨p ++ [n], h, by simp, by simp⟩

lemma exists_node_of_mem_children {t : FileTree N B} {p : List N} {n : N} (h : n ∈ t.children p) :
    ∃ x, t.node (p ++ [n]) = some x :=
  Option.isSome_iff_exists.mp (AList.lookup_isSome.mpr (mem_children_iff.mp h))

/-- No name stands twice in a directory. -/
lemma nodup_children (t : FileTree N B) (p : List N) : (t.children p).Nodup := by
  refine List.Nodup.filterMap ?_ t.nodes.keys_nodup
  intro q q' n hq hq'
  simp only [Option.mem_def, Option.ite_none_right_eq_some] at hq hq'
  rw [← List.dropLast_append_getLast? n hq.2, ← List.dropLast_append_getLast? n hq'.2, hq.1, hq'.1]

/-! ### Operations -/

/-- Set the node at `p`, below a directory and without orphaning anything. -/
def insert (t : FileTree N B) (p : List N) (x : Node B) (hp : p ≠ [])
    (hparent : t.IsDir p.dropLast) (hx : t.IsDir p → x = .dir) : FileTree N B where
  nodes := t.nodes.insert p x
  root_dir := by rw [AList.lookup_insert_ne hp.symm]; exact t.root_dir
  parent_dir := by
    intro q n hq
    have hdir : t.IsDir q := by
      rcases (AList.mem_insert t.nodes).mp hq with rfl | hq
      · simpa using hparent
      · exact t.parent_dir hq
    by_cases hqp : q = p
    · subst hqp
      rw [AList.lookup_insert, hx hdir]
    · rw [AList.lookup_insert_ne hqp]
      exact hdir

/-- Drop the node at `p`, below which nothing stands. -/
def erase (t : FileTree N B) (p : List N) (hp : p ≠ []) (hleaf : t.children p = []) :
    FileTree N B where
  nodes := t.nodes.erase p
  root_dir := by rw [AList.lookup_erase_ne hp.symm]; exact t.root_dir
  parent_dir := by
    intro q n hq
    have hmem := (AList.mem_erase.mp hq).2
    have hqp : q ≠ p := by
      rintro rfl
      have := mem_children_iff.mpr hmem
      rw [hleaf] at this
      cases this
    rw [AList.lookup_erase_ne hqp]
    exact t.parent_dir hmem

/-- Drop the node at `p` and everything below it. -/
def eraseAll (t : FileTree N B) (p : List N) (hp : p ≠ []) : FileTree N B where
  nodes := Table.restrict t.nodes fun q => ¬ p <+: q
  root_dir := by
    rw [Table.lookup_restrict, if_pos (by simpa using hp)]
    exact t.root_dir
  parent_dir := by
    intro q n hq
    obtain ⟨x, hx⟩ := Option.isSome_iff_exists.mp (AList.lookup_isSome.mpr hq)
    rw [Table.lookup_restrict, Option.ite_none_right_eq_some] at hx
    have hpre : ¬ p <+: q := by
      intro hpre
      simp [hpre.trans (List.prefix_append q [n])] at hx
    rw [Table.lookup_restrict, if_pos (by simpa using hpre)]
    exact isDir_of_node hx.2

/-- The tree that holds nothing but its root. -/
def bare : FileTree N B where
  nodes := AList.insert [] .dir ∅
  root_dir := AList.lookup_insert _
  parent_dir := by
    intro p n h
    rcases (AList.mem_insert ∅).mp h with h | h
    · simp at h
    · exact absurd h (AList.notMem_empty _)

@[simp] lemma node_insert_self (t : FileTree N B) (p : List N) (x : Node B) (hp hparent hx) :
    (t.insert p x hp hparent hx).node p = some x := AList.lookup_insert _

lemma node_insert_ne (t : FileTree N B) {p q : List N} (x : Node B) (hp hparent hx) (h : q ≠ p) :
    (t.insert p x hp hparent hx).node q = t.node q := AList.lookup_insert_ne h

@[simp] lemma node_erase_self (t : FileTree N B) (p : List N) (hp hleaf) :
    (t.erase p hp hleaf).node p = none := AList.lookup_erase p t.nodes

lemma node_erase_ne (t : FileTree N B) {p q : List N} (hp hleaf) (h : q ≠ p) :
    (t.erase p hp hleaf).node q = t.node q := AList.lookup_erase_ne h

instance (t : FileTree N B) (p : List N) : Decidable (t.IsDir p) :=
  match h : t.node p with
  | some .dir => isTrue h
  | some (.file _) => isFalse fun hd => by rw [IsDir, h] at hd; cases hd
  | none => isFalse fun hd => by rw [IsDir, h] at hd; cases hd

/-- Write a whole file, creating it or dropping its old content; it fails on a directory and
outside any directory. -/
def writeFile (t : FileTree N B) (p : List N) (b : B) : Option (FileTree N B) :=
  if h : p ≠ [] ∧ t.IsDir p.dropLast ∧ ¬ t.IsDir p then
    some (t.insert p (.file b) h.1 h.2.1 fun hd => absurd hd h.2.2)
  else none

/-- Create a directory: nothing happens when it is there already; it fails on a file and outside
any directory. -/
def createDirectory (t : FileTree N B) (p : List N) : Option (FileTree N B) :=
  if t.IsDir p then some t
  else if h : p ≠ [] ∧ t.IsDir p.dropLast ∧ t.node p = none then
    some (t.insert p .dir h.1 h.2.1 fun _ => rfl)
  else none

/-- Remove a file or an empty directory: nothing happens when there is none. -/
def remove (t : FileTree N B) (p : List N) : Option (FileTree N B) :=
  if t.node p = none then some t
  else if h : p ≠ [] ∧ t.children p = [] then some (t.erase p h.1 h.2)
  else none

/-- Remove whatever stands at `p` with everything below it; it fails on the root. -/
def removeAll (t : FileTree N B) (p : List N) : Option (FileTree N B) :=
  if h : p ≠ [] then some (t.eraseAll p h) else none

lemma children_eq_nil_of_isFile {t : FileTree N B} {p : List N} (h : t.IsFile p) :
    t.children p = [] := by
  by_contra hne
  obtain ⟨n, hn⟩ := List.exists_mem_of_ne_nil _ hne
  exact not_isFile_of_isDir (t.parent_dir (mem_children_iff.mp hn)) h

/-- A written file stands at its path, and nothing else changes. -/
lemma node_writeFile {t t' : FileTree N B} {p : List N} {b : B} (h : t.writeFile p b = some t')
    (q : List N) : t'.node q = if q = p then some (.file b) else t.node q := by
  simp only [writeFile] at h
  split_ifs at h with hp
  cases h
  split_ifs with hq
  · subst hq
    rw [node_insert_self]
  · rw [node_insert_ne _ _ _ _ _ hq]

lemma not_isDir_of_writeFile {t t' : FileTree N B} {p : List N} {b : B}
    (h : t.writeFile p b = some t') : ¬ t.IsDir p := by
  simp only [writeFile] at h
  split_ifs at h with hp
  exact hp.2.2

lemma writeFile_isSome {t : FileTree N B} {p : List N} {n : N} (b : B) (hp : t.IsDir p)
    (hn : ¬ t.IsDir (p ++ [n])) : ∃ t', t.writeFile (p ++ [n]) b = some t' := by
  simp only [writeFile, ne_eq, List.append_eq_nil_iff, List.cons_ne_self, and_false,
    not_false_eq_true, List.dropLast_concat, hp, hn, and_self, dite_true, Option.some.injEq,
    exists_eq']

/-- A created directory stands at its path, and nothing else changes. -/
lemma node_createDirectory {t t' : FileTree N B} {p : List N} (h : t.createDirectory p = some t')
    (q : List N) : t'.node q = if q = p then some .dir else t.node q := by
  simp only [createDirectory] at h
  split_ifs at h with hd hp
  · cases h
    split_ifs with hq
    · subst hq
      exact hd
    · rfl
  · cases h
    split_ifs with hq
    · subst hq
      rw [node_insert_self]
    · rw [node_insert_ne _ _ _ _ _ hq]

lemma not_isFile_of_createDirectory {t t' : FileTree N B} {p : List N}
    (h : t.createDirectory p = some t') : ¬ t.IsFile p := by
  simp only [createDirectory] at h
  split_ifs at h with hd hp
  · exact not_isFile_of_isDir hd
  · rintro ⟨b, hb⟩
    rw [hp.2.2] at hb
    cases hb

lemma createDirectory_isSome {t : FileTree N B} {p : List N} {n : N} (hp : t.IsDir p)
    (hn : ¬ t.IsFile (p ++ [n])) : ∃ t', t.createDirectory (p ++ [n]) = some t' := by
  by_cases hd : t.IsDir (p ++ [n])
  · exact ⟨t, if_pos hd⟩
  · have hnone : t.node (p ++ [n]) = none := by
      cases hx : t.node (p ++ [n]) with
      | none => rfl
      | some x =>
        cases x with
        | file b => exact absurd ⟨b, hx⟩ hn
        | dir => exact absurd hx hd
    simp [createDirectory, hd, hp, hnone]

/-- Removing a file leaves nothing at its path, and nothing else changes. -/
lemma node_remove {t t' : FileTree N B} {p : List N} (h : t.remove p = some t') (q : List N) :
    t'.node q = if q = p then none else t.node q := by
  simp only [remove] at h
  split_ifs at h with hn hp
  · cases h
    split_ifs with hq
    · rw [hq, hn]
    · rfl
  · cases h
    split_ifs with hq
    · subst hq
      rw [node_erase_self]
    · rw [node_erase_ne _ _ _ hq]

lemma remove_isSome_of_isFile {t : FileTree N B} {p : List N} (h : t.IsFile p) :
    ∃ t', t.remove p = some t' := by
  have hp : p ≠ [] := by
    rintro rfl
    obtain ⟨b, hb⟩ := h
    simp at hb
  by_cases hn : t.node p = none
  · exact ⟨t, if_pos hn⟩
  · simp [remove, hn, hp, children_eq_nil_of_isFile h]

/-- Nothing is left at and below `p`, and nothing else changes. -/
lemma node_removeAll {t t' : FileTree N B} {p : List N} (h : t.removeAll p = some t')
    (q : List N) : t'.node q = if p <+: q then none else t.node q := by
  rw [removeAll] at h
  split_ifs at h with hp
  cases h
  rw [node, eraseAll, Table.lookup_restrict, node]
  by_cases hpre : p <+: q <;> simp [hpre]

end FileTree
end Core
end SocialNetworkApp
