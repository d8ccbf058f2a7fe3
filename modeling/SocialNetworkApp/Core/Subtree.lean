import SocialNetworkApp.Core.FileSystem

/-!
# Below a directory

A name that reaches a directory without passing below it reaches it whatever happens below.
-/

namespace SocialNetworkApp
namespace Core
namespace FileSystem

variable {fs fs' fs'' : FileSystem} {p q : List Str} {name n : Str} {x : Option (Node Str)}

/-- The node at `p` and everything below it goes, and nothing else changes. -/
structure Clears (fs : FileSystem) (p : List Str) (fs' : FileSystem) : Prop where
  cwd_eq : fs'.cwd = fs.cwd
  node_eq : ∀ q, fs'.tree.node q = if p <+: q then none else fs.tree.node q

lemma removeAll_eq_some (h : fs.removeAll name = some fs') (hname : fs.resolve name = some p) :
    fs.Clears p fs' := by
  unfold removeAll at h
  simp only [hname, Option.map_eq_some_iff] at h
  obtain ⟨t, ht, rfl⟩ := h
  exact ⟨rfl, FileTree.node_removeAll ht⟩

/-- A directory other than the root of the tree can be removed. -/
lemma removeAll_isSome (hname : fs.resolve name = some (p ++ [n])) :
    ∃ fs', fs.removeAll name = some fs' := by
  have hne : p ++ [n] ≠ [] := List.concat_ne_nil n p
  refine ⟨{ fs with tree := fs.tree.eraseAll (p ++ [n]) hne }, ?_⟩
  rw [removeAll, hname]
  simp only [FileTree.removeAll, dif_pos hne, Option.map_some]

/-! ### Inside and outside -/

/-- Only at `p` and below it do the file systems differ. -/
structure ChangesWithin (fs : FileSystem) (p : List Str) (fs' : FileSystem) : Prop where
  cwd_eq : fs'.cwd = fs.cwd
  node_eq : ∀ q, ¬ p <+: q → fs'.tree.node q = fs.tree.node q

/-- Only strictly below `p` do the file systems differ. -/
structure AgreeOutside (fs : FileSystem) (p : List Str) (fs' : FileSystem) : Prop where
  cwd_eq : fs'.cwd = fs.cwd
  node_eq : ∀ q, (∀ r, r ≠ [] → q ≠ p ++ r) → fs'.tree.node q = fs.tree.node q

namespace ChangesWithin

lemma trans (h : ChangesWithin fs p fs') (h' : ChangesWithin fs' p fs'') :
    ChangesWithin fs p fs'' where
  cwd_eq := h'.cwd_eq.trans h.cwd_eq
  node_eq q hq := (h'.node_eq q hq).trans (h.node_eq q hq)

lemma agreeOutside (h : ChangesWithin fs (p ++ [n]) fs') : AgreeOutside fs p fs' where
  cwd_eq := h.cwd_eq
  node_eq q hq := by
    refine h.node_eq q ?_
    rintro ⟨r, rfl⟩
    exact hq ([n] ++ r) (List.cons_ne_nil n r) (List.append_assoc p [n] r)

end ChangesWithin

lemma Sets.changesWithin {r : List Str} (h : fs.Sets (p ++ r) x fs') : ChangesWithin fs p fs' where
  cwd_eq := h.cwd_eq
  node_eq q hq := by
    refine h.node_ne ?_
    rintro rfl
    exact hq (List.prefix_append p r)

lemma Clears.changesWithin (h : fs.Clears p fs') : ChangesWithin fs p fs' where
  cwd_eq := h.cwd_eq
  node_eq q hq := by rw [h.node_eq, if_neg hq]

namespace AgreeOutside

lemma refl (fs : FileSystem) (p : List Str) : AgreeOutside fs p fs := ⟨rfl, fun _ _ => rfl⟩

lemma trans (h : AgreeOutside fs p fs') (h' : AgreeOutside fs' p fs'') :
    AgreeOutside fs p fs'' where
  cwd_eq := h'.cwd_eq.trans h.cwd_eq
  node_eq q hq := (h'.node_eq q hq).trans (h.node_eq q hq)

lemma node_self (h : AgreeOutside fs p fs') : fs'.tree.node p = fs.tree.node p :=
  h.node_eq p fun _ hr hp => hr (List.append_right_eq_self.mp hp.symm)

end AgreeOutside

/-- The name denotes `p`, whatever happens strictly below `p`. -/
def Denotes (fs : FileSystem) (name : Str) (p : List Str) : Prop :=
  ∀ fs', AgreeOutside fs p fs' → fs'.resolve name = some p

namespace Denotes

lemma resolve (h : fs.Denotes name p) : fs.resolve name = some p := h fs (.refl fs p)

lemma mono (h : fs.Denotes name p) (hfs : AgreeOutside fs p fs') : fs'.Denotes name p :=
  fun fs'' h' => h fs'' (hfs.trans h')

/-- The entries of the directory that a name denotes. -/
lemma resolve_entry (h : fs.Denotes name p) (hp : fs.tree.IsDir p) (hn : PlainName n) :
    fs.resolve (name ++ '/' :: n) = some (p ++ [n]) := by
  rw [resolve_below h.resolve hp hn.2.1, stepName_of_plain p hn]

/-- Nothing below an empty directory is on the way to it, whatever directories are made. -/
lemma of_grown (h : fs.resolve name = some p) (hp : fs.tree.children p = [])
    (hcwd : fs'.cwd = fs.cwd) (hdir : ∀ q, fs.tree.IsDir q → fs'.tree.IsDir q) :
    fs'.Denotes name p := by
  intro fs'' hfs''
  refine resolve_mono (hfs''.cwd_eq.trans hcwd) (fun q hq => ?_) h
  refine (hfs''.node_eq q ?_).trans (hdir q hq)
  rintro r hr rfl
  obtain ⟨m, r, rfl⟩ := List.exists_cons_of_ne_nil hr
  have hentry : p ++ [m] ∈ fs.tree.nodes := by
    rw [← List.singleton_append, ← List.append_assoc] at hq
    by_cases hr' : r = []
    · subst hr'
      rw [List.append_nil] at hq
      exact FileTree.mem_nodes_of_node hq
    · exact FileTree.mem_nodes_of_node (FileTree.isDir_of_append hr' hq)
  have hmem := FileTree.mem_children_iff.mpr hentry
  rw [hp] at hmem
  cases hmem

lemma of_children_eq_nil (h : fs.resolve name = some p) (hp : fs.tree.children p = []) :
    fs.Denotes name p :=
  of_grown h hp rfl fun _ hq => hq

end Denotes

/-! ### Directories that are kept -/

/-- Only at `p` and below it do the file systems differ, and all directories are kept. -/
structure GrowsBelow (fs : FileSystem) (p : List Str) (fs' : FileSystem) : Prop where
  within : ChangesWithin fs p fs'
  isDir : ∀ q, fs.tree.IsDir q → fs'.tree.IsDir q

/-- Neither directory is below the other one. -/
def Apart (p q : List Str) : Prop := ¬ p <+: q ∧ ¬ q <+: p

namespace GrowsBelow

lemma refl (fs : FileSystem) (p : List Str) : fs.GrowsBelow p fs :=
  ⟨⟨rfl, fun _ _ => rfl⟩, fun _ h => h⟩

lemma trans (h : fs.GrowsBelow p fs') (h' : fs'.GrowsBelow p fs'') : fs.GrowsBelow p fs'' :=
  ⟨h.within.trans h'.within, fun q hq => h'.isDir q (h.isDir q hq)⟩

lemma of_sets {r : List Str} (h : fs.Sets (p ++ r) x fs')
    (hdir : fs.tree.IsDir (p ++ r) → x = some .dir) : fs.GrowsBelow p fs' :=
  ⟨h.changesWithin, fun _ hq => h.isDir_mono hdir hq⟩

lemma resolve (h : fs.GrowsBelow p fs') (hname : fs.resolve name = some q) :
    fs'.resolve name = some q :=
  resolve_mono h.within.cwd_eq h.isDir hname

/-- Nothing changes elsewhere. -/
lemma node_apart (h : fs.GrowsBelow p fs') (hapart : Apart p q) (r : List Str) :
    fs'.tree.node (q ++ r) = fs.tree.node (q ++ r) := by
  apply h.within.node_eq
  intro hpre
  rcases List.prefix_or_prefix_of_prefix hpre (List.prefix_append q r) with hle | hle
  · exact hapart.1 hle
  · exact hapart.2 hle

/-- An empty directory elsewhere stays empty. -/
lemma children_apart (h : fs.GrowsBelow p fs') (hapart : Apart p q)
    (hempty : fs.tree.children q = []) : fs'.tree.children q = [] := by
  rw [List.eq_nil_iff_forall_not_mem] at hempty ⊢
  intro n hn
  obtain ⟨x, hx⟩ := FileTree.exists_node_of_mem_children hn
  rw [h.node_apart hapart] at hx
  exact hempty n (FileTree.mem_children_iff.mpr (FileTree.mem_nodes_of_node hx))

end GrowsBelow

end FileSystem
end Core
end SocialNetworkApp
