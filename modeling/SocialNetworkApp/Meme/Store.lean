import SocialNetworkApp.Meme.Module

/-!
# What the memes are

A store says which memes there are, how often each was asked for, and which comments it was given.
The disk holds it in directories below the root, a module has the counts of views in memory.
-/

namespace SocialNetworkApp

open SocialNetworkApp.Core

/-- A meme, with the number of calls that asked for it and the comments it was given, each with the
name of its file. -/
structure MemeRecord where
  content : Str
  views : Nat
  comments : List (Str × Comment)

/-- The memes by id. -/
abbrev MemeStore := MemeId → Option MemeRecord

/-- What stands in the directory of a meme. -/
inductive MemeFile where
  | content
  | views
  | ratings
  | comments
deriving DecidableEq

namespace MemeFile

def name : MemeFile → Str
  | content => "content".toList
  | views => "views".toList
  | ratings => "ratings".toList
  | comments => "comments".toList

lemma plainName_name (f : MemeFile) : PlainName f.name := by
  cases f <;> decide

lemma name_injective : Function.Injective name := by
  intro f g h
  cases f <;> cases g <;> first | rfl | exact absurd h (by decide)

end MemeFile

namespace MemeRecord

/-- The entry of the table of views. -/
def count (m : MemeRecord) : Option CInt :=
  if m.views = 0 then none else some (CInt.wrap m.views)

/-- The constructors of `Meme` and `Comment` have accepted what there is. -/
structure Valid {F : Type} (tree : PropertyTree F) (m : MemeRecord) : Prop where
  content_ne_nil : m.content ≠ []
  parses : ∀ count rating, ∃ meme, Meme.make tree m.content count rating = .ok meme
  plain : ∀ {n : Str} {c : Comment}, (n, c) ∈ m.comments → PlainName n
  made : ∀ {n : Str} {c : Comment}, (n, c) ∈ m.comments → Comment.make tree c.content = .ok c
  nodup : (m.comments.map Prod.fst).Nodup

/-- The part of it that is about the comments. -/
structure Commented {F : Type} (tree : PropertyTree F) (m : MemeRecord) : Prop where
  plain : ∀ {n : Str} {c : Comment}, (n, c) ∈ m.comments → PlainName n
  made : ∀ {n : Str} {c : Comment}, (n, c) ∈ m.comments → Comment.make tree c.content = .ok c
  nodup : (m.comments.map Prod.fst).Nodup

lemma Valid.commented {F : Type} {tree : PropertyTree F} {m : MemeRecord} (h : m.Valid tree) :
    m.Commented tree := ⟨h.plain, h.made, h.nodup⟩

end MemeRecord

section

variable {F : Type} (float : FloatArith F)

/-- The directory `d` holds the meme. -/
structure MemeAt (t : FileTree Str Str) (d : List Str) (m : MemeRecord) : Prop where
  dir : t.IsDir d
  content : t.node (d ++ [MemeFile.content.name]) = some (.file m.content)
  views : t.node (d ++ [MemeFile.views.name]) = m.count.map fun count => .file (toStr count)
  ratings : ∀ {x : Node Str}, t.node (d ++ [MemeFile.ratings.name]) = some x →
    ∃ count rating, x = .file (toStr count ++ ',' :: float.toStr rating)
  comments : t.node (d ++ [MemeFile.comments.name]) = none ∧ m.comments = [] ∨
    t.IsDir (d ++ [MemeFile.comments.name])
  comment : ∀ n x, t.node (d ++ [MemeFile.comments.name] ++ [n]) = some x ↔
    ∃ c, (n, c) ∈ m.comments ∧ x = .file c.content

/-- The directory `d` holds the meme, or there is none. -/
def HoldsAt (t : FileTree Str Str) (d : List Str) : Option MemeRecord → Prop
  | none => t.node d = none
  | some m => MemeAt float t d m

/-- The disk holds the store in the directory `p`, which the root denotes. -/
structure OnDisk (p : List Str) (root : Str) (fs : FileSystem) (s : MemeStore) : Prop where
  denotes : fs.Denotes root p
  dir : fs.tree.IsDir p
  named : ∀ {n : Str} {x : Node Str}, fs.tree.node (p ++ [n]) = some x → ∃ id : MemeId, n = id.toStr
  holds : ∀ id : MemeId, HoldsAt float fs.tree (p ++ [id.toStr]) (s id)

/-- The module counts the views of the store, and its last id is not exceeded. -/
structure InMemory (root : Str) (memes : MemeModule F) (s : MemeStore) : Prop where
  root_eq : memes.root = root
  counted : ∀ {id : MemeId} {m : MemeRecord}, s id = some m → id ≤ memes.idCount
  viewCounts : ∀ id, memes.viewCounts.lookup id = (s id).bind MemeRecord.count

end

variable {F : Type} {float : FloatArith F} {t t' : FileTree Str Str} {d p : List Str} {root : Str}
  {fs fs' : FileSystem} {s : MemeStore} {id : MemeId} {m : MemeRecord} {r : Option MemeRecord}

/-! ### Directories of memes -/

/-- Only what stands in the directory matters. -/
lemma HoldsAt.congr (h : HoldsAt float t d r) (hnode : ∀ q, t'.node (d ++ q) = t.node (d ++ q)) :
    HoldsAt float t' d r := by
  have hself : t'.node d = t.node d := by simpa using hnode []
  cases r with
  | none => exact hself.trans h
  | some m =>
    refine ⟨hself.trans h.dir, (hnode _).trans h.content, (hnode _).trans h.views, ?_, ?_, ?_⟩
    · intro x hx
      rw [hnode] at hx
      exact h.ratings hx
    · rw [hnode, FileTree.IsDir, hnode]
      exact h.comments
    · intro n x
      rw [List.append_assoc, hnode, ← List.append_assoc]
      exact h.comment n x

lemma toStr_eq_of_below {id' : MemeId} {q : List Str}
    (h : p ++ [id.toStr] <+: p ++ [id'.toStr] ++ q) : id = id' := by
  rw [List.append_assoc, List.prefix_append_right_inj] at h
  exact MemeId.toStr_injective (List.cons_prefix_cons.mp h).1

/-- A change within the directory of one meme changes the store at this meme only. -/
lemma OnDisk.update (h : OnDisk float p root fs s)
    (hfs : fs.ChangesWithin (p ++ [id.toStr]) fs')
    (hr : HoldsAt float fs'.tree (p ++ [id.toStr]) r) :
    OnDisk float p root fs' (Function.update s id r) where
  denotes := h.denotes.mono hfs.agreeOutside
  dir := hfs.agreeOutside.node_self.trans h.dir
  named := by
    intro n x hx
    by_cases hn : n = id.toStr
    · exact ⟨id, hn⟩
    · rw [hfs.node_eq] at hx
      · exact h.named hx
      · rw [List.prefix_append_right_inj]
        exact fun hpre => hn (List.cons_prefix_cons.mp hpre).1.symm
  holds := by
    intro id'
    by_cases hid : id' = id
    · subst hid
      rwa [Function.update_self]
    · rw [Function.update_of_ne hid]
      refine (h.holds id').congr fun q => hfs.node_eq _ fun hpre => hid ?_
      exact (toStr_eq_of_below hpre).symm

/-- An empty directory holds no memes. -/
lemma OnDisk.of_empty (hname : fs.resolve root = some p) (hp : fs.tree.IsDir p)
    (hempty : fs.tree.children p = []) : OnDisk float p root fs fun _ => none := by
  have hnone : ∀ n, fs.tree.node (p ++ [n]) = none := by
    intro n
    rw [FileTree.node_eq_none_iff, ← FileTree.mem_children_iff, hempty]
    exact List.not_mem_nil
  refine ⟨.of_children_eq_nil hname hempty, hp, fun {n x} hx => ?_, fun id => hnone _⟩
  rw [hnone] at hx
  cases hx

namespace OnDisk

variable (h : OnDisk float p root fs s)

include h

lemma memeAt (hm : s id = some m) : MemeAt float fs.tree (p ++ [id.toStr]) m := by
  have hholds := h.holds id
  rwa [hm] at hholds

lemma resolve_meme (id : MemeId) :
    fs.resolve (root ++ '/' :: id.toStr) = some (p ++ [id.toStr]) :=
  h.denotes.resolve_entry h.dir id.plainName_toStr

lemma isDir_meme_iff : fs.tree.IsDir (p ++ [id.toStr]) ↔ (s id).isSome = true := by
  have hholds := h.holds id
  cases hid : s id with
  | none =>
    rw [hid] at hholds
    refine iff_of_false (fun hdir => ?_) Bool.false_ne_true
    rw [FileTree.IsDir, show fs.tree.node _ = none from hholds] at hdir
    cases hdir
  | some m =>
    rw [hid] at hholds
    exact iff_of_true hholds.dir rfl

lemma exist_meme : BoostFileSystem.exist fs (root ++ '/' :: id.toStr) = (s id).isSome := by
  have hholds := h.holds id
  rw [BoostFileSystem.exist_of_resolve (h.resolve_meme id)]
  cases hid : s id with
  | none =>
    rw [hid] at hholds
    rw [show fs.tree.node _ = none from hholds]
    rfl
  | some m =>
    rw [hid] at hholds
    rw [show fs.tree.node _ = some .dir from hholds.dir]
    rfl

lemma isDirectory_meme : fs.isDirectory (root ++ '/' :: id.toStr) = (s id).isSome := by
  rw [FileSystem.isDirectory_of_resolve (h.resolve_meme id)]
  simp only [h.isDir_meme_iff, Bool.decide_eq_true]

lemma resolve_file (hm : s id = some m) (f : MemeFile) :
    fs.resolve (root ++ '/' :: id.toStr ++ '/' :: f.name) = some (p ++ [id.toStr] ++ [f.name]) := by
  rw [FileSystem.resolve_below (h.resolve_meme id) (h.memeAt hm).dir f.plainName_name.2.1,
    stepName_of_plain _ f.plainName_name]

/-- The file of views, if there is one, holds the count. -/
lemma openRead_views (hm : s id = some m) :
    fs.openRead (root ++ '/' :: id.toStr ++ '/' :: MemeFile.views.name) =
      m.count.elim .closed fun count => .contents (toStr count) := by
  have hviews := (h.memeAt hm).views
  have hpath := h.resolve_file hm .views
  cases hcount : m.count with
  | none =>
    rw [hcount] at hviews
    apply FileSystem.openRead_of_not_pathExists
    rw [FileSystem.pathExists_of_resolve hpath, hviews]
    rfl
  | some count =>
    rw [hcount] at hviews
    exact FileSystem.openRead_of_node hpath hviews

/-- In a directory that is not there, nothing is written. -/
lemma writeFile_of_none (hm : s id = none) (f : MemeFile) (content : Str) :
    BoostFileSystem.writeFile {} fs (root ++ '/' :: id.toStr ++ '/' :: f.name) content =
      (.not_found, fs) := by
  have hresolve : fs.resolve (root ++ '/' :: id.toStr ++ '/' :: f.name) = none := by
    rw [FileSystem.resolve_append (List.append_ne_nil_of_right_ne_nil _ (List.cons_ne_nil _ _))
      f.plainName_name.2.1, h.resolve_meme, Option.bind_some, if_neg]
    rw [h.isDir_meme_iff, hm]
    exact Bool.false_ne_true
  rw [BoostFileSystem.writeFile, FileSystem.writeFile, hresolve]
  rfl

end OnDisk

/-! ### Files of memes -/

lemma file_ne_file {f g : MemeFile} (hfg : g ≠ f) : d ++ [g.name] ≠ d ++ [f.name] := by
  intro h
  rw [List.append_cancel_left_eq] at h
  exact hfg (MemeFile.name_injective (List.cons.inj h).1)

lemma entry_ne_file {f : MemeFile} {n n' : Str} : d ++ [n] ++ [n'] ≠ d ++ [f.name] := by
  intro h
  rw [List.append_assoc, List.append_cancel_left_eq] at h
  exact List.cons_ne_nil _ _ (List.cons.inj h).2

namespace MemeAt

/-- Writing the count of views. -/
lemma setViews (h : MemeAt float fs.tree d m) {views : Nat} {count : CInt}
    (hcount : ({ m with views } : MemeRecord).count = some count)
    (hsets : fs.Sets (d ++ [MemeFile.views.name]) (some (.file (toStr count))) fs') :
    MemeAt float fs'.tree d { m with views } where
  dir := (hsets.node_ne (by simp)).trans h.dir
  content := (hsets.node_ne (file_ne_file (by decide))).trans h.content
  views := by rw [hsets.node_self, hcount, Option.map_some]
  ratings := by
    rw [hsets.node_ne (file_ne_file (by decide))]
    exact h.ratings
  comments := by
    rw [FileTree.IsDir, hsets.node_ne (file_ne_file (by decide))]
    exact h.comments
  comment n x := by
    rw [hsets.node_ne entry_ne_file]
    exact h.comment n x

/-- Writing the ratings. -/
lemma setRatings (h : MemeAt float fs.tree d m) {count : CInt} {rating : F}
    (hsets : fs.Sets (d ++ [MemeFile.ratings.name])
      (some (.file (toStr count ++ ',' :: float.toStr rating))) fs') :
    MemeAt float fs'.tree d m where
  dir := (hsets.node_ne (by simp)).trans h.dir
  content := (hsets.node_ne (file_ne_file (by decide))).trans h.content
  views := (hsets.node_ne (file_ne_file (by decide))).trans h.views
  ratings := by
    intro x hx
    rw [hsets.node_self, Option.some.injEq] at hx
    exact ⟨count, rating, hx.symm⟩
  comments := by
    rw [FileTree.IsDir, hsets.node_ne (file_ne_file (by decide))]
    exact h.comments
  comment n x := by
    rw [hsets.node_ne entry_ne_file]
    exact h.comment n x

/-- Creating the directory of the comments. -/
lemma setComments (h : MemeAt float fs.tree d m)
    (hsets : fs.Sets (d ++ [MemeFile.comments.name]) (some .dir) fs') :
    MemeAt float fs'.tree d m where
  dir := (hsets.node_ne (by simp)).trans h.dir
  content := (hsets.node_ne (file_ne_file (by decide))).trans h.content
  views := (hsets.node_ne (file_ne_file (by decide))).trans h.views
  ratings := by
    rw [hsets.node_ne (file_ne_file (by decide))]
    exact h.ratings
  comments := Or.inr hsets.node_self
  comment n x := by
    rw [hsets.node_ne entry_ne_file]
    exact h.comment n x

/-- Adding a comment in a file that was not there. -/
lemma setComment (h : MemeAt float fs.tree d m) {uuid : Str} {comment : Comment}
    (hdir : fs.tree.IsDir (d ++ [MemeFile.comments.name])) (huuid : uuid ∉ m.comments.map Prod.fst)
    (hsets : fs.Sets (d ++ [MemeFile.comments.name] ++ [uuid])
      (some (.file comment.content)) fs') :
    MemeAt float fs'.tree d { m with comments := m.comments ++ [(uuid, comment)] } where
  dir := (hsets.node_ne (by simp)).trans h.dir
  content := (hsets.node_ne entry_ne_file.symm).trans h.content
  views := (hsets.node_ne entry_ne_file.symm).trans h.views
  ratings := by
    rw [hsets.node_ne entry_ne_file.symm]
    exact h.ratings
  comments := Or.inr ((hsets.node_ne entry_ne_file.symm).trans hdir)
  comment n x := by
    by_cases hn : n = uuid
    · subst hn
      rw [hsets.node_self, Option.some.injEq]
      constructor
      · rintro rfl
        exact ⟨comment, by simp, rfl⟩
      · rintro ⟨c, hc, rfl⟩
        rcases List.mem_append.mp hc with hc | hc
        · exact absurd (List.mem_map_of_mem hc) huuid
        · simp only [List.mem_singleton, Prod.mk.injEq, true_and] at hc
          rw [hc]
    · rw [hsets.node_ne (by simpa using hn), h.comment n x]
      simp [hn]

end MemeAt

/-- A new directory with its content. -/
lemma MemeAt.new {fs'' : FileSystem} {content : Str} (hnone : ∀ q, q ≠ [] → fs.tree.node (d ++ q) = none)
    (hdir : fs.Sets d (some .dir) fs')
    (hfile : fs'.Sets (d ++ [MemeFile.content.name]) (some (.file content)) fs'') :
    MemeAt float fs''.tree d ⟨content, 0, []⟩ := by
  have hnode : ∀ q, q ≠ [] → q ≠ [MemeFile.content.name] → fs''.tree.node (d ++ q) = none := by
    intro q hq hq'
    rw [hfile.node_ne (by simpa using hq'), hdir.node_ne (by simpa using hq), hnone q hq]
  refine ⟨?_, hfile.node_self, ?_, ?_, Or.inl ⟨?_, rfl⟩, ?_⟩
  · exact (hfile.node_ne (by simp)).trans hdir.node_self
  · exact hnode _ (by simp) (by decide)
  · intro x hx
    rw [hnode _ (by simp) (by decide)] at hx
    cases hx
  · exact hnode _ (by simp) (by decide)
  · intro n x
    rw [List.append_assoc, hnode _ (by simp) (by simp)]
    simp

end SocialNetworkApp
