import SocialNetworkApp.Meme.Store

/-!
# What the calls do to the store

As long as the calls of the file system succeed and the counter of ids does not wrap around, every
call of a module changes the store as it should, on the disk and in memory.
-/

namespace SocialNetworkApp

open SocialNetworkApp.Core

/-- The disk and the module hold the store. -/
structure Stored {F : Type} (float : FloatArith F) (p : List Str) (root : Str) (w : MemeState F)
    (s : MemeStore) : Prop where
  disk : OnDisk float p root w.fs s
  memory : InMemory root w.memes s

namespace MemeStore

/-- A new meme. -/
def create (s : MemeStore) (id : MemeId) (content : Str) : MemeStore :=
  Function.update s id (some ⟨content, 0, []⟩)

/-- One more view. -/
def view (s : MemeStore) (id : MemeId) : MemeStore :=
  Function.update s id ((s id).map fun m => { m with views := m.views + 1 })

/-- One more comment. -/
def comment (s : MemeStore) (id : MemeId) (uuid : Str) (comment : Comment) : MemeStore :=
  Function.update s id
    ((s id).map fun m => { m with comments := m.comments ++ [(uuid, comment)] })

def remove (s : MemeStore) (id : MemeId) : MemeStore := Function.update s id none

lemma view_of_none {s : MemeStore} {id : MemeId} (h : s id = none) : s.view id = s := by
  rw [view, h, Option.map_none, ← h, Function.update_eq_self]

lemma comment_of_none {s : MemeStore} {id : MemeId} (h : s id = none) (uuid : Str)
    (comment : Comment) : s.comment id uuid comment = s := by
  rw [MemeStore.comment, h, Option.map_none, ← h, Function.update_eq_self]

end MemeStore

variable {F : Type} {float : FloatArith F} {tree : PropertyTree F} {p : List Str} {root : Str}
  {w : MemeState F} {s : MemeStore} {id : MemeId} {m : MemeRecord}

lemma CInt.succ_wrap (n : Int) : (CInt.wrap n).succ = CInt.wrap (n + 1) := by
  apply CInt.ext
  simp only [CInt.succ, CInt.wrap]
  omega

lemma MemeRecord.count_succ (m : MemeRecord) :
    ({ m with views := m.views + 1 } : MemeRecord).count =
      some (m.count.elim 1 CInt.succ) := by
  simp only [MemeRecord.count, Nat.add_one_ne_zero, if_false, Nat.cast_add, Nat.cast_one]
  split_ifs with hviews
  · rw [hviews]
    rfl
  · exact congrArg some (CInt.succ_wrap m.views).symm

namespace OnDisk

variable {fs : FileSystem} (h : OnDisk float p root fs s)

include h

/-- A new directory with its content. -/
lemma create (hnone : s id = none) (content : Str) :
    ∃ fs₁ fs₂, BoostFileSystem.createDirectory {} fs (root ++ '/' :: id.toStr) = (.success, fs₁) ∧
      BoostFileSystem.writeFile {} fs₁
        (root ++ '/' :: id.toStr ++ '/' :: MemeFile.content.name) content = (.success, fs₂) ∧
      OnDisk float p root fs₂ (s.create id content) := by
  have hholds := h.holds id
  rw [hnone] at hholds
  have hbelow : ∀ q, q ≠ [] → fs.tree.node (p ++ [id.toStr] ++ q) = none := by
    intro q hq
    by_contra hnode
    obtain ⟨x, hx⟩ := Option.ne_none_iff_exists'.mp hnode
    have hdir := FileTree.isDir_of_append hq hx
    rw [FileTree.IsDir, show fs.tree.node _ = none from hholds] at hdir
    cases hdir
  obtain ⟨fs₁, hcreate, hsets₁⟩ :=
    BoostFileSystem.createDirectory_success (h.resolve_meme id) h.dir hholds
  have hdir : fs₁.tree.IsDir (p ++ [id.toStr]) := hsets₁.node_self
  have hplain := MemeFile.plainName_name .content
  have hpath : fs₁.resolve (root ++ '/' :: id.toStr ++ '/' :: MemeFile.content.name) =
      some (p ++ [id.toStr] ++ [MemeFile.content.name]) := by
    rw [FileSystem.resolve_below (hsets₁.resolve_mono (fun _ => rfl) (h.resolve_meme id)) hdir
      hplain.2.1, stepName_of_plain _ hplain]
  have hfile : ¬ fs₁.tree.IsDir (p ++ [id.toStr] ++ [MemeFile.content.name]) := by
    rw [FileTree.IsDir, hsets₁.node_ne (by simp), hbelow _ (by simp)]
    intro hnone
    cases hnone
  obtain ⟨fs₂, hwrite, hsets₂⟩ := BoostFileSystem.writeFile_success content hpath hdir hfile
  refine ⟨fs₁, fs₂, hcreate, hwrite, h.update ?_ (MemeAt.new hbelow hsets₁ hsets₂)⟩
  rw [← List.append_nil (p ++ [id.toStr])] at hsets₁
  exact hsets₁.changesWithin.trans hsets₂.changesWithin

/-- A file of a meme is written where there is no directory. -/
lemma writeFile (hm : s id = some m) (f : MemeFile) (content : Str)
    (hf : ¬ fs.tree.IsDir (p ++ [id.toStr] ++ [f.name])) :
    ∃ fs', BoostFileSystem.writeFile {} fs (root ++ '/' :: id.toStr ++ '/' :: f.name) content =
        (.success, fs') ∧
      fs.Sets (p ++ [id.toStr] ++ [f.name]) (some (.file content)) fs' :=
  BoostFileSystem.writeFile_success content (h.resolve_file hm f) (h.memeAt hm).dir hf

/-- A file of a meme that is written again has the names it had. -/
lemma resolve_file_of_sets {fs' : FileSystem} (hm : s id = some m) {f : MemeFile} {content : Str}
    (hf : ¬ fs.tree.IsDir (p ++ [id.toStr] ++ [f.name]))
    (hsets : fs.Sets (p ++ [id.toStr] ++ [f.name]) (some (.file content)) fs') (g : MemeFile) :
    fs'.resolve (root ++ '/' :: id.toStr ++ '/' :: g.name) = some (p ++ [id.toStr] ++ [g.name]) :=
  hsets.resolve_mono (fun hdir => absurd hdir hf) (h.resolve_file hm g)

lemma not_isDir_views (hm : s id = some m) :
    ¬ fs.tree.IsDir (p ++ [id.toStr] ++ [MemeFile.views.name]) := by
  rw [FileTree.IsDir, (h.memeAt hm).views]
  cases m.count <;> simp

lemma not_isDir_ratings (hm : s id = some m) :
    ¬ fs.tree.IsDir (p ++ [id.toStr] ++ [MemeFile.ratings.name]) := by
  intro hdir
  obtain ⟨count, rating, hfile⟩ := (h.memeAt hm).ratings hdir
  cases hfile

/-- The new count of views is written to its file, if there is a directory for it. -/
lemma writeViews {count : CInt}
    (hcount : ∀ m, s id = some m → ({ m with views := m.views + 1 } : MemeRecord).count = some count) :
    OnDisk float p root (BoostFileSystem.writeFile {} fs
      (root ++ '/' :: id.toStr ++ '/' :: MemeFile.views.name) (toStr count)).2 (s.view id) := by
  cases hm : s id with
  | none =>
    rw [h.writeFile_of_none hm, MemeStore.view_of_none hm]
    exact h
  | some m =>
    obtain ⟨fs', hwrite, hsets⟩ := h.writeFile hm .views (toStr count) (h.not_isDir_views hm)
    rw [hwrite, MemeStore.view, hm]
    exact h.update hsets.changesWithin ((h.memeAt hm).setViews (hcount m hm) hsets)

/-- Ratings are written to their file, if there is a directory for it. -/
lemma writeRatings (id : MemeId) (count : CInt) (rating : F) :
    OnDisk float p root (BoostFileSystem.writeFile {} fs
      (root ++ '/' :: id.toStr ++ '/' :: MemeFile.ratings.name)
      (toStr count ++ ',' :: float.toStr rating)).2 s := by
  cases hm : s id with
  | none =>
    rw [h.writeFile_of_none hm]
    exact h
  | some m =>
    obtain ⟨fs', hwrite, hsets⟩ :=
      h.writeFile hm .ratings (toStr count ++ ',' :: float.toStr rating) (h.not_isDir_ratings hm)
    have hdisk := h.update (r := some m) hsets.changesWithin ((h.memeAt hm).setRatings hsets)
    rw [← hm, Function.update_eq_self] at hdisk
    rwa [hwrite]

/-- The directory of a meme is deleted, if it is there. -/
lemma delete (id : MemeId) :
    OnDisk float p root (BoostFileSystem.deleteDirectory {} fs (root ++ '/' :: id.toStr)).2
      (s.remove id) := by
  by_cases hdir : fs.tree.IsDir (p ++ [id.toStr])
  · obtain ⟨fs', hdelete, hclears⟩ :=
      BoostFileSystem.deleteDirectory_success (h.resolve_meme id) hdir
    rw [hdelete]
    refine h.update hclears.changesWithin ?_
    exact (hclears.node_eq _).trans (if_pos (List.prefix_refl _))
  · rw [BoostFileSystem.deleteDirectory_of_not_isDir (h.resolve_meme id) hdir]
    rw [h.isDir_meme_iff, Bool.not_eq_true, Option.isSome_eq_false_iff,
      Option.isNone_iff_eq_none] at hdir
    rw [MemeStore.remove, ← hdir, Function.update_eq_self]
    exact h

/-- The directory of the comments is there afterwards. -/
lemma createComments (hm : s id = some m) :
    ∃ fs', (if !BoostFileSystem.exist fs (root ++ '/' :: id.toStr ++ '/' :: MemeFile.comments.name)
        then (BoostFileSystem.createDirectory {} fs
          (root ++ '/' :: id.toStr ++ '/' :: MemeFile.comments.name)).2
        else fs) = fs' ∧
      OnDisk float p root fs' s ∧
      fs'.tree.IsDir (p ++ [id.toStr] ++ [MemeFile.comments.name]) := by
  have hat := h.memeAt hm
  rw [BoostFileSystem.exist_of_resolve (h.resolve_file hm .comments)]
  rcases hat.comments with ⟨hnone, -⟩ | hdir
  · obtain ⟨fs', hcreate, hsets⟩ :=
      BoostFileSystem.createDirectory_success (h.resolve_file hm .comments) hat.dir hnone
    refine ⟨fs', ?_, ?_, hsets.node_self⟩
    · rw [hnone, hcreate]
      rfl
    · have hdisk := h.update (r := some m) hsets.changesWithin (hat.setComments hsets)
      rwa [← hm, Function.update_eq_self] at hdisk
  · refine ⟨fs, ?_, h, hdir⟩
    rw [show fs.tree.node _ = some .dir from hdir]
    rfl

/-- A comment is written to a file of its own. -/
lemma writeComment (hm : s id = some m)
    (hdir : fs.tree.IsDir (p ++ [id.toStr] ++ [MemeFile.comments.name])) {uuid : Str}
    (hplain : PlainName uuid) (hnew : uuid ∉ m.comments.map Prod.fst) (comment : Comment) :
    OnDisk float p root (BoostFileSystem.writeFile {} fs
      (root ++ '/' :: id.toStr ++ '/' :: MemeFile.comments.name ++ '/' :: uuid) comment.content).2
      (s.comment id uuid comment) := by
  have hat := h.memeAt hm
  have hpath : fs.resolve (root ++ '/' :: id.toStr ++ '/' :: MemeFile.comments.name ++ '/' :: uuid) =
      some (p ++ [id.toStr] ++ [MemeFile.comments.name] ++ [uuid]) := by
    rw [FileSystem.resolve_below (h.resolve_file hm .comments) hdir hplain.2.1,
      stepName_of_plain _ hplain]
  have hfile : ¬ fs.tree.IsDir (p ++ [id.toStr] ++ [MemeFile.comments.name] ++ [uuid]) := by
    intro hdir'
    obtain ⟨c, -, hc⟩ := (hat.comment uuid .dir).mp hdir'
    cases hc
  obtain ⟨fs', hwrite, hsets⟩ :=
    BoostFileSystem.writeFile_success comment.content hpath hdir hfile
  have hchanges : fs.ChangesWithin (p ++ [id.toStr]) fs' := by
    rw [List.append_assoc (p ++ [id.toStr])] at hsets
    exact hsets.changesWithin
  rw [hwrite, MemeStore.comment, hm, Option.map_some]
  exact h.update (r := some _) hchanges (hat.setComment hdir hnew hsets)

/-- The comments of a meme stand in its directory, in some order. -/
lemma exists_comments (hm : s id = some m) (hmade : m.Commented tree) :
    ∃ comments : List (Str × Comment), comments.Perm m.comments ∧
      (if fs.tree.IsDir (p ++ [id.toStr] ++ [MemeFile.comments.name]) then
        fs.tree.children (p ++ [id.toStr] ++ [MemeFile.comments.name]) else []) =
          comments.map Prod.fst := by
  have hat := h.memeAt hm
  have hperm : (if fs.tree.IsDir (p ++ [id.toStr] ++ [MemeFile.comments.name]) then
      fs.tree.children (p ++ [id.toStr] ++ [MemeFile.comments.name]) else []).Perm
        (m.comments.map Prod.fst) := by
    split_ifs with hdir
    · refine (List.perm_ext_iff_of_nodup (FileTree.nodup_children _ _) hmade.nodup).mpr fun n => ?_
      rw [FileTree.mem_children_iff, ← AList.lookup_isSome, Option.isSome_iff_exists, List.mem_map]
      constructor
      · rintro ⟨x, hx⟩
        obtain ⟨c, hc, -⟩ := (hat.comment n x).mp hx
        exact ⟨(n, c), hc, rfl⟩
      · rintro ⟨⟨n, c⟩, hc, rfl⟩
        exact ⟨.file c.content, (hat.comment n _).mpr ⟨c, hc, rfl⟩⟩
    · rcases hat.comments with ⟨-, hnil⟩ | hdir'
      · rw [hnil]
        exact List.Perm.nil
      · exact absurd hdir' hdir
  obtain ⟨comments, hcomments, hsame⟩ :=
    (congrFun (congrFun (List.eq_map_comp_perm Prod.fst) _) m.comments).mpr hperm
  exact ⟨comments, hsame, hcomments⟩

lemma readComment (hm : s id = some m) (hmade : m.Commented tree) {n : Str} {c : Comment}
    (hc : (n, c) ∈ m.comments) :
    BoostFileSystem.readFile {} fs
      (root ++ '/' :: id.toStr ++ '/' :: MemeFile.comments.name ++ '/' :: n) =
        .ok (.success, c.content) := by
  have hfile := ((h.memeAt hm).comment n (.file c.content)).mpr ⟨c, hc, rfl⟩
  have hplain := hmade.plain hc
  refine BoostFileSystem.readFile_of_file ?_ hfile
  rw [FileSystem.resolve_below (h.resolve_file hm .comments) (FileTree.isDir_of_node hfile)
    hplain.2.1, stepName_of_plain _ hplain]

end OnDisk

/-! ### Calls on the disk

What a module does on the disk depends on its root, its last id and its counts only; these need not
be those of the memes that are there. -/

namespace OnDisk

variable (h : OnDisk float p root w.fs s) (hroot : w.memes.root = root)

include h hroot

/-- `create` makes the meme of the next id, if there is none. -/
lemma module_create (hnone : s (w.memes.idCount + 1) = none) (content : Str) :
    ∃ fs', MemeModule.create {} content w = (some (w.memes.idCount + 1),
        ⟨fs', { w.memes with idCount := w.memes.idCount + 1 }⟩) ∧
      OnDisk float p root fs' (s.create (w.memes.idCount + 1) content) := by
  subst hroot
  obtain ⟨fs₁, fs₂, hcreate, hwrite, hdisk⟩ := h.create hnone content
  refine ⟨fs₂, ?_, hdisk⟩
  simp only [MemeModule.create, MemeModule.memePath, hcreate]
  rw [show "/content".toList = '/' :: MemeFile.content.name from rfl, hwrite]

/-- `create` fails where the next id is taken. -/
lemma module_create_of_some (hm : s (w.memes.idCount + 1) = some m) (content : Str) :
    MemeModule.create {} content w =
      (none, ⟨w.fs, { w.memes with idCount := w.memes.idCount + 1 }⟩) := by
  subst hroot
  have hcreate : BoostFileSystem.createDirectory {} w.fs
      (w.memes.root ++ '/' :: (w.memes.idCount + 1).toStr) = (.conflict, w.fs) := by
    rw [BoostFileSystem.createDirectory, h.exist_meme, hm]
    rfl
  simp only [MemeModule.create, MemeModule.memePath, hcreate]

/-- `increment_view_count` writes the next count of the module. -/
lemma module_incrementViewCount (hm : s id = some m) :
    ∃ fs', MemeModule.incrementViewCount {} id w =
        ⟨fs', { w.memes with viewCounts :=
          w.memes.viewCounts.insert id ((w.memes.viewCounts.lookup id).elim 1 CInt.succ) }⟩ ∧
      w.fs.Sets (p ++ [id.toStr] ++ [MemeFile.views.name])
        (some (.file (toStr ((w.memes.viewCounts.lookup id).elim 1 CInt.succ)))) fs' := by
  subst hroot
  obtain ⟨fs', hwrite, hsets⟩ := h.writeFile hm .views
    (toStr ((w.memes.viewCounts.lookup id).elim 1 CInt.succ)) (h.not_isDir_views hm)
  refine ⟨fs', ?_, hsets⟩
  rw [MemeModule.incrementViewCount_eq, MemeModule.memePath,
    show "/views".toList = '/' :: MemeFile.views.name from rfl, hwrite]

/-- `get` finds nothing where there is no meme. -/
lemma module_get_of_none (hm : s id = none) :
    MemeModule.get float tree {} id w = .ok (none, w) := by
  subst hroot
  have hexist : BoostFileSystem.exist w.fs (w.memes.root ++ '/' :: id.toStr) = (s id).isSome :=
    h.exist_meme
  rw [hm, Option.isSome_none] at hexist
  simp only [MemeModule.get, MemeModule.memePath, hexist, Bool.not_false, Bool.true_or, if_true]

/-- `get` counts the view and returns the content. -/
lemma module_get (hm : s id = some m) (hvalid : m.Valid tree) :
    ∃ meme, MemeModule.get float tree {} id w =
        .ok (some meme, MemeModule.incrementViewCount {} id w) ∧
      meme.content = m.content := by
  obtain ⟨fs', hincrement, hsets⟩ := h.module_incrementViewCount hroot hm
  subst hroot
  have hexist : BoostFileSystem.exist w.fs (w.memes.root ++ '/' :: id.toStr) = (s id).isSome :=
    h.exist_meme
  have hdir : w.fs.isDirectory (w.memes.root ++ '/' :: id.toStr) = (s id).isSome :=
    h.isDirectory_meme
  rw [hm, Option.isSome_some] at hexist hdir
  have hcontent : MemeModule.getContent {} id (MemeModule.incrementViewCount {} id w) =
      .ok m.content := by
    have hfile : fs'.tree.node (p ++ [id.toStr] ++ [MemeFile.content.name]) =
        some (.file m.content) :=
      (hsets.node_ne (file_ne_file (by decide))).trans (h.memeAt hm).content
    have hpath := h.resolve_file_of_sets hm (h.not_isDir_views hm) hsets .content
    rw [hincrement, MemeModule.getContent, MemeModule.memePath,
      show "/content".toList = '/' :: MemeFile.content.name from rfl]
    rw [BoostFileSystem.readFile_of_file hpath hfile]
    rfl
  obtain ⟨c, cs, hne⟩ := List.exists_cons_of_ne_nil hvalid.content_ne_nil
  obtain ⟨meme, hmake⟩ := hvalid.parses
    ((MemeModule.incrementViewCount {} id w).memes.getViewCount id)
    ((MemeModule.incrementViewCount {} id w).memes.getRating float id)
  refine ⟨meme, ?_, Meme.content_of_make hmake⟩
  simp only [MemeModule.get, MemeModule.memePath, hexist, hdir, Bool.not_true, Bool.or_self,
    Bool.false_eq_true, if_false, hcontent]
  rw [hne] at hmake ⊢
  simp only [hmake]
  rfl

end OnDisk

namespace InMemory

variable {memes memes' : MemeModule F}

/-- A change of the tables at one meme only. -/
lemma update {r : Option MemeRecord} (h : InMemory root memes s) (hroot : memes'.root = memes.root)
    (hcount : memes.idCount ≤ memes'.idCount) (hid : r.isSome = true → id ≤ memes'.idCount)
    (hself : memes'.viewCounts.lookup id = r.bind MemeRecord.count)
    (hother : ∀ id', id' ≠ id → memes'.viewCounts.lookup id' = memes.viewCounts.lookup id') :
    InMemory root memes' (Function.update s id r) where
  root_eq := hroot.trans h.root_eq
  counted := by
    intro id' m hm
    by_cases hid' : id' = id
    · subst hid'
      rw [Function.update_self] at hm
      exact hid (by rw [hm]; rfl)
    · rw [Function.update_of_ne hid'] at hm
      exact UInt32.le_trans (h.counted hm) hcount
  viewCounts := by
    intro id'
    by_cases hid' : id' = id
    · subst hid'
      rw [Function.update_self, hself]
    · rw [Function.update_of_ne hid', hother id' hid', h.viewCounts]

end InMemory

namespace Stored

variable (h : Stored float p root w s)

include h

lemma memePath_eq (id : MemeId) : w.memes.memePath id = root ++ '/' :: id.toStr := by
  rw [MemeModule.memePath, h.memory.root_eq]

/-- The next id is new. -/
lemma next_none (hcount : w.memes.idCount.toNat < 2 ^ 31) : s (w.memes.idCount + 1) = none := by
  rw [Option.eq_none_iff_forall_ne_some]
  intro m hm
  have hle := UInt32.le_iff_toNat_le.mp (h.memory.counted hm)
  rw [UInt32.toNat_add] at hle
  simp only [UInt32.toNat_one] at hle
  omega

/-- `create` makes the meme of the next id. -/
lemma create (content : Str) (hcount : w.memes.idCount.toNat < 2 ^ 31) :
    ∃ w', MemeModule.create {} content w = (some (w.memes.idCount + 1), w') ∧
      w'.memes.idCount = w.memes.idCount + 1 ∧
      Stored float p root w' (s.create (w.memes.idCount + 1) content) := by
  have hnone := h.next_none hcount
  have hlt : w.memes.idCount ≤ w.memes.idCount + 1 := by
    rw [UInt32.le_iff_toNat_le, UInt32.toNat_add, UInt32.toNat_one]
    omega
  obtain ⟨fs', hcreate, hdisk⟩ := h.disk.module_create h.memory.root_eq hnone content
  refine ⟨_, hcreate, rfl, hdisk, ?_⟩
  refine h.memory.update rfl hlt (fun _ => UInt32.le_refl _) ?_ fun _ _ => rfl
  rw [h.memory.viewCounts, hnone]
  rfl

/-- `increment_view_count` counts a view of the meme, if there is one. -/
lemma incrementViewCount (hm : s id = some m) :
    Stored float p root (MemeModule.incrementViewCount {} id w) (s.view id) := by
  have hcount := h.memory.viewCounts id
  rw [hm, Option.bind_some] at hcount
  rw [MemeModule.incrementViewCount_eq, hcount]
  constructor
  · rw [h.memePath_eq, show "/views".toList = '/' :: MemeFile.views.name from rfl]
    refine h.disk.writeViews fun m' hm' => ?_
    obtain rfl := Option.some.inj (hm.symm.trans hm')
    exact m.count_succ
  · rw [MemeStore.view, hm, Option.map_some]
    refine h.memory.update rfl (UInt32.le_refl _) (fun _ => h.memory.counted hm) ?_ fun id' hid => ?_
    · rw [Option.bind_some, m.count_succ]
      exact AList.lookup_insert _
    · exact AList.lookup_insert_ne hid

/-- `add_rating` changes nothing of the store. -/
lemma addRating (id : MemeId) (rating : CInt) :
    Stored float p root (MemeModule.addRating float {} id rating w) s := by
  rw [MemeModule.addRating_eq, h.memePath_eq,
    show "/ratings".toList = '/' :: MemeFile.ratings.name from rfl]
  exact ⟨h.disk.writeRatings id _ _, ⟨h.memory.root_eq, h.memory.counted, h.memory.viewCounts⟩⟩

/-- `remove` removes the meme, if there is one. -/
lemma remove (id : MemeId) :
    Stored float p root (MemeModule.remove {} id w) (s.remove id) := by
  constructor
  · rw [MemeModule.remove, h.memePath_eq]
    exact h.disk.delete id
  · refine h.memory.update rfl (UInt32.le_refl _) ?_ ?_ fun id' hid => ?_
    · exact fun hnone => absurd hnone Bool.false_ne_true
    · exact AList.lookup_erase _ _
    · exact AList.lookup_erase_ne hid

/-- `add_comment` adds a comment to the meme, if there is one. -/
lemma addComment {uuid : Str} (hplain : PlainName uuid)
    (hnew : ∀ m, s id = some m → uuid ∉ m.comments.map Prod.fst) (comment : Comment) :
    Stored float p root (MemeModule.addComment {} uuid id comment w)
      (s.comment id uuid comment) := by
  cases hm : s id with
  | none =>
    rw [MemeStore.comment_of_none hm]
    simp only [MemeModule.addComment, h.memePath_eq, h.disk.exist_meme, hm, Option.isSome_none,
      Bool.not_false, if_true]
    exact h
  | some m =>
    obtain ⟨fs', hfs', hdisk, hdir⟩ := h.disk.createComments hm
    have hadd : MemeModule.addComment {} uuid id comment w =
        { w with fs := (BoostFileSystem.writeFile {} fs' (root ++ '/' :: id.toStr ++
          '/' :: MemeFile.comments.name ++ '/' :: uuid) comment.content).2 } := by
      simp only [MemeModule.addComment, h.memePath_eq, h.disk.exist_meme, hm, Option.isSome_some,
        Bool.not_true, Bool.false_eq_true, if_false]
      rw [← hfs']
      rfl
    rw [hadd]
    refine ⟨hdisk.writeComment hm hdir hplain (hnew m hm) comment, ?_⟩
    rw [MemeStore.comment, hm, Option.map_some]
    refine h.memory.update rfl (UInt32.le_refl _) (fun _ => h.memory.counted hm) ?_ fun _ _ => rfl
    rw [h.memory.viewCounts, hm]
    rfl

/-- `get` finds nothing where there is no meme. -/
lemma get_of_none (hm : s id = none) : MemeModule.get float tree {} id w = .ok (none, w) :=
  h.disk.module_get_of_none h.memory.root_eq hm

/-- `get` counts the view and returns the content. -/
lemma get (hm : s id = some m) (hvalid : m.Valid tree) :
    ∃ meme, MemeModule.get float tree {} id w =
        .ok (some meme, MemeModule.incrementViewCount {} id w) ∧
      meme.content = m.content :=
  h.disk.module_get h.memory.root_eq hm hvalid

/-- `get_comments` finds nothing where there is no meme. -/
lemma getComments_of_none (hm : s id = none) : MemeModule.getComments tree {} id w = .ok [] := by
  simp only [MemeModule.getComments, h.memePath_eq, h.disk.exist_meme, hm, Option.isSome_none,
    Bool.not_false, if_true]

/-- The loop of `get_comments`. -/
lemma getComments_loop (hm : s id = some m) (hmade : m.Commented tree)
    {named : List (Str × Comment)} (hnamed : ∀ e ∈ named, e ∈ m.comments) (found : List Comment) :
    (named.map Prod.fst).foldlM (fun comments name =>
      match BoostFileSystem.readFile {} w.fs
        (root ++ '/' :: id.toStr ++ '/' :: MemeFile.comments.name ++ '/' :: name) with
      | .error e => .error e
      | .ok (.success, content) =>
        (Comment.make tree content).map fun comment => comments ++ [comment]
      | .ok _ => .ok comments) found =
    (.ok (found ++ named.map Prod.snd) : Except Exception (List Comment)) := by
  induction named generalizing found with
  | nil => simp only [List.map_nil, List.append_nil]; rfl
  | cons e named ih =>
    obtain ⟨n, c⟩ := e
    have hc := hnamed _ List.mem_cons_self
    have hrest := ih (fun e he => hnamed e (List.mem_cons_of_mem _ he)) (found ++ [c])
    rw [List.append_assoc found] at hrest
    simp only [List.map_cons, List.foldlM_cons, h.disk.readComment hm hmade hc, hmade.made hc]
    exact hrest

/-- `get_comments` returns the comments of the meme. -/
lemma getComments (hm : s id = some m) (hmade : m.Commented tree) :
    ∃ comments, MemeModule.getComments tree {} id w = .ok comments ∧
      comments.Perm (m.comments.map Prod.snd) := by
  obtain ⟨named, hsame, hnames⟩ := h.disk.exists_comments hm hmade
  have hpath := h.disk.resolve_file hm .comments
  refine ⟨named.map Prod.snd, ?_, hsame.map _⟩
  simp only [MemeModule.getComments, h.memePath_eq, h.disk.exist_meme, hm, Option.isSome_some,
    Bool.not_true, Bool.false_eq_true, if_false]
  rw [show "/comments".toList = '/' :: MemeFile.comments.name from rfl,
    BoostFileSystem.exist_of_resolve hpath, FileSystem.isDirectory_of_resolve hpath]
  by_cases hdir : w.fs.tree.IsDir (p ++ [id.toStr] ++ [MemeFile.comments.name])
  · rw [if_pos hdir] at hnames
    rw [show w.fs.tree.node _ = some .dir from hdir, decide_eq_true hdir, FileSystem.entries, hpath]
    simp only [hnames]
    exact h.getComments_loop hm hmade (fun e he => hsame.subset he) []
  · rw [if_neg hdir] at hnames
    rw [decide_eq_false hdir, List.map_eq_nil_iff.mp hnames.symm, Bool.not_false, Bool.or_true,
      if_pos rfl]
    rfl

end Stored

end SocialNetworkApp
