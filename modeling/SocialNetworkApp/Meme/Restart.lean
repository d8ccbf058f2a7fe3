import Mathlib.Data.List.TakeWhile
import SocialNetworkApp.Meme.Loading
import SocialNetworkApp.Meme.Operations

/-!
# Loading the memes

The constructor of a module reads back what another module has written: the ids from the names of
the directories, the counts of views and the ratings from their files.
-/

namespace SocialNetworkApp

open SocialNetworkApp.Core

namespace Core

/-- Where `stoi` reads a number, a stream reads the same. -/
lemma extractInt_of_stoi {s : Str} {m : CInt} (h : stoi s = .ok m) (n : CInt) :
    extractInt n s = m := by
  rw [extractInt]
  rw [stoi] at h
  generalize s.dropWhile isSpace = text at h ⊢
  by_cases htext : text = []
  · subst htext
    cases h
  · simp only [if_neg htext]
    generalize readSign text = sign at h ⊢
    by_cases hdigits : sign.2.takeWhile Char.isDigit = []
    · simp only [if_pos hdigits] at h
      cases h
    · simp only [if_neg hdigits] at h
      generalize CInt.ofInt? _ = value at h ⊢
      cases value with
      | none => cases h
      | some k =>
        cases h
        rfl

end Core

variable {F : Type} {float : FloatArith F} {tree : PropertyTree F} {p : List Str} {root : Str}
  {fs : FileSystem} {s : MemeStore} {id : MemeId} {m : MemeRecord}

/-- A printed `float` is read back, and stands on one line. -/
structure FloatArith.Reads (float : FloatArith F) : Prop where
  stof : ∀ x, ∃ y, float.stof (float.toStr x) = .ok y
  line : ∀ x, '\n' ∉ float.toStr x

/-- Whole numbers in the place of `float`s, printed with six decimals and read up to the point. -/
def wholeFloat : FloatArith CInt where
  ofInt n := n
  add m n := CInt.wrap (m.val + n.val)
  mul m n := CInt.wrap (m.val * n.val)
  div m n := CInt.wrap (m.val.tdiv n.val)
  gt m n := decide (n < m)
  stof := stoi
  toStr n := toStr n ++ ".000000".toList

lemma wholeFloat_reads : wholeFloat.Reads where
  stof n := ⟨n, stoi_toStr_append n (noDigitHead_cons _ _ |>.mpr (by decide))⟩
  line n hline := by
    rcases List.mem_append.mp hline with hline | hline
    · exact not_mem_toStr (by decide) (by decide) hline
    · exact absurd hline (by decide)

namespace MemeModule

/-- Ratings are read from what was written. -/
lemma readRatings_of_stof (count : CInt) {rating rating' : F} (hline : '\n' ∉ float.toStr rating)
    (hread : float.stof (float.toStr rating) = .ok rating') :
    readRatings float (toStr count ++ ',' :: float.toStr rating) = .ok (count, rating') := by
  have hcomma : ∀ c ∈ toStr count, decide (c ≠ ',') = true := by
    intro c hc
    rw [decide_eq_true_eq]
    rintro rfl
    exact not_mem_toStr (by decide) (by decide) hc
  have hrest : ∀ c ∈ float.toStr rating, decide (c ≠ '\n') = true := by
    intro c hc
    rw [decide_eq_true_eq]
    rintro rfl
    exact hline hc
  rw [readRatings, List.takeWhile_append_of_pos hcomma, List.dropWhile_append_of_pos hcomma,
    List.takeWhile_cons_of_neg (by decide), List.dropWhile_cons_of_neg (by decide),
    List.append_nil, stoi_toStr, List.drop_one, List.tail_cons, List.takeWhile_eq_self_iff.mpr hrest,
    hread]

end MemeModule

namespace OnDisk

variable (h : OnDisk float p root fs s)

include h

/-- The file of ratings, if there is one, holds a number and a rating. -/
lemma openRead_ratings (hm : s id = some m) :
    fs.openRead (root ++ '/' :: id.toStr ++ '/' :: MemeFile.ratings.name) = .closed ∨
      ∃ count rating, fs.openRead (root ++ '/' :: id.toStr ++ '/' :: MemeFile.ratings.name) =
        .contents (toStr count ++ ',' :: float.toStr rating) := by
  have hpath := h.resolve_file hm .ratings
  cases hnode : fs.tree.node (p ++ [id.toStr] ++ [MemeFile.ratings.name]) with
  | none =>
    apply Or.inl
    apply FileSystem.openRead_of_not_pathExists
    rw [FileSystem.pathExists_of_resolve hpath, hnode]
    rfl
  | some x =>
    obtain ⟨count, rating, rfl⟩ := (h.memeAt hm).ratings hnode
    exact Or.inr ⟨count, rating, FileSystem.openRead_of_node hpath hnode⟩

/-- The constructor reads the directory of a meme. -/
lemma loadable (hfloat : float.Reads) (hm : s id = some m) :
    MemeModule.Loadable float {} fs (root ++ '/' :: id.toStr) := by
  have hviews := h.openRead_views hm
  refine ⟨?_, ?_, ?_⟩
  · change fs.openRead (root ++ '/' :: id.toStr ++ '/' :: MemeFile.views.name) ≠ .directory
    rw [hviews]
    cases m.count <;> exact OpenRead.noConfusion
  · change fs.openRead (root ++ '/' :: id.toStr ++ '/' :: MemeFile.ratings.name) ≠ .directory
    rcases h.openRead_ratings hm with hclosed | ⟨count, rating, hread⟩
    · rw [hclosed]
      exact OpenRead.noConfusion
    · rw [hread]
      exact OpenRead.noConfusion
  · intro data hdata
    change fs.openRead (root ++ '/' :: id.toStr ++ '/' :: MemeFile.ratings.name) = _ at hdata
    rcases h.openRead_ratings hm with hclosed | ⟨count, rating, hread⟩
    · rw [hclosed] at hdata
      cases hdata
    · rw [hread] at hdata
      cases hdata
      obtain ⟨rating', hstof⟩ := hfloat.stof rating
      exact ⟨_, MemeModule.readRatings_of_stof count (hfloat.line rating) hstof⟩

lemma recordedViews (uninit : MemeModule.Uninit) (hm : s id = some m) :
    MemeModule.recordedViews uninit fs root id = m.count := by
  rw [MemeModule.recordedViews, show "/views".toList = '/' :: MemeFile.views.name from rfl,
    h.openRead_views hm]
  cases m.count with
  | none => rfl
  | some count => exact congrArg some (extractInt_of_stoi (stoi_toStr count) _)

lemma isDirectory_root : fs.isDirectory root = true := by
  rw [FileSystem.isDirectory_of_resolve h.denotes.resolve, decide_eq_true h.dir]

/-- All there is below the root are the directories of the memes. -/
lemma exists_of_mem_entries {n : Str} (hn : n ∈ fs.entries root) :
    ∃ (id : MemeId) (m : MemeRecord), n = id.toStr ∧ s id = some m := by
  rw [FileSystem.entries, h.denotes.resolve] at hn
  obtain ⟨x, hx⟩ := FileTree.exists_node_of_mem_children hn
  obtain ⟨id, rfl⟩ := h.named hx
  have hholds := h.holds id
  cases hm : s id with
  | none =>
    rw [hm] at hholds
    rw [show fs.tree.node _ = none from hholds] at hx
    cases hx
  | some m => exact ⟨id, m, rfl, hm⟩

lemma named_entries : ∀ n ∈ fs.entries root, fs.isDirectory (root ++ '/' :: n) = true →
    ∃ id : MemeId, n = id.toStr := by
  intro n hn _
  obtain ⟨id, -, hid, -⟩ := h.exists_of_mem_entries hn
  exact ⟨id, hid⟩

/-- A module that was made holds in memory what is on the disk, and its last id is that of a
meme. -/
lemma inMemory_of_load (hroot : root.getLast? ≠ some '/') {uninit : MemeModule.Uninit}
    {memes : MemeModule F} (hload : MemeModule.load float {} uninit fs root = .ok memes) :
    InMemory root memes s ∧ (memes.idCount = 0 ∨ ∃ m, s memes.idCount = some m) := by
  have hexists : ∀ {id : MemeId}, MemeExists fs root id ↔ ∃ m, s id = some m := by
    intro id
    rw [MemeExists, h.isDirectory_meme, Option.isSome_iff_exists]
  obtain ⟨hroot', hle, hattained, hviews, -⟩ :=
    MemeModule.load_eq_ok hroot h.named_entries h.isDirectory_root hload
  refine ⟨⟨hroot', fun hm => hle _ (hexists.mpr ⟨_, hm⟩), fun id => ?_⟩,
    hattained.imp_right hexists.mp⟩
  rw [hviews]
  split_ifs with hid
  · obtain ⟨m, hm⟩ := hexists.mp hid
    rw [← MemeModule.recordedViews_eq, h.recordedViews uninit hm, hm]
    rfl
  · cases hm : s id with
    | none => rfl
    | some m => exact absurd (hexists.mpr ⟨m, hm⟩) hid

/-- A new module can be made. -/
lemma load (hfloat : float.Reads) (hroot : root.getLast? ≠ some '/') (uninit : MemeModule.Uninit) :
    ∃ memes, MemeModule.load float {} uninit fs root = .ok memes ∧ InMemory root memes s ∧
      (memes.idCount = 0 ∨ ∃ m, s memes.idCount = some m) := by
  have hloadable : ∀ name ∈ MemeModule.subdirectories fs root,
      MemeModule.Loadable float {} fs (MemeModule.entryPath root name) := by
    intro name hname
    obtain ⟨id, m, rfl, hm⟩ :=
      h.exists_of_mem_entries (MemeModule.mem_subdirectories.mp hname).1
    rw [MemeModule.entryPath_eq hroot]
    exact h.loadable hfloat hm
  obtain ⟨memes, hload⟩ := (MemeModule.succeeds_load_iff h.isDirectory_root).mpr hloadable
  exact ⟨memes, hload, h.inMemory_of_load hroot hload⟩

end OnDisk

end SocialNetworkApp
