import Mathlib.Data.List.MinMax
import Mathlib.Order.Nat
import SocialNetworkApp.Meme.Refinement

/-!
# Starting on any directory

A new module goes through whatever directories there are below its root. Where the name of one is not
read as a number, its id is whatever the variable happens to hold, and what its files say is entered
under that.
-/

namespace SocialNetworkApp

open SocialNetworkApp.Core

/-- The name is a number. -/
def Numeric (name : Str) : Prop := name ≠ [] ∧ ∀ c ∈ name, c.isDigit = true

instance (name : Str) : Decidable (Numeric name) :=
  @instDecidableAnd _ _ _ (List.decidableBAll _ name)

/-- The number a name is. -/
def numberOf (name : Str) : Nat := Nat.ofDigitChars 10 name 0

namespace MemeModule

variable {F : Type} {float : FloatArith F} {faults : StorageFaults} {fs : FileSystem} {root : Str}
  {name : Str} {id : MemeId}

/-- The largest number among the names of the directories below the root, or 0. -/
def largestNumber (fs : FileSystem) (root : Str) : Nat :=
  (((subdirectories fs root).filter fun name => Numeric name).map numberOf).foldr max 0

/-- A directory below the root has this number. -/
def HasNumber (fs : FileSystem) (root : Str) (n : Nat) : Prop :=
  ∃ name ∈ subdirectories fs root, Numeric name ∧ numberOf name = n

/-- Whatever the variables hold, a module is made, its last id is the largest number, and its tables
have entries for numbers only. -/
def StartsUp (float : FloatArith F) (faults : StorageFaults) (fs : FileSystem) (root : Str) : Prop :=
  ∀ uninit, ∃ memes, load float faults uninit fs root = .ok memes ∧
    memes.idCount.toNat = largestNumber fs root ∧
    ∀ id : MemeId, ((∃ count, memes.viewCounts.lookup id = some count) ∨
      ∃ rating, memes.ratings.lookup id = some rating) → HasNumber fs root id.toNat

/-- The directory may be taken for `id`: for the number its name begins with, or else for
anything. -/
def MayBeTakenFor (root name : Str) (id : MemeId) : Prop :=
  ∀ n, stoul (idText root name) = .ok n → id = UInt32.ofNat n

lemma mayBeTakenFor_idOf (uninit : Uninit) : MayBeTakenFor root name (idOf uninit root name) :=
  fun _ hread => idOf_of_ok uninit hread

/-- What a directory may be taken for, it is taken for if the variable holds it. -/
lemma idOf_of_mayBeTakenFor (h : MayBeTakenFor root name id) :
    idOf ⟨fun _ => id, fun _ => 0⟩ root name = id := by
  cases hread : stoul (idText root name) with
  | ok n => rw [idOf_of_ok _ hread, h n hread]
  | error e => exact idOf_of_error _ hread

/-- A file of views or of ratings in the directory can be read. -/
def HasFiles (faults : StorageFaults) (fs : FileSystem) (path : Str) : Prop :=
  (∃ text, faults.openRead fs (path ++ "/views".toList) = .contents text) ∨
    ∃ text, faults.openRead fs (path ++ "/ratings".toList) = .contents text

/-- Nothing is thrown over the directories, none may be taken for more than the largest number and
one is taken for it, and those with files are only taken for numbers there are. -/
structure Orderly (float : FloatArith F) (faults : StorageFaults) (fs : FileSystem) (root : Str) :
    Prop where
  loadable : ∀ name ∈ subdirectories fs root, Loadable float faults fs (entryPath root name)
  within : ∀ name ∈ subdirectories fs root, ∀ id, MayBeTakenFor root name id →
    id.toNat ≤ largestNumber fs root
  counted : largestNumber fs root = 0 ∨ ∃ name ∈ subdirectories fs root, ∀ id,
    MayBeTakenFor root name id → id.toNat = largestNumber fs root
  entered : ∀ name ∈ subdirectories fs root, HasFiles faults fs (entryPath root name) →
    ∀ id, MayBeTakenFor root name id → HasNumber fs root id.toNat

section

variable {uninit : Uninit} {memes : MemeModule F} (hdir : fs.isDirectory root = true)
  (h : load float faults uninit fs root = .ok memes)

include hdir h

/-- The last id is the largest that a directory is taken for. -/
lemma idCount_of_load : (∀ name ∈ subdirectories fs root, idOf uninit root name ≤ memes.idCount) ∧
    (memes.idCount = 0 ∨ ∃ name ∈ subdirectories fs root, idOf uninit root name = memes.idCount) := by
  rw [eq_of_load hdir h]
  exact (@idCount_foldl_afterEntry F float faults fs uninit ⟨root, 0, ∅, ∅⟩
    (subdirectories fs root)).2

/-- There are entries for the directories with files, under the ids they are taken for. -/
lemma entry_of_load : ((∃ count, memes.viewCounts.lookup id = some count) ∨
    ∃ rating, memes.ratings.lookup id = some rating) ↔
      ∃ name ∈ subdirectories fs root, idOf uninit root name = id ∧
        HasFiles faults fs (entryPath root name) := by
  have hloadable := (succeeds_load_iff hdir).mp ⟨memes, h⟩
  obtain ⟨-, hviews, hratings⟩ := @foldl_afterEntry F float faults fs uninit ⟨root, 0, ∅, ∅⟩
    (subdirectories fs root)
  rw [← eq_of_load hdir h] at hviews hratings
  have hview : ∀ name, (∃ v, viewsIn uninit faults fs (entryPath root name) = some v) ↔
      ∃ text, faults.openRead fs (entryPath root name ++ "/views".toList) = .contents text := by
    intro name
    simp only [viewsIn, Option.map_eq_some_iff, OpenRead.text_eq_some]
    constructor
    · rintro ⟨_, text, htext, -⟩
      exact ⟨text, htext⟩
    · rintro ⟨text, htext⟩
      exact ⟨_, text, htext, rfl⟩
  have hrating : ∀ name ∈ subdirectories fs root,
      ((∃ v, ratingsIn float faults fs (entryPath root name) = some v) ↔
        ∃ text, faults.openRead fs (entryPath root name ++ "/ratings".toList) = .contents text) := by
    intro name hname
    simp only [ratingsIn, Option.bind_eq_some_iff, OpenRead.text_eq_some]
    constructor
    · rintro ⟨_, text, htext, -⟩
      exact ⟨text, htext⟩
    · rintro ⟨text, htext⟩
      obtain ⟨rating, hread⟩ := (hloadable name hname).read text htext
      exact ⟨rating, text, htext, by rw [hread]; rfl⟩
  rw [hviews, hratings, Table.lookup_writeAll_empty_isSome, Table.lookup_writeAll_empty_isSome]
  constructor
  · rintro (⟨name, hname, hid, hv⟩ | ⟨name, hname, hid, hv⟩)
    · exact ⟨name, hname, hid, Or.inl ((hview name).mp hv)⟩
    · exact ⟨name, hname, hid, Or.inr ((hrating name hname).mp hv)⟩
  · rintro ⟨name, hname, hid, hv | hv⟩
    · exact Or.inl ⟨name, hname, hid, (hview name).mpr hv⟩
    · exact Or.inr ⟨name, hname, hid, (hrating name hname).mpr hv⟩

end

/-- A directory with memes only is orderly if nothing is thrown over it. -/
lemma orderly_of_numeric (hroot : root.getLast? ≠ some '/')
    (hnames : ∀ name ∈ subdirectories fs root, Numeric name ∧ numberOf name < 2 ^ 32)
    (hloadable : ∀ name ∈ subdirectories fs root, Loadable float faults fs (entryPath root name)) :
    Orderly float faults fs root := by
  have hnumber : ∀ name ∈ subdirectories fs root, ∀ id, MayBeTakenFor root name id →
      id.toNat = numberOf name := by
    intro name hname id htaken
    obtain ⟨⟨hne, hdigits⟩, hlt⟩ := hnames name hname
    have hread : stoul (idText root name) = .ok (numberOf name) := by
      rw [idText_eq hroot]
      exact stoul_digits hne hdigits (hlt.le.trans (by decide))
    rw [htaken _ hread, UInt32.toNat_ofNat_of_lt' hlt]
  have hle : ∀ name ∈ subdirectories fs root, numberOf name ≤ largestNumber fs root := by
    intro name hname
    refine List.le_max_of_le' 0 (List.mem_map_of_mem (List.mem_filter.mpr ⟨hname, ?_⟩)) le_rfl
    exact decide_eq_true (hnames name hname).1
  refine ⟨hloadable, fun name hname id htaken => ?_, ?_, fun name hname _ id htaken => ?_⟩
  · rw [hnumber name hname id htaken]
    exact hle name hname
  · by_cases hnil : ((subdirectories fs root).filter fun name => Numeric name).map numberOf = []
    · exact Or.inl (by rw [largestNumber, hnil]; rfl)
    · have hmem : largestNumber fs root ∈
          ((subdirectories fs root).filter fun name => Numeric name).map numberOf :=
        List.maximum_mem (List.foldr_max_of_ne_nil hnil).symm
      obtain ⟨name, hname, hlargest⟩ := List.mem_map.mp hmem
      have hsub := (List.mem_filter.mp hname).1
      exact Or.inr ⟨name, hsub, fun id htaken => (hnumber name hsub id htaken).trans hlargest⟩
  · exact ⟨name, hname, (hnames name hname).1, (hnumber name hname id htaken).symm⟩

/-! ### What starting up asks of the directories -/

section

variable (hdir : fs.isDirectory root = true) (h : StartsUp float faults fs root)

include hdir h

lemma StartsUp.loadable (hname : name ∈ subdirectories fs root) :
    Loadable float faults fs (entryPath root name) := by
  obtain ⟨memes, hload, -⟩ := h ⟨fun _ => 0, fun _ => 0⟩
  exact (succeeds_load_iff hdir).mp ⟨memes, hload⟩ name hname

/-- The variable may hold any id the directory may be taken for. -/
lemma StartsUp.within (hname : name ∈ subdirectories fs root) (htaken : MayBeTakenFor root name id) :
    id.toNat ≤ largestNumber fs root := by
  obtain ⟨memes, hload, hcount, -⟩ := h ⟨fun _ => id, fun _ => 0⟩
  have hle := (idCount_of_load hdir hload).1 name hname
  rw [idOf_of_mayBeTakenFor htaken, UInt32.le_iff_toNat_le, hcount] at hle
  exact hle

/-- The variable may hold 0, and then the largest number was read from a name. -/
lemma StartsUp.counted : largestNumber fs root = 0 ∨ ∃ name ∈ subdirectories fs root, ∀ id,
    MayBeTakenFor root name id → id.toNat = largestNumber fs root := by
  obtain ⟨memes, hload, hcount, -⟩ := h ⟨fun _ => 0, fun _ => 0⟩
  rcases (idCount_of_load hdir hload).2 with hnone | ⟨name, hname, hid⟩
  · rw [hnone] at hcount
    exact Or.inl hcount.symm
  · cases hread : stoul (idText root name) with
    | ok n =>
      refine Or.inr ⟨name, hname, fun id htaken => ?_⟩
      rw [htaken n hread, ← hcount, ← hid, idOf_of_ok _ hread]
    | error e =>
      rw [idOf_of_error _ hread] at hid
      rw [← hid] at hcount
      exact Or.inl hcount.symm

lemma StartsUp.entered (hname : name ∈ subdirectories fs root)
    (hfiles : HasFiles faults fs (entryPath root name)) (htaken : MayBeTakenFor root name id) :
    HasNumber fs root id.toNat := by
  obtain ⟨memes, hload, -, hentries⟩ := h ⟨fun _ => id, fun _ => 0⟩
  apply hentries id
  rw [entry_of_load hdir hload]
  exact ⟨name, hname, idOf_of_mayBeTakenFor htaken, hfiles⟩

end

/-- The last id is the largest number, whatever the variables hold. -/
lemma Orderly.idCount (h : Orderly float faults fs root) (hdir : fs.isDirectory root = true)
    {uninit : Uninit} {memes : MemeModule F} (hload : load float faults uninit fs root = .ok memes) :
    memes.idCount.toNat = largestNumber fs root := by
  obtain ⟨hle, hattained⟩ := idCount_of_load hdir hload
  apply le_antisymm
  · rcases hattained with hzero | ⟨name, hname, hid⟩
    · rw [hzero]
      exact Nat.zero_le _
    · rw [← hid]
      exact h.within name hname _ (mayBeTakenFor_idOf uninit)
  · rcases h.counted with hzero | ⟨name, hname, hnumber⟩
    · rw [hzero]
      exact Nat.zero_le _
    · rw [← hnumber _ (mayBeTakenFor_idOf uninit)]
      exact UInt32.le_iff_toNat_le.mp (hle name hname)

/-- A module starts up on a directory exactly if that is orderly. -/
theorem startsUp_iff (hdir : fs.isDirectory root = true) :
    StartsUp float faults fs root ↔ Orderly float faults fs root := by
  constructor
  · intro h
    exact
      { loadable := fun name hname => h.loadable hdir hname
        within := fun name hname id htaken => h.within hdir hname htaken
        counted := h.counted hdir
        entered := fun name hname hfiles id htaken => h.entered hdir hname hfiles htaken }
  · intro h uninit
    obtain ⟨memes, hload⟩ : Succeeds (load float faults uninit fs root) :=
      (succeeds_load_iff hdir).mpr h.loadable
    refine ⟨memes, hload, h.idCount hdir hload, fun id hentry => ?_⟩
    obtain ⟨name, hname, rfl, hfiles⟩ := (entry_of_load hdir hload).mp hentry
    exact h.entered name hname hfiles _ (mayBeTakenFor_idOf uninit)

/-- A directory of a meme with ratings that are no numbers. -/
def brokenDisk : FileSystem :=
  (BoostFileSystem.writeFile {} (BoostFileSystem.createDirectory {} sampleDisk "m/1".toList).2
    "m/1/ratings".toList "five".toList).2

/-- A directory that is called like no meme. -/
def strayDisk : FileSystem := (BoostFileSystem.createDirectory {} sampleDisk "m/tmp".toList).2

/-- Roots with a meme whose ratings are no numbers, and with a stray directory. -/
theorem startsUp_iff_brokenDisk :
    brokenDisk.entries ['m'] = [['1']] ∧
      (StartsUp wholeFloat {} brokenDisk ['m'] ↔ Orderly wholeFloat {} brokenDisk ['m']) ∧
      strayDisk.entries ['m'] = ["tmp".toList] ∧
      (StartsUp wholeFloat {} strayDisk ['m'] ↔ Orderly wholeFloat {} strayDisk ['m']) :=
  ⟨rfl, startsUp_iff rfl, rfl, startsUp_iff rfl⟩

/-- Ratings that are no numbers are thrown over, and the id of a stray directory is whatever the
variable holds. -/
theorem not_startsUp :
    (load wholeFloat {} ⟨fun _ => 0, fun _ => 0⟩ brokenDisk ['m']).map idCount =
        .error (.number .invalidArgument) ∧
      ¬ StartsUp wholeFloat {} brokenDisk ['m'] ∧
      (load wholeFloat {} ⟨fun _ => 7, fun _ => 0⟩ strayDisk ['m']).map idCount = .ok 7 ∧
      largestNumber strayDisk ['m'] = 0 ∧ ¬ StartsUp wholeFloat {} strayDisk ['m'] := by
  have hbroken : (load wholeFloat {} ⟨fun _ => 0, fun _ => 0⟩ brokenDisk ['m']).map idCount =
      .error (.number .invalidArgument) := by decide +kernel
  have hstray : (load wholeFloat {} ⟨fun _ => 7, fun _ => 0⟩ strayDisk ['m']).map idCount = .ok 7 := by
    decide +kernel
  have hlargest : largestNumber strayDisk ['m'] = 0 := by decide +kernel
  refine ⟨hbroken, fun h => ?_, hstray, hlargest, fun h => ?_⟩
  · obtain ⟨memes, hload, -⟩ := h ⟨fun _ => 0, fun _ => 0⟩
    rw [hload] at hbroken
    cases hbroken
  · obtain ⟨memes, hload, hcount, -⟩ := h ⟨fun _ => 7, fun _ => 0⟩
    rw [hload, Except.map, Except.ok.injEq] at hstray
    rw [hstray, hlargest] at hcount
    exact absurd hcount (by decide)

end MemeModule

end SocialNetworkApp
