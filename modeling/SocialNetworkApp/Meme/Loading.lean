import SocialNetworkApp.Core.Table
import SocialNetworkApp.Meme.Exceptions

/-!
# What the constructor of a module reads

The constructor goes through the directories below the root. The last id is the greatest of those it
takes their names for, and a table has an entry for each of these ids with a file to read it from.
-/

namespace SocialNetworkApp

open SocialNetworkApp.Core

namespace Core

/-- `std::stoul` reads a number of digits only. -/
lemma stoul_digits {s : Str} (hne : s ≠ []) (hdigits : ∀ c ∈ s, c.isDigit = true)
    (hle : Nat.ofDigitChars 10 s 0 ≤ npos) : stoul s = .ok (Nat.ofDigitChars 10 s 0) := by
  obtain ⟨c, cs, hcs⟩ := List.exists_cons_of_ne_nil hne
  have hc : c.isDigit = true := hdigits c (hcs ▸ List.mem_cons_self)
  have hdrop : s.dropWhile isSpace = s := by
    rw [hcs]
    exact List.dropWhile_cons_of_neg (by simp [isSpace_eq_false_of_isDigit hc])
  have hsign : readSign s = (false, s) := by
    rw [hcs, readSign_of_isDigit hc]
  have htake := takeWhile_digits_append hdigits noDigitHead_nil
  rw [List.append_nil] at htake
  simp only [stoul, hdrop, hsign, htake, if_neg hne, if_neg (not_lt.mpr hle), Bool.false_eq_true,
    if_false]

/-- `std::stoul` undoes `std::to_string`. -/
lemma stoul_toDigits {n : Nat} (hn : n ≤ npos) : stoul (Nat.toDigits 10 n) = .ok n := by
  have hread := stoul_digits (Nat.toDigits_ne_nil (n := n) (b := 10))
    (fun _ hc => isDigit_of_mem_toDigits hc) (by rwa [Nat.ofDigitChars_ten_toDigits])
  rwa [Nat.ofDigitChars_ten_toDigits] at hread

/-- The text of a file that was opened. -/
def OpenRead.text : OpenRead → Option Str
  | .contents text => some text
  | _ => none

lemma OpenRead.text_eq_some {opened : OpenRead} {text : Str} :
    opened.text = some text ↔ opened = .contents text := by
  cases opened <;> simp [OpenRead.text]

end Core

variable {F : Type} {float : FloatArith F} {faults : StorageFaults} {root : Str} {fs : FileSystem}
  {id : MemeId}

/-- The directory of a meme is there. -/
def MemeExists (fs : FileSystem) (root : Str) (id : MemeId) : Prop :=
  fs.isDirectory (root ++ '/' :: id.toStr) = true

instance : Decidable (MemeExists fs root id) := inferInstanceAs (Decidable (_ = true))

lemma mem_entries_of_memeExists (hdir : fs.isDirectory root = true) (h : MemeExists fs root id) :
    id.toStr ∈ fs.entries root := by
  obtain ⟨p, hp, hpdir⟩ := FileSystem.isDirectory_eq_true hdir
  have hpath := FileSystem.resolve_below hp hpdir id.plainName_toStr.2.1
  rw [stepName_of_plain p id.plainName_toStr] at hpath
  rw [MemeExists, FileSystem.isDirectory_of_resolve hpath, decide_eq_true_eq] at h
  rw [FileSystem.entries, hp]
  exact FileTree.mem_children_iff.mpr (FileTree.mem_nodes_of_node h)

namespace MemeModule

lemma entryPath_eq (hroot : root.getLast? ≠ some '/') (name : Str) :
    entryPath root name = root ++ '/' :: name := if_neg hroot

/-- The names of the directories below the root. -/
def subdirectories (fs : FileSystem) (root : Str) : List Str :=
  (fs.entries root).filter fun name => fs.isDirectory (entryPath root name)

lemma mem_subdirectories {name : Str} : name ∈ subdirectories fs root ↔
    name ∈ fs.entries root ∧ fs.isDirectory (entryPath root name) = true := List.mem_filter

/-- What the id of a directory below the root is read from. -/
def idText (root name : Str) : Str := (entryPath root name).drop (root.length + 1)

lemma idText_eq (hroot : root.getLast? ≠ some '/') (name : Str) : idText root name = name := by
  rw [idText, entryPath_eq hroot, ← List.drop_drop, List.drop_left]
  rfl

/-- The id a directory below the root is taken for. -/
def idOf (uninit : Uninit) (root name : Str) : MemeId := loadedId uninit root (entryPath root name)

lemma idOf_of_ok (uninit : Uninit) {name : Str} {n : Nat} (h : stoul (idText root name) = .ok n) :
    idOf uninit root name = UInt32.ofNat n := by
  rw [idOf, loadedId, ← idText, h]

lemma idOf_of_error (uninit : Uninit) {name : Str} {e : NumError}
    (h : stoul (idText root name) = .error e) :
    idOf uninit root name = uninit.id (entryPath root name) := by
  rw [idOf, loadedId, ← idText, h]

/-- The id of a directory of a meme is read from its name. -/
lemma idOf_toStr (hroot : root.getLast? ≠ some '/') (uninit : Uninit) (id : MemeId) :
    idOf uninit root id.toStr = id := by
  have hle : id.toNat ≤ npos := (Nat.le_of_lt id.toNat_lt).trans (by decide)
  have hread : stoul (idText root id.toStr) = .ok id.toNat := by
    rw [idText_eq hroot]
    exact stoul_toDigits hle
  rw [idOf_of_ok uninit hread, UInt32.ofNat_toNat]

/-- What is entered for the views of a meme. -/
def recordedViews (uninit : Uninit) (fs : FileSystem) (root : Str) (id : MemeId) : Option CInt :=
  match fs.openRead (root ++ '/' :: id.toStr ++ "/views".toList) with
  | .contents text => some (extractInt (uninit.viewCount (root ++ '/' :: id.toStr)) text)
  | _ => none

/-! ### One directory -/

/-- What is entered for the views in the directory `path`. -/
def viewsIn (uninit : Uninit) (faults : StorageFaults) (fs : FileSystem) (path : Str) : Option CInt :=
  (faults.openRead fs (path ++ "/views".toList)).text.map (extractInt (uninit.viewCount path))

/-- What is entered for the ratings in the directory `path`. -/
def ratingsIn (float : FloatArith F) (faults : StorageFaults) (fs : FileSystem) (path : Str) :
    Option (CInt × F) :=
  (faults.openRead fs (path ++ "/ratings".toList)).text.bind fun data =>
    (readRatings float data).toOption

/-- Nothing is thrown over the directory `path`: no directory stands where a file is read, and the
ratings are a number and a rating. -/
structure Loadable (float : FloatArith F) (faults : StorageFaults) (fs : FileSystem) (path : Str) :
    Prop where
  views : faults.openRead fs (path ++ "/views".toList) ≠ .directory
  ratings : faults.openRead fs (path ++ "/ratings".toList) ≠ .directory
  read : ∀ data, faults.openRead fs (path ++ "/ratings".toList) = .contents data →
    Succeeds (readRatings float data)

lemma recordedViews_eq (uninit : Uninit) :
    recordedViews uninit fs root id = viewsIn uninit {} fs (root ++ '/' :: id.toStr) := by
  rw [recordedViews, viewsIn,
    show StorageFaults.openRead {} fs _ = fs.openRead _ from rfl]
  cases fs.openRead (root ++ '/' :: id.toStr ++ "/views".toList) <;> rfl

variable {uninit : Uninit} {memes memes' : MemeModule F} {name : Str}

/-- What is known behind the directory `name`. -/
def afterEntry (float : FloatArith F) (uninit : Uninit) (faults : StorageFaults) (fs : FileSystem)
    (memes : MemeModule F) (name : Str) : MemeModule F where
  root := memes.root
  idCount :=
    if memes.idCount < idOf uninit memes.root name then idOf uninit memes.root name
    else memes.idCount
  viewCounts := Table.writeOf (idOf uninit memes.root)
    (fun name => viewsIn uninit faults fs (entryPath memes.root name)) memes.viewCounts name
  ratings := Table.writeOf (idOf uninit memes.root)
    (fun name => ratingsIn float faults fs (entryPath memes.root name)) memes.ratings name

lemma loadEntry_of_not_isDirectory (hdir : ¬ fs.isDirectory (entryPath memes.root name) = true) :
    loadEntry float faults uninit fs memes name = .ok memes := by
  rw [loadEntry]
  exact if_neg hdir

/-- A directory counts with its id, and with the views and the ratings that are read from it. -/
lemma loadEntry_of_loadable (hdir : fs.isDirectory (entryPath memes.root name) = true)
    (h : Loadable float faults fs (entryPath memes.root name)) :
    loadEntry float faults uninit fs memes name = .ok (afterEntry float uninit faults fs memes name) := by
  obtain ⟨hviews, hratings, hread⟩ := h
  have hid : (if memes.idCount < idOf uninit memes.root name then
        { memes with idCount := idOf uninit memes.root name } else memes) =
      { memes with
        idCount :=
          if memes.idCount < idOf uninit memes.root name then idOf uninit memes.root name
          else memes.idCount } := by
    split_ifs <;> rfl
  have hstatus : ∀ b : Bool, (if b = true then StatusF.error else .not_found) ≠ .success := by
    decide
  simp only [loadEntry, hdir, if_true, BoostFileSystem.readFile_eq]
  rw [← idOf, hid]
  simp only [afterEntry, Table.writeOf, viewsIn, ratingsIn]
  cases hv : faults.openRead fs (entryPath memes.root name ++ "/views".toList) with
  | directory => exact absurd hv hviews
  | closed =>
    cases hr : faults.openRead fs (entryPath memes.root name ++ "/ratings".toList) with
    | directory => exact absurd hr hratings
    | closed =>
      simp only [ok_bind, if_neg (hstatus _)]
      rfl
    | contents data =>
      obtain ⟨rating, hrating⟩ := hread data hr
      simp only [ok_bind, if_neg (hstatus _), if_true, OpenRead.text, Option.bind_some, hrating]
      rfl
  | contents text =>
    cases hr : faults.openRead fs (entryPath memes.root name ++ "/ratings".toList) with
    | directory => exact absurd hr hratings
    | closed =>
      simp only [ok_bind, if_neg (hstatus _), if_true]
      rfl
    | contents data =>
      obtain ⟨rating, hrating⟩ := hread data hr
      simp only [ok_bind, if_true, OpenRead.text, Option.bind_some, hrating]
      rfl

/-- The round of the loop goes through if there is nothing to throw over. -/
lemma succeeds_loadEntry_iff :
    Succeeds (loadEntry float faults uninit fs memes name) ↔
      (fs.isDirectory (entryPath memes.root name) = true →
        Loadable float faults fs (entryPath memes.root name)) := by
  constructor
  · rintro ⟨memes', h⟩ hdir
    simp only [loadEntry, hdir, if_true, BoostFileSystem.readFile_eq] at h
    refine ⟨fun hv => ?_, fun hr => ?_, fun data hr => ?_⟩
    · rw [hv] at h
      cases h
    · rw [hr] at h
      cases hv : faults.openRead fs (entryPath memes.root name ++ "/views".toList) <;>
        rw [hv] at h <;> cases h
    · rw [hr] at h
      cases hv : faults.openRead fs (entryPath memes.root name ++ "/views".toList) with
      | directory =>
        rw [hv] at h
        cases h
      | closed | contents =>
        rw [hv] at h
        simp only [ok_bind, if_true] at h
        exact succeeds_map_iff.mp ⟨_, h⟩
  · intro h
    by_cases hdir : fs.isDirectory (entryPath memes.root name) = true
    · exact ⟨_, loadEntry_of_loadable hdir (h hdir)⟩
    · exact ⟨_, loadEntry_of_not_isDirectory hdir⟩

/-! ### All directories -/

/-- What is known behind the directories `names`. -/
lemma foldl_afterEntry (names : List Str) :
    (names.foldl (afterEntry float uninit faults fs) memes).root = memes.root ∧
      (names.foldl (afterEntry float uninit faults fs) memes).viewCounts =
        Table.writeAll (idOf uninit memes.root)
          (fun name => viewsIn uninit faults fs (entryPath memes.root name)) memes.viewCounts names ∧
      (names.foldl (afterEntry float uninit faults fs) memes).ratings =
        Table.writeAll (idOf uninit memes.root)
          (fun name => ratingsIn float faults fs (entryPath memes.root name)) memes.ratings names := by
  induction names generalizing memes with
  | nil => exact ⟨rfl, rfl, rfl⟩
  | cons name names ih => exact @ih (afterEntry float uninit faults fs memes name)

/-- The last id is the greatest one. -/
lemma idCount_foldl_afterEntry (names : List Str) :
    memes.idCount ≤ (names.foldl (afterEntry float uninit faults fs) memes).idCount ∧
      (∀ name ∈ names, idOf uninit memes.root name ≤
        (names.foldl (afterEntry float uninit faults fs) memes).idCount) ∧
      ((names.foldl (afterEntry float uninit faults fs) memes).idCount = memes.idCount ∨
        ∃ name ∈ names, idOf uninit memes.root name =
          (names.foldl (afterEntry float uninit faults fs) memes).idCount) := by
  induction names generalizing memes with
  | nil => exact ⟨UInt32.le_refl _, fun _ hname => absurd hname List.not_mem_nil, Or.inl rfl⟩
  | cons name names ih =>
    obtain ⟨hle, hnames, hattained⟩ := @ih (afterEntry float uninit faults fs memes name)
    have hfirst : memes.idCount ≤ (afterEntry float uninit faults fs memes name).idCount ∧
        idOf uninit memes.root name ≤ (afterEntry float uninit faults fs memes name).idCount ∧
        ((afterEntry float uninit faults fs memes name).idCount = memes.idCount ∨
          idOf uninit memes.root name =
            (afterEntry float uninit faults fs memes name).idCount) := by
      simp only [afterEntry]
      split_ifs with hlt
      · exact ⟨UInt32.le_of_lt hlt, UInt32.le_refl _, Or.inr rfl⟩
      · exact ⟨UInt32.le_refl _, UInt32.not_lt.mp hlt, Or.inl rfl⟩
    rw [List.foldl_cons]
    refine ⟨UInt32.le_trans hfirst.1 hle, ?_, ?_⟩
    · exact List.forall_mem_cons.mpr ⟨UInt32.le_trans hfirst.2.1 hle, hnames⟩
    · rcases hattained with heq | ⟨name', hname', heq⟩
      · rw [heq]
        exact hfirst.2.2.imp_right fun hid => ⟨name, List.mem_cons_self, hid⟩
      · exact Or.inr ⟨name', List.mem_cons_of_mem _ hname', heq⟩

/-- The loop goes through if every round does, and then it has seen all directories. -/
lemma foldlM_loadEntry (names : List Str) :
    ((∀ name ∈ names, fs.isDirectory (entryPath memes.root name) = true →
        Loadable float faults fs (entryPath memes.root name)) →
      names.foldlM (loadEntry float faults uninit fs) memes =
        .ok ((names.filter fun name => fs.isDirectory (entryPath memes.root name)).foldl
          (afterEntry float uninit faults fs) memes)) ∧
    (Succeeds (names.foldlM (loadEntry float faults uninit fs) memes) →
      ∀ name ∈ names, fs.isDirectory (entryPath memes.root name) = true →
        Loadable float faults fs (entryPath memes.root name)) := by
  induction names generalizing memes with
  | nil => exact ⟨fun _ => rfl, fun _ _ hname => absurd hname List.not_mem_nil⟩
  | cons name names ih =>
    rw [List.foldlM_cons, List.forall_mem_cons, List.filter_cons]
    by_cases hdir : fs.isDirectory (entryPath memes.root name) = true
    · rw [if_pos hdir, List.foldl_cons]
      refine ⟨fun h => ?_, fun h => ?_⟩
      · rw [loadEntry_of_loadable hdir (h.1 hdir), ok_bind]
        exact (@ih (afterEntry float uninit faults fs memes name)).1 h.2
      · obtain ⟨memes₁, hfirst, hrest⟩ := succeeds_bind_iff.mp h
        have hload := succeeds_loadEntry_iff.mp ⟨memes₁, hfirst⟩
        rw [loadEntry_of_loadable hdir (hload hdir)] at hfirst
        obtain rfl := Except.ok.inj hfirst
        exact ⟨hload, (@ih (afterEntry float uninit faults fs memes name)).2 hrest⟩
    · rw [if_neg hdir, loadEntry_of_not_isDirectory hdir, ok_bind]
      exact ⟨fun h => ih.1 h.2, fun h => ⟨fun hdir' => absurd hdir' hdir, ih.2 h⟩⟩

lemma load_of_isDirectory (hdir : fs.isDirectory root = true) :
    load float faults uninit fs root =
      (fs.entries root).foldlM (loadEntry float faults uninit fs) ⟨root, 0, ∅, ∅⟩ := by
  rw [load, FileSystem.pathExists_of_isDirectory hdir, hdir, Bool.and_self, if_pos rfl]

/-- A module can be made if there is nothing to throw over. -/
lemma succeeds_load_iff (hdir : fs.isDirectory root = true) :
    Succeeds (load float faults uninit fs root) ↔
      ∀ name ∈ subdirectories fs root, Loadable float faults fs (entryPath root name) := by
  have hloop := @foldlM_loadEntry F float faults fs uninit ⟨root, 0, ∅, ∅⟩ (fs.entries root)
  rw [load_of_isDirectory hdir]
  constructor
  · intro h name hname
    exact hloop.2 h name (mem_subdirectories.mp hname).1 (mem_subdirectories.mp hname).2
  · exact fun h => ⟨_, hloop.1 fun name hname hnamedir =>
      h name (mem_subdirectories.mpr ⟨hname, hnamedir⟩)⟩

/-- What a new module knows. -/
lemma eq_of_load (hdir : fs.isDirectory root = true)
    (h : load float faults uninit fs root = .ok memes) :
    memes = (subdirectories fs root).foldl (afterEntry float uninit faults fs) ⟨root, 0, ∅, ∅⟩ := by
  have hloop := @foldlM_loadEntry F float faults fs uninit ⟨root, 0, ∅, ∅⟩ (fs.entries root)
  have hloadable := (succeeds_load_iff hdir).mp ⟨memes, h⟩
  rw [load_of_isDirectory hdir, hloop.1 fun name hname hnamedir =>
    hloadable name (mem_subdirectories.mpr ⟨hname, hnamedir⟩)] at h
  exact (Except.ok.inj h).symm

/-! ### Directories with the names of ids -/

section

variable (hroot : root.getLast? ≠ some '/')
  (hnames : ∀ n ∈ fs.entries root, fs.isDirectory (root ++ '/' :: n) = true →
    ∃ id : MemeId, n = id.toStr)

include hroot

lemma mem_subdirectories_of_memeExists (hdir : fs.isDirectory root = true)
    (h : MemeExists fs root id) : id.toStr ∈ subdirectories fs root := by
  refine mem_subdirectories.mpr ⟨mem_entries_of_memeExists hdir h, ?_⟩
  rw [entryPath_eq hroot]
  exact h

include hnames

lemma exists_of_idOf (hname : name ∈ subdirectories fs root) (hid : idOf uninit root name = id) :
    name = id.toStr ∧ MemeExists fs root id := by
  obtain ⟨hentry, hdir⟩ := mem_subdirectories.mp hname
  rw [entryPath_eq hroot] at hdir
  obtain ⟨id', rfl⟩ := hnames _ hentry hdir
  rw [idOf_toStr hroot] at hid
  subst hid
  exact ⟨rfl, hdir⟩

/-- The directory of a meme is the only one that is taken for it. -/
lemma getLast?_filter_idOf (hdir : fs.isDirectory root = true) (h : MemeExists fs root id) :
    ((subdirectories fs root).filter fun name => idOf uninit root name = id).getLast? =
      some id.toStr := by
  have hmem : id.toStr ∈ (subdirectories fs root).filter fun name => idOf uninit root name = id :=
    List.mem_filter.mpr
      ⟨mem_subdirectories_of_memeExists hroot hdir h, decide_eq_true (idOf_toStr hroot _ id)⟩
  rw [List.getLast?_eq_some_getLast (List.ne_nil_of_mem hmem)]
  obtain ⟨hlast, hid⟩ := List.mem_filter.mp (List.getLast_mem (List.ne_nil_of_mem hmem))
  rw [(exists_of_idOf hroot hnames hlast (of_decide_eq_true hid)).1]

/-- A table that is filled from the directories. -/
lemma lookup_writeAll_subdirectories {V : Type} (hdir : fs.isDirectory root = true)
    (value : Str → Option V) (id : MemeId) :
    (Table.writeAll (idOf uninit root) value ∅ (subdirectories fs root)).lookup id =
      if MemeExists fs root id then value id.toStr else none := by
  have hnone : ¬ (MemeExists fs root id ∧ ∃ v, value id.toStr = some v) →
      (Table.writeAll (idOf uninit root) value ∅ (subdirectories fs root)).lookup id = none := by
    intro hnot
    by_contra hsome
    obtain ⟨name, hname, hid, v, hv⟩ :=
      Table.lookup_writeAll_empty_isSome.mp (Option.ne_none_iff_exists'.mp hsome)
    obtain ⟨rfl, hexists⟩ := exists_of_idOf hroot hnames hname hid
    exact hnot ⟨hexists, v, hv⟩
  split_ifs with hexists
  · cases hv : value id.toStr with
    | none => exact hnone (by rintro ⟨-, v, hv'⟩; simp [hv] at hv')
    | some v =>
      exact Table.lookup_writeAll_empty_of_last (getLast?_filter_idOf hroot hnames hdir hexists) hv
  · exact hnone fun h => hexists h.1

/-- What a new module knows. -/
lemma load_eq_ok (hdir : fs.isDirectory root = true)
    (h : load float faults uninit fs root = .ok memes) :
    memes.root = root ∧ (∀ id, MemeExists fs root id → id ≤ memes.idCount) ∧
      (memes.idCount = 0 ∨ MemeExists fs root memes.idCount) ∧
      (∀ id, memes.viewCounts.lookup id =
        if MemeExists fs root id then viewsIn uninit faults fs (root ++ '/' :: id.toStr) else none) ∧
      ∀ id, memes.ratings.lookup id =
        if MemeExists fs root id then ratingsIn float faults fs (root ++ '/' :: id.toStr)
        else none := by
  have hmemes := eq_of_load hdir h
  obtain ⟨hroot', hviews, hratings⟩ := @foldl_afterEntry F float faults fs uninit ⟨root, 0, ∅, ∅⟩
    (subdirectories fs root)
  obtain ⟨-, hle, hattained⟩ := @idCount_foldl_afterEntry F float faults fs uninit ⟨root, 0, ∅, ∅⟩
    (subdirectories fs root)
  rw [← hmemes] at hroot' hviews hratings hle hattained
  refine ⟨hroot', fun id hexists => ?_, hattained.imp_right ?_, fun id => ?_, fun id => ?_⟩
  · have hid := hle id.toStr (mem_subdirectories_of_memeExists hroot hdir hexists)
    rwa [idOf_toStr hroot] at hid
  · rintro ⟨name, hname, hid⟩
    exact (exists_of_idOf hroot hnames hname hid).2
  · rw [hviews, lookup_writeAll_subdirectories hroot hnames hdir, entryPath_eq hroot]
  · rw [hratings, lookup_writeAll_subdirectories hroot hnames hdir, entryPath_eq hroot]

end

end MemeModule

end SocialNetworkApp
