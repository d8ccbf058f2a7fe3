import Mathlib.Data.UInt
import SocialNetworkApp.Core.Number
import SocialNetworkApp.Core.Returns
import SocialNetworkApp.Core.Table
import SocialNetworkApp.Meme.Storage

/-!
# The memes

`MemeModule` keeps the memes of one root in its directories `root/<id>`, and the counts of views and
the ratings in memory as well. What it takes from elsewhere, the arithmetic of `float` and the trees
of Boost.PropertyTree, are parameters.
-/

namespace SocialNetworkApp

open SocialNetworkApp.Core

/-- The arithmetic of `float`, its input and its output. -/
structure FloatArith (F : Type) where
  ofInt : CInt → F
  add : F → F → F
  mul : F → F → F
  div : F → F → F
  gt : F → F → Bool
  stof : Str → Except NumError F
  toStr : F → Str

/-- Boost.PropertyTree: `readJson` gives the strings `get<std::string>` finds in a tree, or fails
where `read_json` throws; `writeInfo` writes the tree of a meme's views, rating and comments. -/
structure PropertyTree (F : Type) where
  readJson : Str → Option (Str → Option Str)
  writeInfo : CInt → F → List Str → Str

/-- Ids of memes are `unsigned int`. -/
abbrev MemeId := UInt32

namespace MemeId

/-- `std::to_string(id)`. -/
def toStr (id : MemeId) : Str := Nat.toDigits 10 id.toNat

/-- The conversions between `int` and `unsigned int`. -/
def ofCInt (n : CInt) : MemeId := UInt32.ofInt n.val

def toCInt (id : MemeId) : CInt := CInt.wrap id.toNat

lemma plainName_toStr (id : MemeId) : PlainName id.toStr :=
  plainName_of_isDigit Nat.toDigits_ne_nil fun _ hc => isDigit_of_mem_toDigits hc

lemma toStr_injective : Function.Injective toStr := by
  intro id id' h
  have hnat := congrArg (fun digits => Nat.ofDigitChars 10 digits 0) h
  simp only [toStr, Nat.ofDigitChars_ten_toDigits] at hnat
  exact UInt32.toNat_inj.mp hnat

end MemeId

/-- `Meme`. -/
structure Meme (F : Type) where
  content : Str
  top : Str
  bottom : Str
  template : Str
  viewCount : CInt
  rating : F

/-- `Comment`. -/
structure Comment where
  content : Str
  comment : Str
  id : Str
  rating : Str
deriving DecidableEq

/-- The three strings the constructors of `Meme` and `Comment` read. -/
def readThree {F : Type} (tree : PropertyTree F) (content : Str) (a b c : Str) :
    Except Exception (Str × Str × Str) :=
  match tree.readJson content with
  | none => .error .propertyTree
  | some get =>
    match get a, get b, get c with
    | some x, some y, some z => .ok (x, y, z)
    | _, _, _ => .error .propertyTree

def Meme.make {F : Type} (tree : PropertyTree F) (content : Str) (viewCount : CInt) (rating : F) :
    Except Exception (Meme F) :=
  (readThree tree content "top".toList "bottom".toList "template".toList).map
    fun (top, bottom, template) => ⟨content, top, bottom, template, viewCount, rating⟩

def Comment.make {F : Type} (tree : PropertyTree F) (content : Str) : Except Exception Comment :=
  (readThree tree content "comment".toList "id".toList "rating".toList).map
    fun (comment, id, rating) => ⟨content, comment, id, rating⟩

lemma Meme.content_of_make {F : Type} {tree : PropertyTree F} {content : Str} {count : CInt} {rating : F}
    {meme : Meme F} (h : Meme.make tree content count rating = .ok meme) : meme.content = content := by
  obtain ⟨three, -, rfl⟩ := exists_of_map_eq_ok h
  rfl

lemma Comment.content_of_make {F : Type} {tree : PropertyTree F} {content : Str} {comment : Comment}
    (h : Comment.make tree content = .ok comment) : comment.content = content := by
  obtain ⟨three, -, rfl⟩ := exists_of_map_eq_ok h
  rfl

/-- The fields of `MemeModule`. -/
structure MemeModule (F : Type) where
  root : Str
  idCount : MemeId
  viewCounts : Table MemeId CInt
  ratings : Table MemeId (CInt × F)

/-- A module and the file system it works on. -/
structure MemeState (F : Type) where
  fs : FileSystem
  memes : MemeModule F

namespace MemeModule

variable {F : Type} (float : FloatArith F) (tree : PropertyTree F) (faults : StorageFaults)

/-- `root_ + "/" + std::to_string(id)`. -/
def memePath (memes : MemeModule F) (id : MemeId) : Str := memes.root ++ '/' :: id.toStr

lemma memePath_ne_nil (memes : MemeModule F) (id : MemeId) : memes.memePath id ≠ [] :=
  List.append_ne_nil_of_right_ne_nil _ (List.cons_ne_nil _ _)

/-! ### Counts -/

def getViewCount (memes : MemeModule F) (id : MemeId) : CInt :=
  match memes.viewCounts.lookup id with
  | some count => count
  | none => CInt.wrap (-1)

def getMemeCount (memes : MemeModule F) : CInt := memes.idCount.toCInt

def getRating (memes : MemeModule F) (id : MemeId) : F :=
  match memes.ratings.lookup id with
  | some (_, rating) => rating
  | none => float.ofInt (CInt.wrap (-1))

/-- `increment_view_count`: where the file cannot be written, that is only logged. -/
def incrementViewCount (id : MemeId) (w : MemeState F) : MemeState F :=
  let viewCount := match w.memes.viewCounts.lookup id with
    | some count => count.succ
    | none => 1
  let viewPath := w.memes.memePath id ++ "/views".toList
  ⟨(BoostFileSystem.writeFile faults w.fs viewPath (toStr viewCount)).2,
    { w.memes with viewCounts := w.memes.viewCounts.insert id viewCount }⟩

def addRating (id : MemeId) (rating : CInt) (w : MemeState F) : MemeState F :=
  let (newCount, newRating) := match w.memes.ratings.lookup id with
    | some (oldCount, oldRating) =>
      (oldCount.succ, float.div (float.add (float.mul oldRating (float.ofInt oldCount))
        (float.ofInt rating)) (float.ofInt oldCount.succ))
    | none => (1, float.ofInt rating)
  let ratingsPath := w.memes.memePath id ++ "/ratings".toList
  ⟨(BoostFileSystem.writeFile faults w.fs ratingsPath
      (toStr newCount ++ ',' :: float.toStr newRating)).2,
    { w.memes with ratings := w.memes.ratings.insert id (newCount, newRating) }⟩

/-! ### Memes and comments -/

/-- `create`; `none` when it returns false. -/
def create (content : Str) (w : MemeState F) : Option MemeId × MemeState F :=
  let memes := { w.memes with idCount := w.memes.idCount + 1 }
  let newId := memes.idCount
  match BoostFileSystem.createDirectory faults w.fs (memes.memePath newId) with
  | (.success, fs) =>
    match BoostFileSystem.writeFile faults fs (memes.memePath newId ++ "/content".toList) content with
    | (.success, fs) => (some newId, ⟨fs, memes⟩)
    | (_, fs) => (none, ⟨fs, memes⟩)
  | (_, fs) => (none, ⟨fs, memes⟩)

/-- `get_content`: the empty string when the file cannot be read. -/
def getContent (id : MemeId) (w : MemeState F) : Except Exception Str :=
  (BoostFileSystem.readFile faults w.fs (w.memes.memePath id ++ "/content".toList)).map
    fun (status, content) => if status = .success then content else []

/-- `get`; `none` when it returns the null pointer. -/
def get (id : MemeId) (w : MemeState F) : Except Exception (Option (Meme F) × MemeState F) :=
  let memePath := w.memes.memePath id
  if !BoostFileSystem.exist w.fs memePath || !w.fs.isDirectory memePath then .ok (none, w)
  else
    let w := incrementViewCount faults id w
    match getContent faults id w with
    | .error e => .error e
    | .ok [] => .ok (none, w)
    | .ok content =>
      (Meme.make tree content (w.memes.getViewCount id) (w.memes.getRating float id)).map
        fun made => (some made, w)

/-- `remove`: the entries of the tables go whether or not the directory can be deleted. -/
def remove (id : MemeId) (w : MemeState F) : MemeState F :=
  ⟨(BoostFileSystem.deleteDirectory faults w.fs (w.memes.memePath id)).2,
    { w.memes with
      viewCounts := w.memes.viewCounts.erase id
      ratings := w.memes.ratings.erase id }⟩

/-- `add_comment`; `uuid` is the name drawn for the file. -/
def addComment (uuid : Str) (id : MemeId) (comment : Comment) (w : MemeState F) : MemeState F :=
  let memePath := w.memes.memePath id
  if !BoostFileSystem.exist w.fs memePath then w
  else
    let commentPath := memePath ++ "/comments".toList
    let fs :=
      if !BoostFileSystem.exist w.fs commentPath then
        (BoostFileSystem.createDirectory faults w.fs commentPath).2
      else w.fs
    { w with fs := (BoostFileSystem.writeFile faults fs (commentPath ++ '/' :: uuid) comment.content).2 }

def getComments (id : MemeId) (w : MemeState F) : Except Exception (List Comment) :=
  let memePath := w.memes.memePath id
  let commentPath := memePath ++ "/comments".toList
  if !BoostFileSystem.exist w.fs memePath then .ok []
  else if !BoostFileSystem.exist w.fs commentPath || !w.fs.isDirectory commentPath then .ok []
  else
    (w.fs.entries commentPath).foldlM (fun comments name =>
      match BoostFileSystem.readFile faults w.fs (commentPath ++ '/' :: name) with
      | .error e => .error e
      | .ok (.success, content) =>
        (Comment.make tree content).map fun comment => comments ++ [comment]
      | .ok _ => .ok comments) []

/-! ### Loading -/

/-- What the variables of the constructor hold before they are read, by path. -/
structure Uninit where
  id : Str → MemeId
  viewCount : Str → CInt

/-- The path of a directory entry. -/
def entryPath (root name : Str) : Str :=
  if root.getLast? = some '/' then root ++ name else root ++ '/' :: name

/-- The id read from the path of a directory; whatever goes wrong is caught. -/
def loadedId (uninit : Uninit) (root path : Str) : MemeId :=
  match stoul (path.drop (root.length + 1)) with
  | .ok n => UInt32.ofNat n
  | .error _ => uninit.id path

/-- The count and the rating in a file, with a comma between them. -/
def readRatings (ratingData : Str) : Except Exception (CInt × F) :=
  match stoi (ratingData.takeWhile (· ≠ ',')) with
  | .error e => .error (.number e)
  | .ok count =>
    match float.stof (((ratingData.dropWhile (· ≠ ',')).drop 1).takeWhile (· ≠ '\n')) with
    | .error e => .error (.number e)
    | .ok rating => .ok (count, rating)

/-- The loop of the constructor. Only the errors of the file system are caught in it. -/
def loadEntry (uninit : Uninit) (fs : FileSystem) (memes : MemeModule F) (name : Str) :
    Except Exception (MemeModule F) :=
  let path := entryPath memes.root name
  if fs.isDirectory path then do
    let id := loadedId uninit memes.root path
    let memes := if memes.idCount < id then { memes with idCount := id } else memes
    let (viewStatus, viewData) ← BoostFileSystem.readFile faults fs (path ++ "/views".toList)
    let memes :=
      if viewStatus = .success then
        { memes with viewCounts :=
            memes.viewCounts.insert id (extractInt (uninit.viewCount path) viewData) }
      else memes
    let (ratingStatus, ratingData) ← BoostFileSystem.readFile faults fs (path ++ "/ratings".toList)
    if ratingStatus = .success then
      (readRatings float ratingData).map fun rating =>
        { memes with ratings := memes.ratings.insert id rating }
    else .ok memes
  else .ok memes

/-- The constructor. -/
def load (uninit : Uninit) (fs : FileSystem) (root : Str) : Except Exception (MemeModule F) :=
  if fs.pathExists root && fs.isDirectory root then
    (fs.entries root).foldlM (loadEntry float faults uninit fs) ⟨root, 0, ∅, ∅⟩
  else .ok ⟨root, 0, ∅, ∅⟩

/-! ### What the calls change -/

section

variable {float tree faults} {w : MemeState F} {id : MemeId}

/-- The count of a meme is incremented in memory and in its file. -/
lemma incrementViewCount_eq :
    incrementViewCount faults id w =
      ⟨(BoostFileSystem.writeFile faults w.fs (w.memes.memePath id ++ "/views".toList)
          (toStr ((w.memes.viewCounts.lookup id).elim 1 CInt.succ))).2,
        { w.memes with viewCounts :=
            w.memes.viewCounts.insert id ((w.memes.viewCounts.lookup id).elim 1 CInt.succ) }⟩ := by
  rw [incrementViewCount]
  cases w.memes.viewCounts.lookup id <;> rfl

/-- The count and the rating after one more rating. -/
def rated (float : FloatArith F) (old : Option (CInt × F)) (rating : CInt) : CInt × F :=
  old.elim (1, float.ofInt rating) fun (count, mean) =>
    (count.succ, float.div (float.add (float.mul mean (float.ofInt count)) (float.ofInt rating))
      (float.ofInt count.succ))

/-- A rating is counted in memory and in its file. -/
lemma addRating_eq (rating : CInt) :
    addRating float faults id rating w =
      ⟨(BoostFileSystem.writeFile faults w.fs (w.memes.memePath id ++ "/ratings".toList)
          (toStr (rated float (w.memes.ratings.lookup id) rating).1 ++
            ',' :: float.toStr (rated float (w.memes.ratings.lookup id) rating).2)).2,
        { w.memes with ratings :=
            w.memes.ratings.insert id (rated float (w.memes.ratings.lookup id) rating) }⟩ := by
  rw [addRating]
  cases w.memes.ratings.lookup id <;> rfl

/-- Comments are on the disk only. -/
lemma memes_addComment (uuid : Str) (comment : Comment) :
    (addComment faults uuid id comment w).memes = w.memes := by
  simp only [addComment]
  split_ifs <;> rfl

/-- A meme that is there is seen by `get`, whatever comes of it. -/
lemma get_eq_ok {result : Option (Meme F)} {w' : MemeState F}
    (hexist : BoostFileSystem.exist w.fs (w.memes.memePath id) = true)
    (hdir : w.fs.isDirectory (w.memes.memePath id) = true)
    (h : get float tree faults id w = .ok (result, w')) :
    w' = incrementViewCount faults id w := by
  simp only [get, hexist, hdir, Bool.not_true, Bool.or_self, Bool.false_eq_true, if_false] at h
  split at h
  · cases h
  · cases h
    rfl
  · generalize Meme.make tree _ _ _ = made at h
    cases made <;> cases h
    rfl

/-- Whatever comes of it, `get` does nothing or counts a view. -/
lemma get_cases {result : Option (Meme F)} {w' : MemeState F}
    (h : get float tree faults id w = .ok (result, w')) :
    w' = w ∨ w' = incrementViewCount faults id w := by
  by_cases hfound : BoostFileSystem.exist w.fs (w.memes.memePath id) = true ∧
      w.fs.isDirectory (w.memes.memePath id) = true
  · exact Or.inr (get_eq_ok hfound.1 hfound.2 h)
  · have hmissing : (!BoostFileSystem.exist w.fs (w.memes.memePath id) ||
        !w.fs.isDirectory (w.memes.memePath id)) = true := by
      simpa only [Bool.or_eq_true, Bool.not_eq_true', ← Bool.not_eq_true, not_and_or] using hfound
    simp only [get, hmissing, if_true] at h
    cases h
    exact Or.inl rfl

/-- Whether or not a meme is made, an id is gone. -/
lemma memes_create (content : Str) :
    (create faults content w).2.memes = { w.memes with idCount := w.memes.idCount + 1 } := by
  simp only [create]
  generalize BoostFileSystem.createDirectory faults w.fs _ = made
  obtain ⟨status, fs⟩ := made
  cases status with
  | success =>
    simp only
    generalize BoostFileSystem.writeFile faults fs _ content = written
    obtain ⟨status, fs'⟩ := written
    cases status <;> rfl
  | not_found | conflict | error => rfl

/-- Creating a meme removes no directory. -/
lemma isDirectory_create {name : Str} (content : Str) (h : w.fs.isDirectory name = true) :
    (create faults content w).2.fs.isDirectory name = true := by
  simp only [create]
  have hmade : (BoostFileSystem.createDirectory faults w.fs
      (memePath { w.memes with idCount := w.memes.idCount + 1 }
        (w.memes.idCount + 1))).2.isDirectory name = true :=
    BoostFileSystem.isDirectory_createDirectory h
  generalize BoostFileSystem.createDirectory faults w.fs _ = made at hmade ⊢
  obtain ⟨status, fs⟩ := made
  cases status with
  | success =>
    simp only
    have hwritten : (BoostFileSystem.writeFile faults fs
        (memePath { w.memes with idCount := w.memes.idCount + 1 } (w.memes.idCount + 1) ++
          "/content".toList) content).2.isDirectory name = true :=
      (BoostFileSystem.isDirectory_writeFile name).trans hmade
    generalize BoostFileSystem.writeFile faults fs _ content = written at hwritten ⊢
    obtain ⟨status, fs'⟩ := written
    cases status <;> exact hwritten
  | not_found | conflict | error => exact hmade

end

end MemeModule

/-! ### Names of files -/

variable {F : Type}

lemma exists_of_resolve_memeFile {fs : FileSystem} {memes : MemeModule F} {id : MemeId} {n : Str}
    {q : List Str} (hn : PlainName n) (h : fs.resolve (memes.memePath id ++ '/' :: n) = some q) :
    ∃ r, q = r ++ [id.toStr, n] := by
  obtain ⟨p, hp, -, rfl⟩ :=
    FileSystem.isDir_of_resolve_append (MemeModule.memePath_ne_nil memes id) hn.2.1 h
  have hid := MemeId.plainName_toStr id
  obtain ⟨r, rfl⟩ := FileSystem.exists_stepName_of_resolve hid.2.1 hp
  rw [stepName_of_plain _ hn, stepName_of_plain _ hid]
  exact ⟨r, by simp⟩

/-- Different files of memes have different names. -/
lemma eq_of_resolve_memeFile {fs : FileSystem} {memes : MemeModule F} {id id' : MemeId} {n m : Str}
    {q : List Str} (hn : PlainName n) (hm : PlainName m)
    (hq : fs.resolve (memes.memePath id ++ '/' :: n) = some q)
    (hq' : fs.resolve (memes.memePath id' ++ '/' :: m) = some q) : id = id' ∧ n = m := by
  obtain ⟨r, rfl⟩ := exists_of_resolve_memeFile hn hq
  obtain ⟨r', hr'⟩ := exists_of_resolve_memeFile hm hq'
  have hpair : [id.toStr, n] = [id'.toStr, m] := List.append_inj_right' hr' rfl
  simp only [List.cons.injEq, and_true] at hpair
  exact ⟨MemeId.toStr_injective hpair.1, hpair.2⟩

lemma exists_of_resolve_comment {fs : FileSystem} {memes : MemeModule F} {id : MemeId} {n : Str}
    {q : List Str} (hn : PlainName n)
    (h : fs.resolve (memes.memePath id ++ '/' :: "comments".toList ++ '/' :: n) = some q) :
    ∃ r, q = r ++ ["comments".toList, n] := by
  obtain ⟨p, hp, -, rfl⟩ := FileSystem.isDir_of_resolve_append
    (List.append_ne_nil_of_left_ne_nil (MemeModule.memePath_ne_nil _ _) _) hn.2.1 h
  obtain ⟨r, rfl⟩ := exists_of_resolve_memeFile (by decide) hp
  rw [stepName_of_plain _ hn]
  exact ⟨r ++ [id.toStr], by simp⟩

/-- A directory of a meme is not called like one of comments. -/
lemma MemeId.toStr_ne_comments (id : MemeId) : id.toStr ≠ "comments".toList := by
  intro h
  have hmem : 'c' ∈ id.toStr := by
    rw [h]
    exact List.mem_cons_self
  exact absurd (isDigit_of_mem_toDigits hmem) (by decide)

/-- A comment is not called like a file of a meme. -/
lemma resolve_comment_ne {fs : FileSystem} {memes : MemeModule F} {id id' : MemeId} {n : Str}
    {q : List Str} (uuid : FileName) (hn : PlainName n)
    (hq : fs.resolve (memes.memePath id ++ '/' :: n) = some q) :
    fs.resolve (memes.memePath id' ++ '/' :: "comments".toList ++ '/' :: uuid.val) ≠ some q := by
  intro hq'
  obtain ⟨r, rfl⟩ := exists_of_resolve_memeFile hn hq
  obtain ⟨r', hr'⟩ := exists_of_resolve_comment uuid.2 hq'
  have hpair : [id.toStr, n] = ["comments".toList, uuid.val] := List.append_inj_right' hr' rfl
  exact id.toStr_ne_comments (List.cons.inj hpair).1

end SocialNetworkApp
