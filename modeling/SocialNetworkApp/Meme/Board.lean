import SocialNetworkApp.Meme.Listing
import SocialNetworkApp.Meme.Requests
import SocialNetworkApp.Meme.Updates

/-!
# A board of memes

What the requests to the memes are for: memes are posted and get the ids from one on, they are
looked at, commented and rated, and the board can be listed. Ratings are counted for every id, also
before there is a meme of it.
-/

namespace SocialNetworkApp

open SocialNetworkApp.Core

/-- The memes that were posted, one after another, and the ratings of every id. -/
structure MemeBoard where
  memes : List MemeRecord
  given : MemeId → List CInt

namespace MemeBoard

def empty : MemeBoard := ⟨[], fun _ => []⟩

/-- Where the meme of an id stands on the board. -/
def slot (id : MemeId) : Nat := id.toNat - 1

/-- The memes by id. -/
def store (b : MemeBoard) : MemeStore := fun id => if id = 0 then none else b.memes[slot id]?

/-- The id of the next meme. -/
def next (b : MemeBoard) : MemeId := UInt32.ofNat (b.memes.length + 1)

/-! ### What can be done -/

def post (b : MemeBoard) (content : Str) : MemeBoard :=
  { b with memes := b.memes ++ [⟨content, 0, []⟩] }

/-- A change of the meme of an id, if there is one. -/
def change (b : MemeBoard) (id : MemeId) (f : MemeRecord → MemeRecord) : MemeBoard :=
  if id = 0 then b else { b with memes := b.memes.modify (slot id) f }

def view (b : MemeBoard) (id : MemeId) : MemeBoard :=
  b.change id fun m => { m with views := m.views + 1 }

def comment (b : MemeBoard) (id : MemeId) (uuid : Str) (comment : Comment) : MemeBoard :=
  b.change id fun m => { m with comments := m.comments ++ [(uuid, comment)] }

def rate (b : MemeBoard) (id : MemeId) (rating : CInt) : MemeBoard :=
  { b with given := Function.update b.given id (b.given id ++ [rating]) }

/-! ### What can be seen -/

/-- The views shown for an id; without any, `-1`. -/
def views (b : MemeBoard) (id : MemeId) : CInt :=
  ((b.store id).bind MemeRecord.count).getD (CInt.wrap (-1))

/-- What `add_rating` makes of the ratings of an id, one after another: their number, and the rating
in `float`s. -/
def ratings {F : Type} (float : FloatArith F) (b : MemeBoard) (id : MemeId) : Option (CInt × F) :=
  (b.given id).foldl (MemeUpdate.countRating float) none

/-- The rating shown for an id; without any, `-1`. -/
def rating {F : Type} (float : FloatArith F) (b : MemeBoard) (id : MemeId) : F :=
  ((b.ratings float id).map Prod.snd).getD (float.ofInt (CInt.wrap (-1)))

/-- The comments of an id. -/
def comments (b : MemeBoard) (id : MemeId) : List Comment :=
  (b.store id).elim [] fun m => m.comments.map Prod.snd

/-- The ids of the memes, each with its views. -/
def lines (b : MemeBoard) : List (CInt × CInt) :=
  (List.range b.memes.length).map fun k =>
    (CInt.wrap (k + 1), b.views (MemeId.ofCInt (CInt.wrap (k + 1))))

/-! ### Memes by id -/

variable {b : MemeBoard} {id : MemeId} {m : MemeRecord}

lemma toNat_eq_zero_iff : id.toNat = 0 ↔ id = 0 := UInt32.toNat_inj (b := 0)

/-- Different ids have different places. -/
lemma slot_injective {id' : MemeId} (hid : id ≠ 0) (hid' : id' ≠ 0) (h : slot id = slot id') :
    id = id' := by
  rw [slot, slot] at h
  rw [Ne, ← toNat_eq_zero_iff] at hid hid'
  rw [← UInt32.toNat_inj]
  omega

lemma store_eq_some_iff :
    b.store id = some m ↔ 1 ≤ id.toNat ∧ b.memes[id.toNat - 1]? = some m := by
  rw [store, slot]
  split_ifs with hid
  · simp [toNat_eq_zero_iff.mpr hid]
  · have hpos : 1 ≤ id.toNat :=
      Nat.one_le_iff_ne_zero.mpr fun h => hid (toNat_eq_zero_iff.mp h)
    simp [hpos]

lemma store_empty : empty.store = fun _ => none := by
  funext id
  simp [store, empty]

lemma toNat_next (h : b.memes.length < 2 ^ 31) : b.next.toNat = b.memes.length + 1 := by
  rw [next, UInt32.toNat_ofNat']
  omega

/-- A meme that is posted gets the next id. -/
lemma store_post (content : Str) (h : b.memes.length < 2 ^ 31) :
    (b.post content).store = b.store.create b.next content := by
  funext id
  have hnext := toNat_next h
  apply Option.ext
  intro m
  rw [store_eq_some_iff, MemeStore.create, Function.update_apply, post]
  by_cases hid : id = b.next
  · subst hid
    rw [if_pos rfl, hnext, Nat.add_sub_cancel, List.getElem?_concat_length]
    simp
  · have hne : id.toNat ≠ b.memes.length + 1 :=
      fun h => hid (UInt32.toNat_inj.mp (h.trans hnext.symm))
    rw [if_neg hid, store_eq_some_iff]
    refine and_congr_right fun hpos => ?_
    rw [List.getElem?_append]
    split_ifs with hlt
    · rfl
    · have hlt' : id.toNat - 1 - b.memes.length ≠ 0 := by omega
      rw [List.getElem?_eq_none (by simp; omega), List.getElem?_eq_none (by omega)]

lemma store_change (f : MemeRecord → MemeRecord) :
    (b.change id f).store = Function.update b.store id ((b.store id).map f) := by
  funext id'
  rw [Function.update_apply, change]
  by_cases hid : id = 0
  · rw [if_pos hid]
    split_ifs with hid'
    · rw [hid', hid]
      simp [store]
    · rfl
  · rw [if_neg hid]
    by_cases hid' : id' = id
    · subst hid'
      simp [store, hid]
    · rw [if_neg hid', store, store]
      split_ifs with hzero
      · rfl
      · have hslot : slot id ≠ slot id' := fun h => hid' (slot_injective hid hzero h).symm
        simp [hslot]

lemma store_view : (b.view id).store = b.store.view id := store_change _

lemma store_comment (uuid : Str) (comment : Comment) :
    (b.comment id uuid comment).store = b.store.comment id uuid comment := store_change _

lemma length_change (f : MemeRecord → MemeRecord) :
    (b.change id f).memes.length = b.memes.length := by
  rw [change]
  split_ifs
  · rfl
  · exact List.length_modify _ _ _

section

variable {F : Type} {float : FloatArith F}

lemma ratings_change (f : MemeRecord → MemeRecord) :
    (b.change id f).ratings float = b.ratings float := by
  rw [change]
  split_ifs <;> rfl

lemma rating_change (f : MemeRecord → MemeRecord) :
    (b.change id f).rating float = b.rating float := by
  funext id'
  rw [rating, ratings_change, rating]

lemma ratings_rate (id : MemeId) (r : CInt) (id' : MemeId) :
    (b.rate id r).ratings float id' =
      if id' = id then MemeUpdate.countRating float (b.ratings float id) r
      else b.ratings float id' := by
  rw [ratings, ratings, rate]
  by_cases hid : id' = id
  · simp [hid]
  · simp [hid, ratings]

end

/-! ### Requests -/

/-- A response with a body. -/
def page (status : Status) (contentType body : Str) : Response :=
  ({ result := status } : Response).fill contentType body

/-- A list of memes. -/
def listPage (location : Str) (lines : List (CInt × CInt)) : Str :=
  List.flatten [
    "<html> <style>".toList, "a:link \x7b".toList, "color: blue;".toList, "\x7d".toList,
    "a:hover \x7b".toList, "text-decoration: underline;".toList, "\x7d </style>".toList,
    "<body> <h2>List of memes</h2>".toList,
    lines.flatMap fun line => MemeHandler.printLine location line.1 line.2,
    "<a href=\"".toList, location, "/comment_form\">Post a comment".toList,
    "</body> </html>".toList]

/-- A request to the memes and the answer to it, with what was left to chance. -/
structure Exchange where
  request : Request
  chance : MemeChance
  status : Status
  response : Response

/-- The target is one of those that have a name. -/
def Named (location target : Str) : Prop :=
  target = location ++ "/creation_form".toList ∨ target = location ++ "/random".toList ∨
    target = location ++ "/all".toList ∨ target = location ++ "/comment_form".toList

/-- The target is a number below one of the places that take one. -/
def Numbered {F : Type} (float : FloatArith F) (location target : Str) : Prop :=
  (∃ n, stoi (possibleId target) = .ok n ∧
    (MemeHandler.upToLastSlash target = location ++ "/".toList ∨
      MemeHandler.upToLastSlash target = location ++ "/info/".toList ∨
      MemeHandler.upToLastSlash target = location ++ "/get_by_views/".toList)) ∨
  ∃ x, float.stof (possibleId target) = .ok x ∧
    MemeHandler.upToLastSlash target = location ++ "/get_by_rating/".toList

section

variable {F : Type} (float : FloatArith F) (tree : PropertyTree F) (location : Str)

/-- What the board answers to a request of a location, and what becomes of it. -/
inductive Serves (b : MemeBoard) : Exchange → MemeBoard → Prop
  | posted {req : Request} (chance : MemeChance) (hmethod : req.method = .post)
      (htarget : req.target = location) (hbody : Meme.Parses tree req.body) :
      Serves b ⟨req, chance, .created, MemeHandler.created b.next⟩ (b.post req.body)
  | commented {req : Request} {comment : Comment} {n rating : CInt} (chance : MemeChance)
      (hmethod : req.method = .post) (htarget : req.target = location ++ "/comment".toList)
      (hbody : Comment.make tree req.body = .ok comment) (hn : stoi comment.id = .ok n)
      (hrating : stoi comment.rating = .ok rating) :
      Serves b ⟨req, chance, .created,
          page .created "text/plain".toList "Successfully posted comment.".toList⟩
        ((b.rate (MemeId.ofCInt n) rating).comment (MemeId.ofCInt n) chance.uuid comment)
  | notCommented {req : Request} {comment : Comment} (chance : MemeChance)
      (hmethod : req.method = .post) (htarget : req.target = location ++ "/comment".toList)
      (hbody : Comment.make tree req.body = .ok comment)
      (hnumber : stoi comment.id = .error .invalidArgument ∨
        Succeeds (stoi comment.id) ∧ stoi comment.rating = .error .invalidArgument) :
      Serves b ⟨req, chance, .not_found, {}⟩ b
  | notPosted {req : Request} (chance : MemeChance) (hmethod : req.method = .post)
      (htarget : req.target ≠ location) (hcomment : req.target ≠ location ++ "/comment".toList) :
      Serves b ⟨req, chance, .not_found, {}⟩ b
  | creationForm {req : Request} (chance : MemeChance) (hmethod : req.method = .get)
      (htarget : req.target = location ++ "/creation_form".toList) :
      Serves b ⟨req, chance, .ok,
        page .ok "text/html".toList (MemeHandler.creationForm location)⟩ b
  | commentForm {req : Request} (chance : MemeChance) (hmethod : req.method = .get)
      (htarget : req.target = location ++ "/comment_form".toList) :
      Serves b ⟨req, chance, .ok,
        page .ok "text/html".toList (MemeHandler.commentForm location)⟩ b
  | nothingRandom {req : Request} (chance : MemeChance) (hmethod : req.method = .get)
      (htarget : req.target = location ++ "/random".toList) (hempty : b.memes = []) :
      Serves b ⟨req, chance, .bad_request, {}⟩ b
  | random {req : Request} {m : MemeRecord} (chance : MemeChance) (hmethod : req.method = .get)
      (htarget : req.target = location ++ "/random".toList)
      (hm : b.memes[chance.random % b.memes.length]? = some m) :
      Serves b ⟨req, chance, .ok, page .ok "text/html".toList m.content⟩
        (b.view (UInt32.ofNat (chance.random % b.memes.length + 1)))
  | all {req : Request} (chance : MemeChance) (hmethod : req.method = .get)
      (htarget : req.target = location ++ "/all".toList) :
      Serves b ⟨req, chance, .ok, page .ok "text/html".toList (listPage location b.lines)⟩ b
  | byId {req : Request} {n : CInt} {m : MemeRecord} {meme : Meme F} (chance : MemeChance)
      (hmethod : req.method = .get) (hn : stoi (possibleId req.target) = .ok n)
      (htarget : MemeHandler.upToLastSlash req.target = location ++ "/".toList)
      (hm : b.store (MemeId.ofCInt n) = some m)
      (hmeme : Meme.make tree m.content (CInt.wrap (m.views + 1 : Nat))
        (b.rating float (MemeId.ofCInt n)) = .ok meme) :
      Serves b ⟨req, chance, .ok,
          page .ok "text/html".toList (MemeHandler.displayPage location n meme)⟩
        (b.view (MemeId.ofCInt n))
  | noId {req : Request} {n : CInt} (chance : MemeChance)
      (hmethod : req.method = .get) (hn : stoi (possibleId req.target) = .ok n)
      (htarget : MemeHandler.upToLastSlash req.target = location ++ "/".toList)
      (hm : b.store (MemeId.ofCInt n) = none) :
      Serves b ⟨req, chance, .internal_server_error, {}⟩ b
  | info {req : Request} {n : CInt} {comments : List Comment} (chance : MemeChance)
      (hmethod : req.method = .get) (hn : stoi (possibleId req.target) = .ok n)
      (htarget : MemeHandler.upToLastSlash req.target = location ++ "/info/".toList)
      (hcomments : comments.Perm (b.comments (MemeId.ofCInt n))) :
      Serves b ⟨req, chance, .ok, page .ok "application/json".toList
        (tree.writeInfo (b.views (MemeId.ofCInt n)) (b.rating float (MemeId.ofCInt n))
          (comments.map Comment.comment))⟩ b
  | byViews {req : Request} {n : CInt} (chance : MemeChance)
      (hmethod : req.method = .get) (hn : stoi (possibleId req.target) = .ok n)
      (htarget : MemeHandler.upToLastSlash req.target = location ++ "/get_by_views/".toList) :
      Serves b ⟨req, chance, .ok, page .ok "text/html".toList
        (listPage location (b.lines.filter fun line => n < line.2))⟩ b
  | byRating {req : Request} {x : F} (chance : MemeChance)
      (hmethod : req.method = .get) (hx : float.stof (possibleId req.target) = .ok x)
      (htarget : MemeHandler.upToLastSlash req.target = location ++ "/get_by_rating/".toList) :
      Serves b ⟨req, chance, .ok, page .ok "text/html".toList (listPage location
        (b.lines.filter fun line => float.gt (b.rating float (MemeId.ofCInt line.1)) x))⟩ b
  | unknown {req : Request} (chance : MemeChance) (hmethod : req.method = .get)
      (hnamed : ¬ Named location req.target) (hnumbered : ¬ Numbered float location req.target) :
      Serves b ⟨req, chance, .not_found, {}⟩ b
  | otherMethod {req : Request} (chance : MemeChance) (hget : req.method ≠ .get)
      (hpost : req.method ≠ .post) : Serves b ⟨req, chance, .not_found, {}⟩ b

end

end MemeBoard

end SocialNetworkApp
