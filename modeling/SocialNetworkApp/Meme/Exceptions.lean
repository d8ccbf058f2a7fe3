import SocialNetworkApp.Core.Returns
import SocialNetworkApp.Meme.Handler

/-!
# Exceptions of meme requests

A request is answered unless a text it must parse is no JSON with the fields that are looked up, a
number on its way is too large, or a directory stands where a file is read. Of the exceptions of the
conversions only `std::invalid_argument` is caught, and those of the property trees never are.
-/

namespace SocialNetworkApp

open SocialNetworkApp.Core

variable {F : Type} {float : FloatArith F} {tree : PropertyTree F} {faults : StorageFaults}
  {fs : FileSystem} {path : Str} {id : MemeId} {w : MemeState F}

/-! ### Reading files -/

/-- What opening a file for reading gives, with the failures. -/
def StorageFaults.openRead (faults : StorageFaults) (fs : FileSystem) (path : Str) : OpenRead :=
  if faults.opening path then .closed else fs.openRead path

lemma BoostFileSystem.readFile_eq :
    readFile faults fs path =
      match faults.openRead fs path with
      | .closed => .ok (if exist fs path then .error else .not_found, [])
      | .directory => .error .iosFailure
      | .contents content => .ok (.success, content) := by
  unfold readFile StorageFaults.openRead
  cases hexist : exist fs path with
  | true =>
    generalize (if faults.opening path = true then OpenRead.closed else fs.openRead path) = opened
    cases opened <;> rfl
  | false =>
    simp only [FileSystem.openRead_of_not_pathExists hexist, ite_self, Bool.not_false, if_true,
      Bool.false_eq_true, if_false]

/-! ### Memes and comments -/

/-- The constructor of `Meme` finds its fields. -/
def Meme.Parses (tree : PropertyTree F) (content : Str) : Prop :=
  Succeeds (readThree tree content "top".toList "bottom".toList "template".toList)

/-- The constructor of `Comment` finds its fields. -/
def Comment.Parses (tree : PropertyTree F) (content : Str) : Prop :=
  Succeeds (readThree tree content "comment".toList "id".toList "rating".toList)

lemma succeeds_meme_make_iff {content : Str} {views : CInt} {rating : F} :
    Succeeds (Meme.make tree content views rating) ↔ Meme.Parses tree content :=
  succeeds_map_iff

lemma succeeds_comment_make_iff {content : Str} :
    Succeeds (Comment.make tree content) ↔ Comment.Parses tree content :=
  succeeds_map_iff

namespace MemeModule

/-- Writing the views of a meme leaves its other files alone. -/
lemma openRead_incrementViewCount {name : Str} (hname : PlainName name) (hne : name ≠ "views".toList)
    (hdir : w.fs.isDirectory (w.memes.memePath id) = true) :
    (incrementViewCount faults id w).fs.openRead (w.memes.memePath id ++ '/' :: name) =
      w.fs.openRead (w.memes.memePath id ++ '/' :: name) := by
  simp only [incrementViewCount, BoostFileSystem.writeFile]
  split
  · rename_i fs' hwrite
    split_ifs at hwrite
    obtain ⟨p, hp, hnot, hsets⟩ := FileSystem.writeFile_eq_some hwrite
    obtain ⟨q, hq, hqdir⟩ := FileSystem.isDirectory_eq_true hdir
    have hviews : PlainName "views".toList := by decide
    have hp' := FileSystem.resolve_below hq hqdir hviews.2.1
    rw [stepName_of_plain q hviews] at hp'
    obtain rfl : q ++ ["views".toList] = p := Option.some.inj (hp'.symm.trans hp)
    have hname' := FileSystem.resolve_below hq hqdir hname.2.1
    rw [stepName_of_plain q hname] at hname'
    refine hsets.openRead_ne (fun h => absurd h hnot) hname' ?_
    simpa using hne
  · rfl

lemma getContent_eq :
    getContent faults id w =
      match faults.openRead w.fs (w.memes.memePath id ++ "/content".toList) with
      | .closed => .ok []
      | .directory => .error .iosFailure
      | .contents content => .ok content := by
  rw [getContent, BoostFileSystem.readFile_eq]
  generalize w.memes.memePath id ++ "/content".toList = path
  cases faults.openRead w.fs path with
  | closed => cases BoostFileSystem.exist w.fs path <;> rfl
  | directory => rfl
  | contents content => rfl

/-- The content of a meme can be read, if its directory is there, and parsed, if it is not empty. -/
def GetSafe (tree : PropertyTree F) (faults : StorageFaults) (id : MemeId) (w : MemeState F) : Prop :=
  w.fs.isDirectory (w.memes.memePath id) = true →
    faults.openRead w.fs (w.memes.memePath id ++ "/content".toList) ≠ .directory ∧
    ∀ content, faults.openRead w.fs (w.memes.memePath id ++ "/content".toList) = .contents content →
      content ≠ [] → Meme.Parses tree content

/-- What `get` returns where there is a directory; the view is counted in any case. -/
lemma get_of_isDirectory (hdir : w.fs.isDirectory (w.memes.memePath id) = true) :
    get float tree faults id w =
      match faults.openRead w.fs (w.memes.memePath id ++ "/content".toList) with
      | .closed => .ok (none, incrementViewCount faults id w)
      | .directory => .error .iosFailure
      | .contents [] => .ok (none, incrementViewCount faults id w)
      | .contents content =>
        (Meme.make tree content ((incrementViewCount faults id w).memes.getViewCount id)
          ((incrementViewCount faults id w).memes.getRating float id)).map
            fun made => (some made, incrementViewCount faults id w) := by
  have hexist : BoostFileSystem.exist w.fs (w.memes.memePath id) = true :=
    FileSystem.pathExists_of_isDirectory hdir
  have hread : faults.openRead (incrementViewCount faults id w).fs
        ((incrementViewCount faults id w).memes.memePath id ++ "/content".toList) =
      faults.openRead w.fs (w.memes.memePath id ++ "/content".toList) := by
    unfold StorageFaults.openRead
    exact if_congr Iff.rfl rfl
      (@openRead_incrementViewCount _ faults id w "content".toList (by decide) (by decide) hdir)
  simp only [get, hexist, hdir, Bool.not_true, Bool.or_self, Bool.false_eq_true, if_false,
    getContent_eq, hread]
  cases faults.openRead w.fs (w.memes.memePath id ++ "/content".toList) with
  | closed => rfl
  | directory => rfl
  | contents content => cases content <;> rfl

lemma succeeds_get_iff : Succeeds (get float tree faults id w) ↔ GetSafe tree faults id w := by
  unfold GetSafe
  cases hdir : w.fs.isDirectory (w.memes.memePath id) with
  | false =>
    refine iff_of_true ?_ fun h => absurd h Bool.false_ne_true
    simp only [get, hdir, Bool.not_false, Bool.or_true, if_true, succeeds_ok]
  | true =>
    simp only [get_of_isDirectory hdir, forall_const]
    cases faults.openRead w.fs (w.memes.memePath id ++ "/content".toList) with
    | closed => simp
    | directory => simp
    | contents content =>
      cases content with
      | nil => simp
      | cons c cs => simp [succeeds_meme_make_iff]

/-- The comments of a meme can be read and parsed. -/
def CommentsSafe (tree : PropertyTree F) (faults : StorageFaults) (id : MemeId) (w : MemeState F) :
    Prop :=
  let commentPath := w.memes.memePath id ++ "/comments".toList
  w.fs.isDirectory commentPath = true → ∀ name ∈ w.fs.entries commentPath,
    faults.openRead w.fs (commentPath ++ '/' :: name) ≠ .directory ∧
    ∀ content, faults.openRead w.fs (commentPath ++ '/' :: name) = .contents content →
      Comment.Parses tree content

/-- What lies in a directory of a meme lies in a meme. -/
lemma exist_of_isDirectory {name : Str} (hname : '/' ∉ name)
    (h : w.fs.isDirectory (w.memes.memePath id ++ '/' :: name) = true) :
    BoostFileSystem.exist w.fs (w.memes.memePath id) = true := by
  obtain ⟨p, hp, -⟩ := FileSystem.isDirectory_eq_true h
  obtain ⟨q, hq, hqdir, -⟩ :=
    FileSystem.isDir_of_resolve_append (memePath_ne_nil w.memes id) hname hp
  rw [BoostFileSystem.exist, FileSystem.pathExists_of_resolve hq,
    show w.fs.tree.node q = some .dir from hqdir]
  rfl

lemma succeeds_getComments_iff :
    Succeeds (getComments tree faults id w) ↔ CommentsSafe tree faults id w := by
  have hmeme : w.fs.isDirectory (w.memes.memePath id ++ "/comments".toList) = true →
      BoostFileSystem.exist w.fs (w.memes.memePath id) = true :=
    @exist_of_isDirectory _ id w "comments".toList (by decide)
  simp only [getComments, CommentsSafe]
  generalize w.memes.memePath id ++ "/comments".toList = commentPath at hmeme ⊢
  cases hdir : w.fs.isDirectory commentPath with
  | false =>
    refine iff_of_true ?_ fun h => absurd h Bool.false_ne_true
    simp only [Bool.not_false, Bool.or_true, if_true, ite_self, succeeds_ok]
  | true =>
    have hexist : BoostFileSystem.exist w.fs commentPath = true :=
      FileSystem.pathExists_of_isDirectory hdir
    simp only [hmeme hdir, hexist, Bool.not_true, Bool.false_eq_true, Bool.or_self, if_false,
      forall_const]
    refine succeeds_foldlM_iff ?_ _ _
    intro comments name
    rw [BoostFileSystem.readFile_eq]
    cases faults.openRead w.fs (commentPath ++ '/' :: name) with
    | closed =>
      refine iff_of_true ?_ ⟨by simp, by simp⟩
      cases BoostFileSystem.exist w.fs (commentPath ++ '/' :: name) <;> exact succeeds_ok _
    | directory => simp
    | contents content => simp [succeeds_comment_make_iff]

end MemeModule

/-! ### Requests -/

/-- The constructor of `Comment` finds its fields, and no number among them is too large; the rating
is not looked at if the id is no number. -/
def Comment.Fits (tree : PropertyTree F) (body : Str) : Prop :=
  ∃ comment, Comment.make tree body = .ok comment ∧ stoi comment.id ≠ .error .outOfRange ∧
    ∀ id, stoi comment.id = .ok id → stoi comment.rating ≠ .error .outOfRange

namespace MemeHandler

/-- Everything the request makes the handler parse or read can be parsed and read. -/
def Fits (float : FloatArith F) (tree : PropertyTree F) (chance : MemeChance) (location : Str)
    (req : Request) (w : MemeState F) : Prop :=
  let target := req.target
  match req.method with
  | .post =>
    if target = location ++ "/comment".toList then Comment.Fits tree req.body
    else target = location → Meme.Parses tree req.body
  | .get =>
    if target = location ++ "/creation_form".toList then True
    else if target = location ++ "/random".toList then
      w.memes.getMemeCount ≠ 0 → MemeModule.GetSafe tree chance.faults
        (MemeId.ofCInt (CInt.wrap (Int.tmod chance.random w.memes.getMemeCount.val + 1))) w
    else if target = location ++ "/all".toList then True
    else
      let smallFloat := float.stof (possibleId target) ≠ .error .outOfRange
      match stoi (possibleId target) with
      | .error .outOfRange => False
      | .error .invalidArgument => target = location ++ "/comment_form".toList ∨ smallFloat
      | .ok id =>
        if upToLastSlash target = location ++ "/".toList then
          MemeModule.GetSafe tree chance.faults (MemeId.ofCInt id) w
        else if upToLastSlash target = location ++ "/info/".toList then
          MemeModule.CommentsSafe tree chance.faults (MemeId.ofCInt id) w
        else
          target = location ++ "/comment_form".toList ∨
            upToLastSlash target = location ++ "/get_by_views/".toList ∨ smallFloat
  | _ => True

variable {chance : MemeChance} {location : Str} {req : Request} {res : Response}

lemma succeeds_handlePostMeme_iff :
    Succeeds (handlePostMeme float tree chance req res w) ↔ Meme.Parses tree req.body := by
  refine (succeeds_bind_of_forall ?_).trans succeeds_meme_make_iff
  intro meme
  obtain ⟨made, w'⟩ := MemeModule.create chance.faults meme.content w
  cases made <;> exact succeeds_ok _

lemma succeeds_handlePostComment_iff :
    Succeeds (handlePostComment float tree chance req res w) ↔ Comment.Fits tree req.body := by
  refine succeeds_bind_iff.trans (exists_congr fun comment => and_congr_right fun _ => ?_)
  cases stoi comment.id with
  | error e => cases e <;> simp [fail]
  | ok id =>
    simp only
    cases stoi comment.rating with
    | error e => cases e <;> simp [fail]
    | ok rating => simp [answer]

lemma succeeds_handlePost_iff :
    Succeeds (handlePost float tree chance location req res w) ↔
      if req.target = location ++ "/comment".toList then Comment.Fits tree req.body
      else req.target = location → Meme.Parses tree req.body := by
  unfold handlePost
  by_cases hcomment : req.target = location ++ "/comment".toList
  · rw [if_neg (by rw [hcomment, findStr_self_append]; simp), if_pos hcomment, if_pos hcomment]
    exact succeeds_handlePostComment_iff
  · rw [if_neg hcomment, if_neg hcomment]
    by_cases hmeme : req.target = location
    · have hfound := findStr_self_append location []
      rw [List.append_nil] at hfound
      rw [if_neg (by rw [hmeme, hfound]; simp), if_pos hmeme, forall_prop_of_true hmeme]
      exact succeeds_handlePostMeme_iff
    · rw [if_neg hmeme, ite_self]
      exact iff_of_true (succeeds_ok _) fun h => absurd h hmeme

lemma succeeds_handleGetRandomMeme_iff :
    Succeeds (handleGetRandomMeme float tree chance res w) ↔
      (w.memes.getMemeCount ≠ 0 → MemeModule.GetSafe tree chance.faults
        (MemeId.ofCInt (CInt.wrap (Int.tmod chance.random w.memes.getMemeCount.val + 1))) w) := by
  unfold handleGetRandomMeme
  simp only
  split_ifs with hcount
  · exact iff_of_true (succeeds_ok _) fun h => absurd hcount h
  · rw [forall_prop_of_true hcount]
    refine (succeeds_bind_of_forall ?_).trans MemeModule.succeeds_get_iff
    rintro ⟨_ | meme, w'⟩ <;> exact succeeds_ok _

lemma readNumber_of_ok {N : Type} {read : Str → Except NumError N} {target : Str} {n : N}
    (h : read (possibleId target) = .ok n) : readNumber read target = .ok n := by
  rw [readNumber, h]

lemma succeeds_handleGetMemeById_iff {id : CInt} (hid : stoi (possibleId req.target) = .ok id) :
    Succeeds (handleGetMemeById float tree chance location req res w) ↔
      MemeModule.GetSafe tree chance.faults (MemeId.ofCInt id) w := by
  rw [handleGetMemeById, readNumber_of_ok hid, ok_bind]
  refine (succeeds_bind_of_forall ?_).trans MemeModule.succeeds_get_iff
  rintro ⟨_ | meme, w'⟩ <;> exact succeeds_ok _

lemma succeeds_handleGetOtherInfoById_iff {id : CInt}
    (hid : stoi (possibleId req.target) = .ok id) :
    Succeeds (handleGetOtherInfoById float tree chance req res w) ↔
      MemeModule.CommentsSafe tree chance.faults (MemeId.ofCInt id) w := by
  rw [handleGetOtherInfoById, readNumber_of_ok hid, ok_bind]
  exact (succeeds_bind_of_forall fun _ => succeeds_ok _).trans MemeModule.succeeds_getComments_iff

lemma succeeds_handleGetMemeByViews {id : CInt} (hid : stoi (possibleId req.target) = .ok id) :
    Succeeds (handleGetMemeByViews location req res w) := by
  rw [handleGetMemeByViews, readNumber_of_ok hid, ok_bind]
  exact succeeds_ok _

lemma succeeds_handleGetMemeByRating {rating : F}
    (hrating : float.stof (possibleId req.target) = .ok rating) :
    Succeeds (handleGetMemeByRating float location req res w) := by
  rw [handleGetMemeByRating, readNumber_of_ok hrating, ok_bind]
  exact succeeds_ok _

lemma succeeds_handlePostCommentForm :
    Succeeds (handlePostCommentForm location req res w) := by
  unfold handlePostCommentForm
  split_ifs <;> exact succeeds_ok _

/-- The last of the routes. -/
lemma succeeds_ratingRoute_iff :
    Succeeds (do
      if ← checkFormatFloating float req.target (location ++ "/get_by_rating/".toList) then
        handleGetMemeByRating float location req res w
      else fail res .not_found w) ↔
      float.stof (possibleId req.target) ≠ .error .outOfRange := by
  unfold checkFormatFloating checkNumber
  cases hrating : float.stof (possibleId req.target) with
  | error e => cases e <;> simp [fail]
  | ok rating =>
    refine iff_of_true ?_ (by simp)
    rw [ok_bind]
    split_ifs
    · exact succeeds_handleGetMemeByRating hrating
    · exact succeeds_ok _

/-- The routes behind those of fixed targets, where the target ends in no number. -/
lemma succeeds_handleGet_iff_of_invalid (hid : stoi (possibleId req.target) = .error .invalidArgument)
    (hform : req.target ≠ location ++ "/creation_form".toList)
    (hrandom : req.target ≠ location ++ "/random".toList)
    (hall : req.target ≠ location ++ "/all".toList) :
    Succeeds (handleGet float tree chance location req res w) ↔
      req.target = location ++ "/comment_form".toList ∨
        float.stof (possibleId req.target) ≠ .error .outOfRange := by
  have hformat : ∀ url, checkFormat req.target url = .ok false := by
    intro url
    rw [checkFormat, checkNumber, hid]
  rw [handleGet, if_neg hform, if_neg hrandom, if_neg hall]
  simp only [hformat, ok_bind, Bool.false_eq_true, if_false]
  split_ifs with hcomment
  · exact iff_of_true succeeds_handlePostCommentForm (Or.inl hcomment)
  · rw [succeeds_ratingRoute_iff, or_iff_right hcomment]

/-- The same, where it ends in the number `id`. -/
lemma succeeds_handleGet_iff_of_ok {id : CInt} (hid : stoi (possibleId req.target) = .ok id)
    (hform : req.target ≠ location ++ "/creation_form".toList)
    (hrandom : req.target ≠ location ++ "/random".toList)
    (hall : req.target ≠ location ++ "/all".toList) :
    Succeeds (handleGet float tree chance location req res w) ↔
      if upToLastSlash req.target = location ++ "/".toList then
        MemeModule.GetSafe tree chance.faults (MemeId.ofCInt id) w
      else if upToLastSlash req.target = location ++ "/info/".toList then
        MemeModule.CommentsSafe tree chance.faults (MemeId.ofCInt id) w
      else
        req.target = location ++ "/comment_form".toList ∨
          upToLastSlash req.target = location ++ "/get_by_views/".toList ∨
            float.stof (possibleId req.target) ≠ .error .outOfRange := by
  have hformat : ∀ url, checkFormat req.target url = .ok (decide (upToLastSlash req.target = url)) := by
    intro url
    rw [checkFormat, checkNumber, hid]
  rw [handleGet, if_neg hform, if_neg hrandom, if_neg hall]
  simp only [hformat, ok_bind, decide_eq_true_eq]
  split_ifs with hget hinfo hcomment hviews
  · exact succeeds_handleGetMemeById_iff hid
  · exact succeeds_handleGetOtherInfoById_iff hid
  · exact iff_of_true succeeds_handlePostCommentForm (Or.inl hcomment)
  · exact iff_of_true (succeeds_handleGetMemeByViews hid) (Or.inr (Or.inl hviews))
  · rw [succeeds_ratingRoute_iff, or_iff_right hcomment, or_iff_right hviews]

/-- A target that ends in a number too large for an `int` ends in no route. -/
lemma not_succeeds_handleGet_of_outOfRange
    (hid : stoi (possibleId req.target) = .error .outOfRange)
    (hform : req.target ≠ location ++ "/creation_form".toList)
    (hrandom : req.target ≠ location ++ "/random".toList)
    (hall : req.target ≠ location ++ "/all".toList) :
    ¬ Succeeds (handleGet float tree chance location req res w) := by
  have hformat : checkFormat req.target (location ++ "/".toList) = .error (.number .outOfRange) := by
    rw [checkFormat, checkNumber, hid]
  rw [handleGet, if_neg hform, if_neg hrandom, if_neg hall, hformat]
  exact not_succeeds_error _

/-- A request is answered exactly when everything it makes the handler parse or read can be parsed
and read. -/
theorem handleRequest_returns_iff {F : Type} (float : FloatArith F) (tree : PropertyTree F)
    (chance : MemeChance) (location : Str) (req : Request) (res : Response) (w : MemeState F) :
    (∃ reply, handleRequest float tree chance location req res w = .ok reply) ↔
      Fits float tree chance location req w := by
  change Succeeds _ ↔ _
  simp only [handleRequest, Fits]
  cases req.method with
  | post => exact succeeds_handlePost_iff
  | put => exact iff_of_true (succeeds_ok _) trivial
  | delete_ => exact iff_of_true (succeeds_ok _) trivial
  | other name => exact iff_of_true (succeeds_ok _) trivial
  | get =>
    simp only
    by_cases hform : req.target = location ++ "/creation_form".toList
    · rw [if_pos hform, handleGet, if_pos hform, handleCreationForm, if_neg (not_not.mpr hform)]
      exact iff_of_true (succeeds_ok _) trivial
    by_cases hrandom : req.target = location ++ "/random".toList
    · rw [if_neg hform, if_pos hrandom, handleGet, if_neg hform, if_pos hrandom]
      exact succeeds_handleGetRandomMeme_iff
    by_cases hall : req.target = location ++ "/all".toList
    · rw [if_neg hform, if_neg hrandom, if_pos hall, handleGet, if_neg hform, if_neg hrandom,
        if_pos hall]
      exact iff_of_true (succeeds_ok _) trivial
    rw [if_neg hform, if_neg hrandom, if_neg hall]
    cases hid : stoi (possibleId req.target) with
    | ok id => exact succeeds_handleGet_iff_of_ok hid hform hrandom hall
    | error e =>
      cases e with
      | invalidArgument => exact succeeds_handleGet_iff_of_invalid hid hform hrandom hall
      | outOfRange =>
        exact iff_of_false (not_succeeds_handleGet_of_outOfRange hid hform hrandom hall) id

/-- A `GET` of an id that does not fit an `int` throws, whatever memes there are. -/
lemma handleRequest_outOfRange (chance : MemeChance) (res : Response) (w : MemeState F) :
    handleRequest float tree chance "/m".toList ⟨.get, "/m/99999999999".toList, [], []⟩ res w =
      .error (.number .outOfRange) := rfl

/-- Such a request is not answered. -/
theorem handleRequest_throws :
    ¬ ∀ (F : Type) (float : FloatArith F) (tree : PropertyTree F) (chance : MemeChance)
      (res : Response) (w : MemeState F), ∃ reply,
        handleRequest float tree chance "/m".toList ⟨.get, "/m/99999999999".toList, [], []⟩ res w =
          .ok reply := by
  intro h
  obtain ⟨reply, hreply⟩ := h Unit
    ⟨fun _ => (), fun _ _ => (), fun _ _ => (), fun _ _ => (), fun _ _ => false,
      fun _ => .error .invalidArgument, fun _ => []⟩
    ⟨fun _ => none, fun _ _ _ => []⟩ {} {} ⟨⟨FileTree.bare, []⟩, ⟨"m".toList, 0, ∅, ∅⟩⟩
  rw [handleRequest_outOfRange] at hreply
  cases hreply

end MemeHandler

end SocialNetworkApp
