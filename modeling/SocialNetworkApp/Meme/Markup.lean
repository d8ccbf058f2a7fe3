import SocialNetworkApp.Core.Markup
import SocialNetworkApp.Meme.Refinement
import SocialNetworkApp.Meme.Requests

/-!
# The markup of a meme's page

The texts of a meme stand on its page as they are, kept apart by tags of the page. The markup of the
page is that of the texts between its own, so it is always the same for texts without tags, and for
these alone.
-/

namespace SocialNetworkApp

open SocialNetworkApp.Core

namespace MemeHandler

variable {F : Type} {location : Str} {meme meme' : Meme F}

/-! ### The parts of the page -/

/-- The pieces of the page before the texts. -/
def pageHead (location template : Str) : List Str :=
  [
    "<html>\n".toList, "<style>\n".toList,
    "body \x7b display: inline-block; position: relative; \x7d\n".toList,
    "span \x7b color: white; font: 2em bold Impact, sans-serif; position: absolute; ".toList,
    "text-align: center; width: 100%; \x7d\n".toList,
    "#top \x7b top: 0; color: blue;\x7d\n".toList,
    "#bottom \x7b bottom: 0; color: blue;\x7d\n".toList,
    "#subtitle \x7b".toList, "bottom: -100px; ".toList,
    "color: red; /* Choose your desired color */".toList, "font-size: 1.0em; ".toList,
    "\x7d".toList, "</style>\n".toList, "<body>\n".toList,
    "<img src=\"".toList, templateToUrl location template, "\">\n".toList, "<br/>\n".toList]

/-- What stands around the texts. -/
def openTop : Str := "<span id=\"top\">".toList

def closeTop : Str := "</span>\n".toList ++ "<span id=\"bottom\">".toList

def closeBottom : Str := "</span>\n".toList

/-- The pieces of the page behind them. -/
def pageTail (location : Str) (id viewCount : CInt) : List Str :=
  [
    "<a id=\"subtitle\" href = \"".toList, location, "/info/".toList, toStr id, "\">".toList,
    "Viewed by: ".toList, toStr viewCount, ". Click for more information< /a>\n".toList,
    "<span\n>\n".toList, "</body>\n".toList, "</html>\n".toList]

lemma displayPage_eq (location : Str) (id : CInt) (meme : Meme F) :
    displayPage location id meme =
      (pageHead location meme.template).flatten ++ openTop ++ meme.top ++ closeTop ++ meme.bottom ++
        (closeBottom ++ (pageTail location id meme.viewCount).flatten) := by
  -- for all pieces at once, so that no text of the page is evaluated
  have hpieces (head tail : List Str) (a b c d e f : Str) :
      List.flatten (head ++ a :: b :: c :: d :: e :: f :: tail) =
        head.flatten ++ a ++ b ++ (c ++ d) ++ e ++ (f ++ tail.flatten) := by
    simp only [List.flatten_append, List.flatten_cons, List.append_assoc]
  exact hpieces (pageHead location meme.template) (pageTail location id meme.viewCount) openTop
    meme.top "</span>\n".toList "<span id=\"bottom\">".toList meme.bottom closeBottom

/-! ### Its markup -/

/-- The tags of the page end behind it, whatever the text before was. -/
lemma markup_closeTop (inside : Bool) : markup inside closeTop = markup false closeTop := by
  cases inside <;> rfl

lemma endsInside_closeTop (inside : Bool) : endsInside inside closeTop = false := by
  cases inside <;> rfl

lemma endsInside_openTop (inside : Bool) : endsInside inside openTop = false := by
  cases inside <;> rfl

lemma markup_closeBottom_append (inside : Bool) (s : Str) :
    markup inside (closeBottom ++ s) = markup false (closeBottom ++ s) := by
  cases inside <;> rfl

/-- The markup of the two texts, with that of the page between them. -/
def textMarkup (top bottom : Str) : Str :=
  markup false top ++ markup false closeTop ++ markup false bottom

lemma markup_displayPage (location : Str) (id : CInt) (meme : Meme F) :
    markup false (displayPage location id meme) =
      markup false ((pageHead location meme.template).flatten ++ openTop) ++
        textMarkup meme.top meme.bottom ++
          markup false (closeBottom ++ (pageTail location id meme.viewCount).flatten) := by
  have hhead : endsInside false ((pageHead location meme.template).flatten ++ openTop) = false := by
    rw [endsInside_append, endsInside_openTop]
  rw [displayPage_eq]
  generalize (pageHead location meme.template).flatten ++ openTop = head at hhead ⊢
  rw [markup_append, markup_closeBottom_append, markup_append, endsInside_append,
    endsInside_closeTop, markup_append, markup_closeTop, markup_append, hhead, textMarkup]
  simp only [List.append_assoc]

/-- Two pages with the same picture, id and views differ in markup as their texts do. -/
lemma markup_displayPage_inj_iff {id : CInt} (htemplate : meme.template = meme'.template)
    (hviews : meme.viewCount = meme'.viewCount) :
    markup false (displayPage location id meme) = markup false (displayPage location id meme') ↔
      textMarkup meme.top meme.bottom = textMarkup meme'.top meme'.bottom := by
  rw [markup_displayPage, markup_displayPage, htemplate, hviews, List.append_cancel_right_eq,
    List.append_cancel_left_eq]

/-- Texts without tags have the markup of the page alone, and no other texts have. -/
lemma textMarkup_eq_closeTop_iff {top bottom : Str} :
    textMarkup top bottom = markup false closeTop ↔ Plain top ∧ Plain bottom := by
  constructor
  · intro h
    have hlength := congrArg List.length h
    rw [textMarkup, List.length_append, List.length_append] at hlength
    exact ⟨markup_false_eq_nil_iff.mp (List.length_eq_zero_iff.mp (by omega)),
      markup_false_eq_nil_iff.mp (List.length_eq_zero_iff.mp (by omega))⟩
  · rintro ⟨htop, hbottom⟩
    rw [textMarkup, markup_false_eq_nil_iff.mpr htop, markup_false_eq_nil_iff.mpr hbottom,
      List.nil_append, List.append_nil]

/-! ### Two memes at one id -/

/-- Two requests are answered with pages, and the markup of the pages is the same. -/
def SameMarkup (r r' : Except Exception (Reply (MemeState F))) : Prop :=
  ∃ reply reply', r = .ok reply ∧ r' = .ok reply' ∧ reply.status = .ok ∧ reply'.status = .ok ∧
    markup false reply.response.body = markup false reply'.response.body

variable {float : FloatArith F} {tree : PropertyTree F} {chance chance' : MemeChance}
  {req req' : Request} {w w' v v' : MemeState F} {id : CInt}

lemma sameMarkup_answer_iff (res res' : Response) {contentType page page' : Str} :
    SameMarkup (answer res .ok contentType page v) (answer res' .ok contentType page' v') ↔
      markup false page = markup false page' := by
  constructor
  · rintro ⟨reply, reply', hreply, hreply', -, -, hmarkup⟩
    cases hreply
    cases hreply'
    exact hmarkup
  · intro hmarkup
    exact ⟨_, _, rfl, rfl, rfl, rfl, hmarkup⟩

lemma handleGetMemeById_of_get (res : Response) (hid : stoi (possibleId req.target) = .ok id)
    (hget : MemeModule.get float tree chance.faults (MemeId.ofCInt id) w = .ok (some meme, v)) :
    handleGetMemeById float tree chance location req res w =
      answer res .ok "text/html".toList (displayPage location id meme) v := by
  rw [handleGetMemeById, readNumber_of_ok hid, ok_bind, hget]
  rfl

theorem handleGetMemeById_sameMarkup_iff (res res' : Response)
    (hid : stoi (possibleId req.target) = .ok id) (hid' : stoi (possibleId req'.target) = .ok id)
    (hget : MemeModule.get float tree chance.faults (MemeId.ofCInt id) w = .ok (some meme, v))
    (hget' : MemeModule.get float tree chance'.faults (MemeId.ofCInt id) w' = .ok (some meme', v'))
    (htemplate : meme.template = meme'.template) (hviews : meme.viewCount = meme'.viewCount) :
    (SameMarkup (handleGetMemeById float tree chance location req res w)
        (handleGetMemeById float tree chance' location req' res' w') ↔
      textMarkup meme.top meme.bottom = textMarkup meme'.top meme'.bottom) ∧
    (Plain meme'.top ∧ Plain meme'.bottom →
      (SameMarkup (handleGetMemeById float tree chance location req res w)
          (handleGetMemeById float tree chance' location req' res' w') ↔
        Plain meme.top ∧ Plain meme.bottom)) := by
  rw [handleGetMemeById_of_get res hid hget, handleGetMemeById_of_get res' hid' hget',
    sameMarkup_answer_iff, markup_displayPage_inj_iff htemplate hviews]
  refine ⟨Iff.rfl, fun hplain => ?_⟩
  rw [textMarkup_eq_closeTop_iff.mpr hplain, textMarkup_eq_closeTop_iff]

end MemeHandler

/-- A meme with a script for its top text. -/
def scriptMeme : Str :=
  "\x7b\"top\":\"<script>alert()</script>\",\"bottom\":\"b\",\"template\":\"c\"\x7d".toList

/-- Trees of this text and of the others. -/
def scriptTree {F : Type} : PropertyTree F where
  readJson content :=
    if content = scriptMeme then some fun key =>
      if key = "top".toList then some "<script>alert()</script>".toList
      else if key = "bottom".toList then some ['b']
      else if key = "template".toList then some ['c']
      else none
    else sampleTree.readJson (F := F) content
  writeInfo _ _ comments := comments.flatten

/-- The memes before anything is posted. -/
def noMemes : MemeState CInt := ⟨sampleDisk, ⟨['m'], 0, ∅, ∅⟩⟩

def postOf (content : Str) : Request := ⟨.post, "/m".toList, content, []⟩

def getFirst : Request := ⟨.get, "/m/1".toList, [], []⟩

/-- The meme `1`, once a text has been posted. -/
def PostedAs (content : Str) (w v : MemeState CInt) (meme : Meme CInt) : Prop :=
  MemeHandler.handleRequest wholeFloat scriptTree {} "/m".toList (postOf content) {} noMemes =
      .ok ⟨.created, MemeHandler.created 1, w⟩ ∧
    MemeModule.get wholeFloat scriptTree ({} : MemeChance).faults (MemeId.ofCInt 1) w =
      .ok (some meme, v)

lemma scriptMeme_posted : ∃ w v meme, PostedAs scriptMeme w v meme ∧ meme.template = ['c'] ∧
    meme.viewCount = 1 ∧ ¬ Plain meme.top :=
  ⟨_, _, _, ⟨rfl, rfl⟩, rfl, rfl, by decide⟩

lemma sampleMeme_posted : ∃ w v meme, PostedAs sampleMeme w v meme ∧ meme.template = ['c'] ∧
    meme.viewCount = 1 ∧ Plain meme.top ∧ Plain meme.bottom :=
  ⟨_, _, _, ⟨rfl, rfl⟩, rfl, rfl, by decide, by decide⟩

/-- The page of the meme `1`. -/
def firstPage (w : MemeState CInt) : Except Exception (Reply (MemeState CInt)) :=
  MemeHandler.handleGetMemeById wholeFloat scriptTree {} "/m".toList getFirst {} w

theorem handleGetMemeById_sameMarkup_iff_firstPage :
    ∃ w w' v v' meme meme', PostedAs scriptMeme w v meme ∧ PostedAs sampleMeme w' v' meme' ∧
      (MemeHandler.SameMarkup (firstPage w) (firstPage w') ↔
        MemeHandler.textMarkup meme.top meme.bottom =
          MemeHandler.textMarkup meme'.top meme'.bottom) ∧
      (MemeHandler.SameMarkup (firstPage w) (firstPage w') ↔
        Plain meme.top ∧ Plain meme.bottom) := by
  obtain ⟨w, v, meme, hposted, htemplate, hviews, -⟩ := scriptMeme_posted
  obtain ⟨w', v', meme', hposted', htemplate', hviews', hplain⟩ := sampleMeme_posted
  have hid : stoi (possibleId getFirst.target) = .ok 1 := rfl
  obtain ⟨hiff, hplain_iff⟩ := MemeHandler.handleGetMemeById_sameMarkup_iff {} {} hid hid hposted.2
    hposted'.2 (htemplate.trans htemplate'.symm) (hviews.trans hviews'.symm)
  exact ⟨w, w', v, v', meme, meme', hposted, hposted', hiff, hplain_iff hplain⟩

theorem scriptMeme_changes_markup :
    ∃ w w' v v' meme meme', PostedAs scriptMeme w v meme ∧ PostedAs sampleMeme w' v' meme' ∧
      meme.template = meme'.template ∧ meme.viewCount = meme'.viewCount ∧
      ¬ MemeHandler.SameMarkup (firstPage w) (firstPage w') := by
  obtain ⟨w, v, meme, hposted, htemplate, hviews, htop⟩ := scriptMeme_posted
  obtain ⟨w', v', meme', hposted', htemplate', hviews', hplain⟩ := sampleMeme_posted
  refine ⟨w, w', v, v', meme, meme', hposted, hposted', htemplate.trans htemplate'.symm,
    hviews.trans hviews'.symm, fun hsame => ?_⟩
  have hid : stoi (possibleId getFirst.target) = .ok 1 := rfl
  rw [firstPage, firstPage, MemeHandler.handleGetMemeById_of_get {} hid hposted.2,
    MemeHandler.handleGetMemeById_of_get {} hid hposted'.2, MemeHandler.sameMarkup_answer_iff,
    MemeHandler.markup_displayPage_inj_iff (htemplate.trans htemplate'.symm)
      (hviews.trans hviews'.symm), MemeHandler.textMarkup_eq_closeTop_iff.mpr hplain,
    MemeHandler.textMarkup_eq_closeTop_iff] at hsame
  exact htop hsame.1

end SocialNetworkApp
