import SocialNetworkApp.Meme.Exceptions

/-!
# Posting a meme and asking for it

What the handler answers to the two requests, given what the calls of its module return.
-/

namespace SocialNetworkApp

open SocialNetworkApp.Core

namespace MemeHandler

/-- The answer to a meme that was created. -/
def created (id : MemeId) : Response :=
  ({ result := .created } : Response).fill "text/plain".toList
    ("Successfully created meme ".toList ++ id.toStr ++ ['.'])

lemma created_injective : Function.Injective created := by
  intro id id' h
  have hbody := congrArg Response.body h
  simp only [created, Response.body_fill, List.append_cancel_left_eq,
    List.append_cancel_right_eq] at hbody
  exact MemeId.toStr_injective hbody

variable {F : Type} {float : FloatArith F} {tree : PropertyTree F} {chance : MemeChance}
  {location : Str} {req : Request} {w w' : MemeState F}

/-! ### Posting a meme -/

lemma handleRequest_post (res : Response) (hmethod : req.method = .post)
    (htarget : req.target = location) :
    handleRequest float tree chance location req res w =
      handlePostMeme float tree chance req res w := by
  have hfound := findStr_self_append location []
  rw [List.append_nil] at hfound
  have hcomment : location ≠ location ++ "/comment".toList := by
    intro h
    have hlength := congrArg List.length h
    rw [List.length_append] at hlength
    simp at hlength
  rw [handleRequest, hmethod]
  simp only [handlePost, htarget, hfound, if_neg hcomment, if_true]
  rw [if_neg (by simp)]

lemma handleRequest_post_of_some {id : MemeId} (hmethod : req.method = .post)
    (htarget : req.target = location) (hbody : Meme.Parses tree req.body)
    (hcreate : MemeModule.create chance.faults req.body w = (some id, w')) :
    handleRequest float tree chance location req {} w = .ok ⟨.created, created id, w'⟩ := by
  obtain ⟨meme, hmeme⟩ := (@succeeds_meme_make_iff F tree req.body 0 (float.ofInt 0)).mpr hbody
  rw [handleRequest_post {} hmethod htarget, handlePostMeme, hmeme, ok_bind,
    Meme.content_of_make hmeme, hcreate]
  rfl

lemma handleRequest_post_of_none (hmethod : req.method = .post) (htarget : req.target = location)
    (hbody : Meme.Parses tree req.body)
    (hcreate : MemeModule.create chance.faults req.body w = (none, w')) :
    handleRequest float tree chance location req {} w = .ok ⟨.internal_server_error, {}, w'⟩ := by
  obtain ⟨meme, hmeme⟩ := (@succeeds_meme_make_iff F tree req.body 0 (float.ofInt 0)).mpr hbody
  rw [handleRequest_post {} hmethod htarget, handlePostMeme, hmeme, ok_bind,
    Meme.content_of_make hmeme, hcreate]
  rfl

/-! ### Asking for a meme -/

/-- A target that ends in a number is none of those with a fixed name. -/
lemma ne_of_stoi {name : Str} {n : CInt} (hid : stoi (possibleId req.target) = .ok n)
    (hslash : '/' ∉ name) (hname : stoi name = .error .invalidArgument) :
    req.target ≠ location ++ '/' :: name := by
  intro htarget
  rw [htarget, possibleId_append location hslash, hname] at hid
  cases hid

lemma handleRequest_get {n : CInt} {meme : Meme F} (res : Response) (hmethod : req.method = .get)
    (htarget : upToLastSlash req.target = location ++ "/".toList)
    (hid : stoi (possibleId req.target) = .ok n)
    (hget : MemeModule.get float tree chance.faults (MemeId.ofCInt n) w = .ok (some meme, w')) :
    handleRequest float tree chance location req res w =
      answer res .ok "text/html".toList (displayPage location n meme) w' := by
  have hform : req.target ≠ location ++ "/creation_form".toList :=
    @ne_of_stoi _ _ "creation_form".toList _ hid (by decide) rfl
  have hrandom : req.target ≠ location ++ "/random".toList :=
    @ne_of_stoi _ _ "random".toList _ hid (by decide) rfl
  have hall : req.target ≠ location ++ "/all".toList :=
    @ne_of_stoi _ _ "all".toList _ hid (by decide) rfl
  have hformat : checkFormat req.target (location ++ "/".toList) = .ok true := by
    rw [checkFormat, checkNumber, hid, htarget]
    simp only [decide_true]
  rw [handleRequest, hmethod]
  simp only [handleGet, if_neg hform, if_neg hrandom, if_neg hall, hformat, ok_bind, if_true,
    handleGetMemeById, readNumber_of_ok hid, hget]

end MemeHandler

end SocialNetworkApp
