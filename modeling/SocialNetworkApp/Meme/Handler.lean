import SocialNetworkApp.Meme.Pages

/-!
# The meme handler

`MemeHandler` serves one location from the module of its root. A request either leaves the response
as it was and returns the status of an error, or fills it.
-/

namespace SocialNetworkApp

open SocialNetworkApp.Core

/-- What a request to the memes leaves to chance: the calls of the file system that fail, the value
of `rand()`, and the name of a new comment's file. -/
structure MemeChance where
  faults : StorageFaults := {}
  random : Nat := 0
  uuid : Str := []

namespace MemeHandler

variable {F : Type} (float : FloatArith F) (tree : PropertyTree F)

/-- `target.substr(0, lastSlashPosition + 1)`. -/
def upToLastSlash (target : Str) : Str :=
  match findLastOf '/' target with
  | none => []
  | some lastSlash => target.take (lastSlash + 1)

/-- `check_format` and `check_format_floating`, for the function that reads the number. -/
def checkNumber {N : Type} (read : Str → Except NumError N) (target url : Str) :
    Except Exception Bool :=
  match read (possibleId target) with
  | .ok _ => .ok (decide (upToLastSlash target = url))
  | .error .invalidArgument => .ok false
  | .error .outOfRange => .error (.number .outOfRange)

def checkFormat (target url : Str) : Except Exception Bool := checkNumber stoi target url

def checkFormatFloating (target url : Str) : Except Exception Bool :=
  checkNumber float.stof target url

/-- A number at the end of a target that has been checked before. -/
def readNumber {N : Type} (read : Str → Except NumError N) (target : Str) : Except Exception N :=
  match read (possibleId target) with
  | .ok n => .ok n
  | .error e => .error (.number e)

section

variable (chance : MemeChance) (location : Str) (req : Request) (res : Response) (w : MemeState F)

/-- Return the status of an error, and leave the response as it is. -/
def fail (status : Status) (w : MemeState F) : Except Exception (Reply (MemeState F)) :=
  .ok ⟨status, res, w⟩

/-- Fill the response. -/
def answer (status : Status) (contentType body : Str) (w : MemeState F) :
    Except Exception (Reply (MemeState F)) :=
  .ok ⟨status, { res with version := 11, result := status }.fill contentType body, w⟩

def handlePostMeme : Except Exception (Reply (MemeState F)) := do
  let meme ← Meme.make tree req.body 0 (float.ofInt 0)
  match MemeModule.create chance.faults meme.content w with
  | (none, w) => fail res .internal_server_error w
  | (some id, w) =>
    answer res .created "text/plain".toList
      ("Successfully created meme ".toList ++ id.toStr ++ ['.']) w

def handlePostComment : Except Exception (Reply (MemeState F)) := do
  let comment ← Comment.make tree req.body
  match stoi comment.id with
  | .error .invalidArgument => fail res .not_found w
  | .error .outOfRange => .error (.number .outOfRange)
  | .ok id =>
    match stoi comment.rating with
    | .error .invalidArgument => fail res .not_found w
    | .error .outOfRange => .error (.number .outOfRange)
    | .ok rating =>
      -- neither call tells whether the meme is there
      let w := MemeModule.addRating float chance.faults (MemeId.ofCInt id) rating w
      let w := MemeModule.addComment chance.faults chance.uuid (MemeId.ofCInt id) comment w
      answer res .created "text/plain".toList "Successfully posted comment.".toList w

def handlePost : Except Exception (Reply (MemeState F)) :=
  if findStr location req.target = none then fail res .not_found w
  else if req.target = location ++ "/comment".toList then
    handlePostComment float tree chance req res w
  else if req.target = location then handlePostMeme float tree chance req res w
  else fail res .not_found w

def handleCreationForm : Except Exception (Reply (MemeState F)) :=
  if req.target ≠ location ++ "/creation_form".toList then fail res .not_found w
  else answer res .ok "text/html".toList (creationForm location) w

def handlePostCommentForm : Except Exception (Reply (MemeState F)) :=
  if req.target ≠ location ++ "/comment_form".toList then fail res .not_found w
  else answer res .ok "text/html".toList (commentForm location) w

def handleGetRandomMeme : Except Exception (Reply (MemeState F)) := do
  let count := w.memes.getMemeCount
  if count = 0 then fail res .bad_request w
  else
    let randomId := CInt.wrap (Int.tmod chance.random count.val + 1)
    match ← MemeModule.get float tree chance.faults (MemeId.ofCInt randomId) w with
    | (none, w) => fail res .internal_server_error w
    | (some meme, w) => answer res .ok "text/html".toList meme.content w

def handleGetMemeById : Except Exception (Reply (MemeState F)) := do
  let id ← readNumber stoi req.target
  match ← MemeModule.get float tree chance.faults (MemeId.ofCInt id) w with
  | (none, w) => fail res .internal_server_error w
  | (some meme, w) => answer res .ok "text/html".toList (displayPage location id meme) w

def handleGetAllMemes : Except Exception (Reply (MemeState F)) :=
  answer res .ok "text/html".toList (listPage location w.memes fun _ => true) w

def handleGetMemeByViews : Except Exception (Reply (MemeState F)) := do
  let views ← readNumber stoi req.target
  answer res .ok "text/html".toList
    (listPage location w.memes fun id => decide (views < w.memes.getViewCount id)) w

def handleGetMemeByRating : Except Exception (Reply (MemeState F)) := do
  let rating ← readNumber float.stof req.target
  answer res .ok "text/html".toList
    (listPage location w.memes fun id => float.gt (w.memes.getRating float id) rating) w

def handleGetOtherInfoById : Except Exception (Reply (MemeState F)) := do
  let id ← readNumber stoi req.target
  let comments ← MemeModule.getComments tree chance.faults (MemeId.ofCInt id) w
  let views := w.memes.getViewCount (MemeId.ofCInt id)
  let ratings := w.memes.getRating float (MemeId.ofCInt id)
  answer res .ok "application/json".toList
    (tree.writeInfo views ratings (comments.map Comment.comment)) w

def handleGet : Except Exception (Reply (MemeState F)) := do
  if req.target = location ++ "/creation_form".toList then handleCreationForm location req res w
  else if req.target = location ++ "/random".toList then
    handleGetRandomMeme float tree chance res w
  else if req.target = location ++ "/all".toList then handleGetAllMemes location res w
  else if ← checkFormat req.target (location ++ "/".toList) then
    handleGetMemeById float tree chance location req res w
  else if ← checkFormat req.target (location ++ "/info/".toList) then
    handleGetOtherInfoById float tree chance req res w
  else if req.target = location ++ "/comment_form".toList then
    handlePostCommentForm location req res w
  else if ← checkFormat req.target (location ++ "/get_by_views/".toList) then
    handleGetMemeByViews location req res w
  else if ← checkFormatFloating float req.target (location ++ "/get_by_rating/".toList) then
    handleGetMemeByRating float location req res w
  else fail res .not_found w

/-- `MemeHandler::handle_request`. -/
def handleRequest : Except Exception (Reply (MemeState F)) :=
  match req.method with
  | .post => handlePost float tree chance location req res w
  | .get => handleGet float tree chance location req res w
  | _ => fail res .not_found w

end

end MemeHandler

end SocialNetworkApp
