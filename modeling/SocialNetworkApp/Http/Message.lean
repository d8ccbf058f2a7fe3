import SocialNetworkApp.Core.Number
import SocialNetworkApp.Core.Str

/-!
# Requests and responses

The parts of Boost.Beast's messages that the handlers read and write.
-/

namespace SocialNetworkApp

open SocialNetworkApp.Core

/-- `http::verb`. -/
inductive Verb where
  | delete_
  | get
  | post
  | put
  | other (name : Str)
deriving DecidableEq

/-- `http::status`. -/
inductive Status where
  | continue_
  | ok
  | created
  | bad_request
  | not_found
  | internal_server_error
deriving DecidableEq

/-- `http::request<http::string_body>`. -/
structure Request where
  method : Verb
  target : Str
  body : Str
  fields : List (Str × Str) := []
deriving DecidableEq

/-- `target.substr(target.find_last_of("/") + 1)`. -/
def possibleId (target : Str) : Str :=
  match findLastOf '/' target with
  | none => target
  | some lastSlash => target.drop (lastSlash + 1)

@[simp] lemma possibleId_append (a : Str) {segment : Str} (hslash : '/' ∉ segment) :
    possibleId (a ++ '/' :: segment) = segment := by
  simp only [possibleId, findLastOf_append_cons a hslash]
  simp

/-- `http::response<http::string_body>`, as it is before anything is set. -/
structure Response where
  version : Nat := 11
  result : Status := .ok
  contentType : Option Str := none
  contentLength : Option Nat := none
  body : Str := []
deriving DecidableEq

/-- The body has the length that is announced, if one is. -/
def Response.Framed (res : Response) : Prop := ∀ n ∈ res.contentLength, n = res.body.length

/-- `res.prepare_payload()`. -/
def Response.preparePayload (res : Response) : Response :=
  { res with contentLength := some res.body.length }

/-- Set the body and what belongs to it. -/
def Response.fill (res : Response) (contentType body : Str) : Response :=
  { res with contentType := some contentType, body := body }.preparePayload

/-- The exceptions a handler or a session may let escape. -/
inductive Exception where
  | number (e : NumError)
  | iosFailure
  | filesystemError
  | propertyTree
  | systemError
deriving DecidableEq

/-- What a handler returns and leaves behind. -/
structure Reply (S : Type) where
  status : Status
  response : Response
  state : S

@[simp] lemma Response.body_fill (res : Response) (contentType body : Str) :
    (res.fill contentType body).body = body := rfl

lemma Response.framed_preparePayload (res : Response) : res.preparePayload.Framed := by
  intro n hn
  exact (Option.some.inj hn).symm

lemma Response.framed_fill (res : Response) (contentType body : Str) :
    (res.fill contentType body).Framed := Response.framed_preparePayload _

end SocialNetworkApp
