import Mathlib.Data.Char
import Mathlib.Data.List.Sort
import Mathlib.Order.Lex
import Mathlib.Data.List.Lex
import SocialNetworkApp.Dispatch.Factories

/-!
# The dispatcher

`RequestDispatcher` looks for the longest location that begins the url, makes a handler for it, and
replaces the body of the response where the handler returns the status of an error.
-/

namespace SocialNetworkApp

open SocialNetworkApp.Core

/-- `RequestDispatcher`, with the tree its pointers to blocks lead into. -/
structure RequestDispatcher where
  handlerFactories : Table Str FactoryPtr
  path2arguments : Table Str BlockPtr
  config : NginxConfig

/-- The dispatcher built from the tables of a configuration. -/
def NginxConfig.dispatcher (c : NginxConfig) : Option RequestDispatcher :=
  match c.getFactories, c.getArguments with
  | some factories, some arguments => some ⟨factories, arguments, c⟩
  | _, _ => none

lemma NginxConfig.tables_of_dispatcher {c : NginxConfig} {d : RequestDispatcher}
    (h : c.dispatcher = some d) :
    c.getFactories = some d.handlerFactories ∧ c.getArguments = some d.path2arguments := by
  rw [dispatcher] at h
  cases hfactories : c.getFactories with
  | none =>
    rw [hfactories] at h
    cases h
  | some factories =>
    cases harguments : c.getArguments with
    | none =>
      rw [hfactories, harguments] at h
      cases h
    | some arguments =>
      rw [hfactories, harguments] at h
      cases h
      exact ⟨rfl, rfl⟩

/-- How a request may end other than with a response. -/
inductive DispatchError where
  | nullPointer
  | exception (e : Exception)
deriving DecidableEq

/-- The body the dispatcher gives to the statuses of errors. -/
def Status.errorBody : Status → Option Str
  | .not_found => some "404 Not Found\r\n\r\n".toList
  | .internal_server_error => some "500 Internal Server Error\r\n\r\n".toList
  | .bad_request => some "400 Bad Request\r\n\r\n".toList
  | _ => none

/-- The switch behind the handler. -/
def Response.overwritten (status : Status) (res : Response) : Response :=
  match status.errorBody with
  | none => res
  | some body => { res with
      version := 11, result := status, contentType := some "text/plain".toList, body := body }

namespace RequestDispatcher

/-- One round of the loop of `match`, with the length of the longest match and the match. The length
is kept in an `int`, which is converted where a key is compared with it. A url that ends within the
key does not match. -/
def matchStep (url : Str) (best : CInt × Option Str) (key : Str) : CInt × Option Str :=
  if key.isPrefixOf url ∧ best.1.toSize ≤ key.length then (CInt.wrap key.length, some key) else best

/-- The loop of `match`. -/
def matchKeys (keys : List Str) (url : Str) : Option Str :=
  (keys.foldl (matchStep url) (0, none)).2

/-- `match`: a map is traversed in the order of its keys. -/
def match_ (d : RequestDispatcher) (url : Str) : Option Str :=
  matchKeys (d.handlerFactories.keys.insertionSort (· ≤ ·)) url

/-- `*path2arguments_[location]`; `none` is the null pointer. -/
def arguments (d : RequestDispatcher) (location : Str) : Option NginxConfig :=
  (d.path2arguments.lookup location).bind d.config.blockAt

variable {F : Type} (lib : Library F) (d : RequestDispatcher) (chance : Chance) (req : Request)
  (res : Response) (w : World F)

/-- `handle_request`, once a location is found. -/
def handleAt (location : Str) : Except DispatchError (Response × World F) :=
  match d.arguments location, d.handlerFactories.lookup location with
  | some arguments, some factory =>
    match factory.create lib chance location req.target arguments w with
    | .error e => .error (.exception e)
    | .ok (none, _) => .error .nullPointer
    | .ok (some handler, w) =>
      match handler.handleRequest lib chance factory req res w with
      | .error e => .error (.exception e)
      | .ok reply => .ok (reply.response.overwritten reply.status, reply.state)
  | _, _ => .error .nullPointer

/-- `handle_request`. -/
def handleRequest : Except DispatchError (Response × World F) :=
  match d.match_ req.target with
  | none =>
    .ok ({ res with version := 11, result := .not_found }.fill "text/plain".toList
      "404 Not Found\r\n\r\n".toList, w)
  | some location => handleAt lib d chance req res w location

end RequestDispatcher

end SocialNetworkApp
