import SocialNetworkApp.Core.Run
import SocialNetworkApp.Crud.Handler

/-!
# The store of entities

What the CRUD interface is for: a map from directories and ids to texts. A client can follow it
from the answers alone.
-/

namespace SocialNetworkApp

open SocialNetworkApp.Core

/-- A directory and an id. -/
abbrev EntityKey := Str × CInt

/-- The texts of the entities that are there. -/
abbrev Store := EntityKey → Option Str

/-- What a client asks for. -/
inductive StoreOp where
  | post (dir body : Str)
  | put (dir : Str) (id : CInt) (body : Str)
  | delete (dir : Str) (id : CInt)
  | get (dir : Str) (id : CInt)

namespace StoreOp

def dir : StoreOp → Str
  | post dir _ | put dir _ _ | delete dir _ | get dir _ => dir

/-- The requests for an operation: below any prefix, the directory and the id in decimal. -/
def RequestedBy (op : StoreOp) (req : Request) : Prop :=
  ∃ pre, match op with
    | post dir body =>
      req.method = .post ∧ req.target = pre ++ '/' :: dir ∧ req.body = body
    | put dir id body =>
      req.method = .put ∧ req.target = pre ++ '/' :: dir ++ '/' :: toStr id ∧ req.body = body
    | delete dir id => req.method = .delete_ ∧ req.target = pre ++ '/' :: dir ++ '/' :: toStr id
    | get dir id => req.method = .get ∧ req.target = pre ++ '/' :: dir ++ '/' :: toStr id

/-- The text of the answer to a creation, up to the id. -/
def createdPrefix : Str := "Created".toList ++ " Entity \x7b\"id\":".toList

/-- The id an answer to a creation reports. -/
def reportedId (body : Str) : Option CInt := (stoi (body.drop createdPrefix.length)).toOption

/-- What an answer tells about the store: a new text for a key, or none. -/
def effect (op : StoreOp) (status : Status) (response : Response) : List (EntityKey × Option Str) :=
  match op with
  | post dir body =>
    if status = .created then
      (reportedId response.body).toList.map fun id => ((dir, id), some body)
    else []
  | put dir id body =>
    if status = .ok ∨ status = .created then [((dir, id), some body)] else []
  | delete dir id => if status = .ok then [((dir, id), none)] else []
  | get _ _ => []

/-- The answers a store may give. -/
def AnsweredBy (op : StoreOp) (s : Store) (status : Status) (response : Response) : Prop :=
  match op with
  | post _ _ => status = .created ∧ ∃ id, reportedId response.body = some id
  | put dir id _ => status = if (s (dir, id)).isSome then .ok else .created
  | delete dir id => status = if (s (dir, id)).isSome then .ok else .bad_request
  | get dir id =>
    match s (dir, id) with
    | some content => status = .ok ∧ response.body = content
    | none => status = .bad_request

lemma reportedId_entityText (id : CInt) :
    reportedId (entityText "Created".toList id) = some id := by
  have htext : entityText "Created".toList id = createdPrefix ++ (toStr id ++ "\x7d\n".toList) := by
    rw [entityText, List.append_assoc]
    rfl
  have hend : NoDigitHead "\x7d\n".toList := (noDigitHead_cons _ _).mpr rfl
  rw [reportedId, htext, List.drop_left, stoi_toStr_append id hend]
  rfl

end StoreOp

/-- An operation, and how it was answered. -/
structure Exchange where
  op : StoreOp
  status : Status
  response : Response

/-- What the answers of a run tell about the store. -/
def storeLog (trace : List Exchange) : List (EntityKey × Option Str) :=
  trace.flatMap fun e => e.op.effect e.status e.response

/-- The text of an entity after a run: that of the last successful `PUT` or `POST`, nothing if a
successful `DELETE` came after it, and the initial text if there was neither. -/
def latest (init : Store) (trace : List Exchange) : Store := fun key =>
  ((storeLog trace).filter fun e => e.1 = key).getLast?.elim (init key) Prod.snd

lemma latest_eq_replay (init : Store) (trace : List Exchange) :
    latest init trace = replay init (storeLog trace) := by
  funext key
  exact (replay_eq_last init (storeLog trace) key).symm

end SocialNetworkApp
