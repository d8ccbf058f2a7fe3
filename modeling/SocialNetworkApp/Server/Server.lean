import SocialNetworkApp.Core.Run
import SocialNetworkApp.Session.Session

/-!
# The server

The server makes a session for every client it accepts. The operations it has started complete in
any order, and their handlers run one after another, as they do where a single thread runs the
`io_service`. The constructor of `server` starts as many threads as the machine runs at once: this
is the server on a machine that runs one. An exception that leaves a handler ends the process.
-/

namespace SocialNetworkApp

open SocialNetworkApp.Core

/-- A session the server has made, until it deletes itself. A session whose client could not be
accepted is deleted without its socket. -/
inductive Connection (W : Type) where
  | accepting
  | refused
  | live (s : Session W)
  | closed (s : Session W)

namespace Connection

variable {W : Type}

/-- The session of a client that was accepted. -/
def session? : Connection W → Option (Session W)
  | .live s | .closed s => some s
  | .accepting | .refused => none

end Connection

/-- A request that was dispatched for a connection, and the response it got. -/
structure Transaction where
  connection : Nat
  request : Request
  response : Response

/-- How a write completes. Without an error the socket is shut down, which may throw. -/
inductive WriteResult where
  | error
  | shutDown
  | notShutDown
deriving DecidableEq

/-- The completion of an operation that the server or a session has started. -/
inductive Event where
  | accepted (i : Nat) (error : Bool)
  | read (i : Nat) (c : Completion)
  | written (i : Nat) (result : WriteResult)

/-- `server`, with the state of the dispatcher, the sessions it has made, what they have dispatched
so far, and the exception that has ended the process. -/
structure Server (W : Type) where
  world : W
  connections : List (Connection W) := []
  log : List Transaction := []
  terminated : Option DispatchError := none

namespace Server

variable {W : Type} (env : Environment W)

/-- `start_accept`. -/
def startAccept (srv : Server W) : Server W :=
  { srv with connections := srv.connections ++ [.accepting] }

/-- A server behind its first `start_accept`. -/
def start (w : W) : Server W := ({ world := w } : Server W).startAccept

/-- `handle_accept`. -/
def handleAccept (i : Nat) (error : Bool) (srv : Server W) : Server W :=
  startAccept { srv with
    connections := srv.connections.set i (if error then .refused else .live (.start srv.world)) }

/-- What a session has dispatched and answered while its handler ran. -/
def transactions (i : Nat) (s s' : Session W) : List Transaction :=
  if s'.escaped = none then
    (s'.dispatched.drop s.dispatched.length).map fun request => ⟨i, request, s'.response⟩
  else []

/-- `handle_read_header` or `handle_read_body` of a session, called by the server's thread. -/
def handleRead (i : Nat) (c : Completion) (s : Session W) (srv : Server W) : Server W :=
  let s' := Session.handle env { s with world := srv.world } c
  { srv with
    world := s'.world
    connections := srv.connections.set i (.live s')
    log := srv.log ++ transactions i s s'
    terminated := s'.escaped }

/-- `handle_write` of a session. -/
def handleWrite (i : Nat) (result : WriteResult) (s : Session W) (srv : Server W) : Server W :=
  match result with
  | .notShutDown => { srv with terminated := some (.exception .systemError) }
  | .error | .shutDown => { srv with connections := srv.connections.set i (.closed s) }

/-- An operation completes, if it was started. -/
def step (srv : Server W) (e : Event) : Option (Server W) :=
  match srv.terminated with
  | some _ => none
  | none =>
    match e with
    | .accepted i error =>
      match srv.connections[i]? with
      | some .accepting => some (handleAccept i error srv)
      | _ => none
    | .read i c =>
      match srv.connections[i]? with
      | some (.live s) =>
        match s.outstanding with
        | .read _ :: _ => some (handleRead env i c s srv)
        | _ => none
      | _ => none
    | .written i result =>
      match srv.connections[i]? with
      | some (.live s) =>
        match s.outstanding with
        | .write _ :: _ => some (handleWrite i result s srv)
        | _ => none
      | _ => none

/-- One operation after another completes. -/
abbrev Runs (w : W) (es : List Event) (srv : Server W) : Prop :=
  Run (fun srv e srv' => step env srv e = some srv') (start w) es srv

end Server

end SocialNetworkApp
