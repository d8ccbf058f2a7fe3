import SocialNetworkApp.Dispatch.Dispatcher
import SocialNetworkApp.Session.RequestParser

/-!
# Sessions

A session reads a request in pieces, hands it to the dispatcher and writes one response. Its socket
completes a read that was started by calling the handler that was bound to it.
-/

namespace SocialNetworkApp

open SocialNetworkApp.Core

/-- `max_length`. -/
def maxLength : Nat := 1024

/-- The bytes one read puts into the buffer. -/
structure Chunk where
  bytes : Str
  short : bytes.length ≤ maxLength

/-- A read that completes, with an error if there are no bytes; `get_remote_ip` throws while the
handler runs if there is no address. -/
structure Completion where
  result : Option Chunk
  remoteIp : Option Str

/-- The handler a read is bound to. -/
inductive Reading where
  | header
  | body
deriving DecidableEq

/-- An asynchronous operation that was started. -/
inductive Operation where
  | read (reading : Reading)
  | write (text : Str)
deriving DecidableEq

/-- What a session uses of other components. The dispatcher has a state of its own. -/
structure Environment (W : Type) where
  parseRequest : Str → Option Request
  dispatch : Request → Response → W → Except DispatchError (Response × W)
  serialize : Response → Str

/-- `session`, the state of the dispatcher, and what the session has done so far: the operations that
have not completed, the requests it has dispatched, the texts it has written, and the exception that
has left a handler. -/
structure Session (W : Type) where
  world : W
  requestParser : HttpRequestParser := {}
  contentLength : CInt := 0
  requestHeader : Str := []
  requestBody : Str := []
  requestString : Str := []
  response : Response := {}
  outstanding : List Operation := []
  dispatched : List Request := []
  written : List Str := []
  escaped : Option DispatchError := none

namespace Session

variable {W : Type}

/-! ### Operations -/

/-- `socket_->async_read_some`. -/
def asyncReadSome (reading : Reading) (s : Session W) : Session W :=
  { s with outstanding := s.outstanding ++ [.read reading] }

/-- `socket_->async_writing`. -/
def asyncWriting (text : Str) (s : Session W) : Session W :=
  { s with outstanding := s.outstanding ++ [.write text], written := s.written ++ [text] }

/-- An exception leaves the handler. -/
def throw (e : DispatchError) (s : Session W) : Session W := { s with escaped := some e }

/-- A session behind `start`. -/
def start (w : W) : Session W := ({ world := w } : Session W).asyncReadSome .header

/-! ### Responding -/

variable (env : Environment W)

/-- The response is written to the client. -/
def writeResponse (s : Session W) : Session W := s.asyncWriting (env.serialize s.response)

/-- The response to a request that could not be read. -/
def respondError (status : Status) (body : Str) (s : Session W) : Session W :=
  writeResponse env { s with response := { s.response with
    version := 11, result := status, contentType := some "text/plain".toList, body := body } }

/-- `respond_to_request_client_error`. -/
def respondToRequestClientError (s : Session W) : Session W :=
  respondError env .bad_request "400 Bad Request\r\n\r\n".toList s

/-- `respond_to_request_server_error`. -/
def respondToRequestServerError (s : Session W) : Session W :=
  respondError env .internal_server_error "500 Internal Server Error\r\n\r\n".toList s

/-- A body that is not empty gets new lines at its end. -/
def terminated (body : Str) : Str := if body = [] then [] else body ++ "\r\n\r\n".toList

/-- `respond_to_request`. -/
def respondToRequest (s : Session W) : Session W :=
  match env.parseRequest (s.requestHeader ++ s.requestBody) with
  | none => respondError env .bad_request "400 Bad Request\r\n\r\n".toList s
  | some request =>
    let request := { request with body := terminated request.body }
    let s := { s with dispatched := s.dispatched ++ [request] }
    match env.dispatch request s.response s.world with
    | .error e => s.throw e
    | .ok (response, world) => writeResponse env { s with response := response, world := world }

/-! ### Reading -/

/-- What a header block ends with. -/
def headerEnd : Str := "\r\n\r\n".toList

/-- Respond if the entire body is read, and read on if not. -/
def finishBody (s : Session W) : Session W :=
  if s.contentLength.toSize ≤ s.requestBody.length then respondToRequest env s
  else s.asyncReadSome .body

/-- The methods whose requests have a body. -/
def hasBody (method : Str) : Prop := method = "POST".toList ∨ method = "PUT".toList

instance (method : Str) : Decidable (hasBody method) := inferInstanceAs (Decidable (_ ∨ _))

/-- The part of `handle_read_header` for a header that was parsed. -/
def processRequest (remoteIp : Option Str) (s : Session W) : Session W :=
  match remoteIp with
  | none => s.throw (.exception .systemError)
  | some _ =>
    if hasBody s.requestParser.method then
      let contentLengthStr := s.requestParser.getHeader "Content-Length".toList
      if contentLengthStr = [] then finishBody env s
      else match stoi contentLengthStr with
        | .error e => s.throw (.exception (.number e))
        | .ok n => finishBody env { s with contentLength := n }
    else respondToRequest env s

/-- The part of `handle_read_header` behind the end of the header. -/
def processHeader (remoteIp : Option Str) (s : Session W) : Session W :=
  match s.requestParser.parse s.requestHeader with
  | (false, parser) => respondToRequestClientError env { s with requestParser := parser }
  | (true, parser) => processRequest env remoteIp { s with requestParser := parser }

/-- `handle_read_header`. -/
def handleReadHeader (c : Completion) (s : Session W) : Session W :=
  match c.result with
  | none => respondToRequestServerError env s
  | some chunk =>
    let requestString := s.requestString ++ chunk.bytes
    match findStr headerEnd requestString with
    | none => { s with requestString := requestString }.asyncReadSome .header
    | some headerPos =>
      processHeader env c.remoteIp { s with
        requestString := requestString
        requestHeader := requestString.take (headerPos + 4)
        requestBody := substr requestString (headerPos + 4) chunk.bytes.length }

/-- `handle_read_body`. -/
def handleReadBody (c : Completion) (s : Session W) : Session W :=
  match c.result with
  | none => respondToRequestServerError env s
  | some chunk => finishBody env { s with requestBody := s.requestBody ++ chunk.bytes }

/-- A read completes: the operation is over and its handler is called. Without a read that was
started, none completes. -/
def handle (s : Session W) (c : Completion) : Session W :=
  match s.outstanding with
  | .read .header :: rest => handleReadHeader env c { s with outstanding := rest }
  | .read .body :: rest => handleReadBody env c { s with outstanding := rest }
  | _ => s

/-- The session after reads have completed one after another. -/
def run (w : W) (cs : List Completion) : Session W := cs.foldl (handle env) (start w)

end Session

end SocialNetworkApp
