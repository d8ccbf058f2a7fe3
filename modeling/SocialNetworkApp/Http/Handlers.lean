import SocialNetworkApp.Core.FileSystem
import SocialNetworkApp.Http.Message

/-!
# The handlers without a store

What these handlers answer is fixed, or taken from the request or from a file.
-/

namespace SocialNetworkApp

open SocialNetworkApp.Core

/-- `BlockHandler::handle_request`: the response stays as it is. -/
def BlockHandler.handleRequest (res : Response) : Status × Response := (.continue_, res)

/-- `EchoHandler::handle_request`; `serialize` writes a request as it goes over the wire. -/
def EchoHandler.handleRequest (serialize : Request → Str) (req : Request) (res : Response) :
    Status × Response :=
  (.ok, { res with version := 11, result := .ok }.fill "text/plain".toList (serialize req))

/-- `FileNotFoundHandler::handle_request`: the payload is prepared with no body set. -/
def FileNotFoundHandler.handleRequest (res : Response) : Status × Response :=
  (.not_found, { res with
    version := 11, result := .not_found, contentType := some "text/plain".toList }.preparePayload)

/-- `HealthHandler::handle_request`. -/
def HealthHandler.handleRequest (res : Response) : Status × Response :=
  (.ok, { res with version := 11, result := .ok }.fill "text/plain".toList "OK".toList)

namespace MIME

/-- `mimeTypes`. -/
def mimeTypes : List (Str × Str) :=
  [(".html".toList, "text/html".toList), (".txt".toList, "text/plain".toList),
    (".jpg".toList, "image/jpeg".toList), (".jpeg".toList, "image/jpeg".toList),
    (".png".toList, "image/png".toList), (".gif".toList, "image/gif".toList),
    (".zip".toList, "application/zip".toList)]

/-- `MIME::get_mime_type`. Without a dot `substr` is called at `npos`, and throws. -/
def getMimeType (fileName : Str) : Except Exception Str :=
  match findLastOf '.' fileName with
  | none => .error (.number .outOfRange)
  | some dot =>
    .ok ((mimeTypes.lookup (fileName.drop dot)).getD "application/octet-stream".toList)

end MIME

/-- `StaticHandler::handle_request`. -/
def StaticHandler.handleRequest (fs : FileSystem) (fileName : Str) (res : Response) :
    Except Exception (Status × Response) :=
  let served (content : Str) := (MIME.getMimeType fileName).map fun contentType =>
    (Status.ok, { res with version := 11, result := .ok }.fill contentType content)
  match fs.openRead fileName with
  | .closed => .ok (.not_found, res)
  -- a directory opens, and reading it character by character gives none
  | .directory => served []
  | .contents content => served content

end SocialNetworkApp
