import SocialNetworkApp.Core.FileSystem
import SocialNetworkApp.Core.Number
import SocialNetworkApp.Core.Returns
import SocialNetworkApp.Core.Table
import SocialNetworkApp.Http.Message

/-!
# The CRUD handler

`CrudHandler` keeps, for each directory, the ids of its entities; the entities themselves are files
below `root`. Each request takes the file system and the ids to new ones. A call of the file system
may also fail for reasons outside the model; these failures are inputs. A query that fails throws,
and stands in no `try` block.
-/

namespace SocialNetworkApp

open SocialNetworkApp.Core

/-- A query of the file system, with its path name. -/
inductive Query where
  | pathExists (path : Str)
  | isDirectory (path : Str)
  | entries (path : Str)

/-- Which calls of the file system fail: those that change it or open a file whatever their
arguments, and each query for the names it throws for. -/
structure Faults where
  directory : Bool := false
  opening : Bool := false
  removal : Bool := false
  query : Query → Bool := fun _ => false

namespace Faults

variable (faults : Faults) (fs : FileSystem)

def createDirectory (path : Str) : Option FileSystem :=
  if faults.directory then none else fs.createDirectory path

/-- Open a file for writing and write `content`. -/
def writeFile (path content : Str) : Option FileSystem :=
  if faults.opening then none else fs.writeFile path content

def openRead (path : Str) : OpenRead :=
  if faults.opening then .closed else fs.openRead path

def remove (path : Str) : Option FileSystem :=
  if faults.removal then none else fs.remove path

/-! ### Queries -/

/-- A query with this answer, or an exception. -/
def ask {A : Type} (q : Query) (answer : A) : Except Exception A :=
  if faults.query q then .error .filesystemError else .ok answer

/-- `exists`. -/
def pathExists (path : Str) : Except Exception Bool :=
  faults.ask (.pathExists path) (fs.pathExists path)

/-- `is_directory`. -/
def isDirectory (path : Str) : Except Exception Bool :=
  faults.ask (.isDirectory path) (fs.isDirectory path)

/-- The names a `directory_iterator` goes through. If it throws, it does not matter where. -/
def entries (path : Str) : Except Exception (List Str) :=
  faults.ask (.entries path) (fs.entries path)

/-- `exists(path) && !is_directory(path)`. -/
def isFile (path : Str) : Except Exception Bool := do
  if ← faults.pathExists fs path then (faults.isDirectory fs path).map (!·) else .ok false

/-- `!exists(path) || !is_directory(path)`. -/
def isNoDirectory (path : Str) : Except Exception Bool := do
  if ← faults.pathExists fs path then (faults.isDirectory fs path).map (!·) else .ok true

/-- `!exists(path) || !exists(dirPath) || (exists(dirPath) && !is_directory(dirPath))`. -/
def isMissing (path dirPath : Str) : Except Exception Bool := do
  if ← faults.pathExists fs path then
    if ← faults.pathExists fs dirPath then faults.isFile fs dirPath else .ok true
  else .ok true

end Faults

/-! ### What queries answer -/

namespace Faults

variable {faults : Faults} {fs : FileSystem} {path dirPath : Str} {b : Bool}

lemma ask_eq_ok_iff {A : Type} {q : Query} {answer a : A} :
    faults.ask q answer = .ok a ↔ faults.query q = false ∧ answer = a := by
  unfold ask
  cases faults.query q <;> simp

/-- `exists` answers for a path name, and `is_directory` does where something is there. -/
def Tells (faults : Faults) (fs : FileSystem) (path : Str) : Prop :=
  faults.query (.pathExists path) = false ∧
    (fs.pathExists path = true → faults.query (.isDirectory path) = false)

lemma tells_empty (fs : FileSystem) (path : Str) : Tells {} fs path := ⟨rfl, fun _ => rfl⟩

lemma isFile_eq_ok_iff : faults.isFile fs path = .ok b ↔
    faults.Tells fs path ∧ (fs.pathExists path && !fs.isDirectory path) = b := by
  unfold isFile pathExists isDirectory ask Tells
  cases faults.query (.pathExists path) <;> cases faults.query (.isDirectory path) <;>
    cases fs.pathExists path <;> simp [Except.map]

lemma isNoDirectory_eq_ok_iff : faults.isNoDirectory fs path = .ok b ↔
    faults.Tells fs path ∧ (!fs.pathExists path || !fs.isDirectory path) = b := by
  unfold isNoDirectory pathExists isDirectory ask Tells
  cases faults.query (.pathExists path) <;> cases faults.query (.isDirectory path) <;>
    cases fs.pathExists path <;> simp [Except.map]

/-- A `PUT` is told what it asks for. -/
def TellsBoth (faults : Faults) (fs : FileSystem) (path dirPath : Str) : Prop :=
  faults.query (.pathExists path) = false ∧
    (fs.pathExists path = true → faults.Tells fs dirPath)

lemma isMissing_eq_ok_iff : faults.isMissing fs path dirPath = .ok b ↔
    faults.TellsBoth fs path dirPath ∧
      (!fs.pathExists path || !fs.pathExists dirPath ||
        (fs.pathExists dirPath && !fs.isDirectory dirPath)) = b := by
  unfold isMissing isFile pathExists isDirectory ask TellsBoth Tells
  cases faults.query (.pathExists path) <;> cases faults.query (.pathExists dirPath) <;>
    cases faults.query (.isDirectory dirPath) <;> cases fs.pathExists path <;>
    cases fs.pathExists dirPath <;> simp [Except.map]

/-! ### Where no query throws -/

@[simp] lemma isFile_empty :
    isFile {} fs path = .ok (fs.pathExists path && !fs.isDirectory path) :=
  isFile_eq_ok_iff.mpr ⟨tells_empty fs path, rfl⟩

@[simp] lemma isNoDirectory_empty :
    isNoDirectory {} fs path = .ok (!fs.pathExists path || !fs.isDirectory path) :=
  isNoDirectory_eq_ok_iff.mpr ⟨tells_empty fs path, rfl⟩

@[simp] lemma isMissing_empty : isMissing {} fs path dirPath =
    .ok (!fs.pathExists path || !fs.pathExists dirPath ||
      (fs.pathExists dirPath && !fs.isDirectory dirPath)) :=
  isMissing_eq_ok_iff.mpr ⟨⟨rfl, fun _ => tells_empty fs dirPath⟩, rfl⟩

end Faults

/-- `entity_ids_`. -/
abbrev EntityIds := Table Str (List CInt)

/-- What a CRUD handler works on. -/
structure CrudState where
  fs : FileSystem
  entityIds : EntityIds

/-! ### The ids -/

/-- The loop of `get_available_id`. -/
def firstGap (currentId : CInt) : List CInt → CInt
  | [] => currentId
  | id :: ids => if id = currentId then firstGap currentId.succ ids else currentId

def getAvailableId (entityIds : EntityIds) (dir : Str) : CInt :=
  match entityIds.lookup dir with
  | none => 1
  | some ids => firstGap 1 ids

def addIdToEntity (entityIds : EntityIds) (dir : Str) (id : CInt) : EntityIds :=
  match entityIds.lookup dir with
  | none => entityIds.insert dir [id]
  | some ids =>
    if id ∈ ids then entityIds
    else entityIds.insert dir ((ids ++ [id]).insertionSort (· ≤ ·))

/-- `remove_id_from_entity`; `none` when it returns false. -/
def removeIdFromEntity (entityIds : EntityIds) (dir : Str) (id : CInt) : Option EntityIds :=
  match entityIds.lookup dir with
  | none => none
  | some ids => if id ∈ ids then some (entityIds.insert dir (ids.erase id)) else none

def entityExists (entityIds : EntityIds) (dir : Str) (id : CInt) : Bool :=
  match entityIds.lookup dir with
  | none => false
  | some ids => decide (id ∈ ids)

/-! ### Responses -/

/-- `Created Entity`, `Deleted Entity` or `Update Entity`, with the id. -/
def entityText (what : Str) (id : CInt) : Str :=
  what ++ " Entity \x7b\"id\":".toList ++ toStr id ++ "\x7d\n".toList

def prepareCreatedResponse (res : Response) (id : CInt) : Response :=
  { res with result := .created }.fill "text/plain".toList (entityText "Created".toList id)

def prepareBadResponse (res : Response) (body : Str) : Response :=
  { res with result := .bad_request }.fill "text/plain".toList body

def prepareDeletedResponse (res : Response) (id : CInt) : Response :=
  { res with result := .ok }.fill "text/plain".toList (entityText "Deleted".toList id)

def prepareUpdateResponse (res : Response) (id : CInt) : Response :=
  { res with result := .ok }.fill "text/plain".toList (entityText "Update".toList id)

def prepareServerErrorResponse (res : Response) (body : Str) : Response :=
  { res with result := .internal_server_error }.fill "text/plain".toList body

/-- Refuse a request, with a reason. -/
def refuse (res : Response) (reason : Str) (w : CrudState) : Reply CrudState :=
  ⟨.bad_request, prepareBadResponse res reason, w⟩

/-! ### Targets -/

/-- The text behind the last slash of a target and its place, if there is a slash and a text. -/
def lastSegment (target : Str) : Option (Nat × Str) :=
  match findLastOf '/' target with
  | none => none
  | some lastSlash =>
    if lastSlash + 1 < target.length then some (lastSlash, target.drop (lastSlash + 1)) else none

/-- The directory, the id and both together, as `handle_deletion` cuts them out of a target. -/
def deletionTarget (target : Str) : Option (Str × Str × Str) :=
  match lastSegment target with
  | none => none
  | some (lastSlash, targetId) =>
    match findLastOfUpTo '/' target (predSize lastSlash) with
    | none => none
    | some entitySlash =>
      if entitySlash + 1 < target.length then
        -- the length wraps around to `npos` when both slashes are the same
        let targetEntity :=
          if lastSlash = entitySlash then target.drop (entitySlash + 1)
          else substr target (entitySlash + 1) (lastSlash - entitySlash - 1)
        some (targetEntity, targetId, target.drop (entitySlash + 1))
      else none

/-- The directory `retrieve_entity` cuts out of a target whose last slash is at `lastSlash`. -/
def retrievalDir (target : Str) (lastSlash : Option Nat) : Str :=
  match lastSlash with
  | none | some 0 => []
  | some (lastSlash + 1) =>
    match findLastOfUpTo '/' target lastSlash with
    | none => []
    | some second => substr target (second + 1) (lastSlash + 1 - second - 1)

/-! ### Requests -/

/-- Create the directory of a new entity, if it is not there; `none` when that fails. -/
def ensureDirectory (faults : Faults) (fs : FileSystem) (path : Str) :
    Except Exception (Option FileSystem) := do
  if ← faults.isNoDirectory fs path then .ok (faults.createDirectory fs path) else .ok (some fs)

section

variable (root : Str) (faults : Faults) (req : Request) (res : Response) (w : CrudState)

def handleCreation : Except Exception (Reply CrudState) :=
  match lastSegment req.target with
  | none => .ok (refuse res "Invalid path format for Create Entity request.".toList w)
  | some (_, targetDir) => do
    let path := root ++ '/' :: targetDir
    match ← ensureDirectory faults w.fs path with
    | none => .ok (refuse res "Creation of directory for Entity failed.".toList w)
    | some fs =>
      let id := getAvailableId w.entityIds targetDir
      let path := path ++ '/' :: toStr id
      match faults.writeFile fs path req.body with
      | some fs =>
        .ok ⟨.created, prepareCreatedResponse res id, fs, addIdToEntity w.entityIds targetDir id⟩
      | none =>
        .ok (refuse res ("Failed to write to file during Entity creation at : ".toList ++ path)
          ⟨fs, w.entityIds⟩)

def handleDeletion : Except Exception (Reply CrudState) :=
  match deletionTarget req.target with
  | none => .ok (refuse res "Invalid path format for Delete Entity request.".toList w)
  | some (targetEntity, targetId, targetEntityAndId) => do
    let path := root ++ '/' :: targetEntityAndId
    if ← faults.isFile w.fs path then
      match stoi targetId with
      | .error .invalidArgument =>
        .ok (refuse res "Expected a number for Entity ID, did not get a number.".toList w)
      | .error .outOfRange => .error (.number .outOfRange)
      | .ok id =>
        match removeIdFromEntity w.entityIds targetEntity id with
        | some entityIds =>
          match faults.remove w.fs path with
          | some fs => .ok ⟨.ok, prepareDeletedResponse res id, fs, entityIds⟩
          | none =>
            .ok ⟨.internal_server_error, prepareServerErrorResponse res
              "Could not delete file assosciated with deleted Entity".toList, w.fs, entityIds⟩
        | none => .ok (refuse res ("Failed to Delete Entity at : ".toList ++ path) w)
    else
      .ok (refuse res ("Failed to find file during Entity Deletion at : ".toList ++ path) w)

/-- `ends_with_id`: only `invalid_argument` is caught. -/
def endsWithId (target : Str) : Except Exception Bool :=
  match stoi (possibleId target) with
  | .ok _ => .ok true
  | .error .invalidArgument => .ok false
  | .error .outOfRange => .error (.number .outOfRange)

/-- The loop of `list_entities` from the index `i` on: a comma follows all ids but the last. -/
def listingFrom (size : Nat) : Nat → List CInt → Str
  | _, [] => []
  | i, id :: ids =>
    toStr id ++ (if i ≠ predSize size then [','] else []) ++ listingFrom size (i + 1) ids

def listEntities : Reply CrudState :=
  let dir := possibleId req.target
  match w.entityIds.lookup dir with
  | none => refuse res ("Entity dir: ".toList ++ dir ++ " does not exist.".toList) w
  | some ids =>
    ⟨.ok, res.fill "application/json".toList ('[' :: listingFrom ids.length 0 ids ++ [']']), w⟩

def retrieveEntity : Except Exception (Reply CrudState) :=
  let entityId := possibleId req.target
  match stoi entityId with
  | .error e => .error (.number e)
  | .ok id =>
    let dir := retrievalDir req.target (findLastOf '/' req.target)
    if !entityExists w.entityIds dir id then
      .ok (refuse res ("Entity with id: ".toList ++ entityId ++ " does not exist in dir ".toList ++ dir)
        w)
    else
      let fullPath := root ++ '/' :: dir ++ '/' :: entityId
      match faults.openRead w.fs fullPath with
      | .closed => .ok (refuse res ("Failed to open entity file at: ".toList ++ fullPath) w)
      -- a directory opens, but its stream buffer throws when it is read
      | .directory => .error .iosFailure
      | .contents entityContents =>
        .ok ⟨.ok, res.fill "application/json".toList entityContents, w⟩

def handleGet : Except Exception (Reply CrudState) :=
  match endsWithId req.target with
  | .error e => .error e
  | .ok false => .ok (listEntities req res w)
  | .ok true => retrieveEntity root faults req res w

def handleUpdate : Except Exception (Reply CrudState) :=
  match lastSegment req.target with
  | none => .ok (refuse res "Invalid path format for Create Entity request.".toList w)
  | some (_, id) =>
    match stoi id with
    | .error .invalidArgument =>
      .ok (refuse res "Expected a number for Entity ID, did not get a number.".toList w)
    | .error .outOfRange => .error (.number .outOfRange)
    | .ok targetId =>
      let targetUrlDir := req.target.take (req.target.length - (toStr targetId).length - 1)
      match lastSegment targetUrlDir with
      | none => .ok (refuse res "Invalid path format for Create Entity request.".toList w)
      | some (_, targetDir) => do
        let dirPath := root ++ '/' :: targetDir
        let path := dirPath ++ '/' :: toStr targetId
        if ← faults.isMissing w.fs path dirPath then
          match faults.createDirectory w.fs dirPath with
          | none => .ok (refuse res "Creation of directory for Entity failed.".toList w)
          | some fs =>
            match faults.writeFile fs path req.body with
            | some fs =>
              .ok ⟨.created, prepareCreatedResponse res targetId, fs,
                addIdToEntity w.entityIds targetDir targetId⟩
            | none =>
              .ok (refuse res ("Failed to overwrite the file at : ".toList ++ path) ⟨fs, w.entityIds⟩)
        else
          match faults.writeFile w.fs path req.body with
          | some fs => .ok ⟨.ok, prepareUpdateResponse res targetId, fs, w.entityIds⟩
          | none => .ok (refuse res ("Failed to overwrite the file at : ".toList ++ path) w)

/-- `CrudHandler::handle_request`. -/
def CrudHandler.handleRequest : Except Exception (Reply CrudState) :=
  match req.method with
  | .post => handleCreation root faults req res w
  | .get => handleGet root faults req res w
  | .put => handleUpdate root faults req res w
  | .delete_ => handleDeletion root faults req res w
  | .other _ => .ok ⟨.bad_request, res, w⟩

end

end SocialNetworkApp
