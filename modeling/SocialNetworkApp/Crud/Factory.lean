import SocialNetworkApp.Config.Routes
import SocialNetworkApp.Crud.Handler

/-!
# The factory of CRUD handlers

`CrudHandlerFactory::create` scans the directories below the root each time it is called, and adds
what it finds to the ids it already has.
-/

namespace SocialNetworkApp

open SocialNetworkApp.Core

/-- The root named by the first statement of a block, as the factories that need one read it;
`none` where they return the null pointer. -/
def NginxConfig.rootArgument (config : NginxConfig) : Option Str :=
  match config.statements with
  | [] => none
  | statement :: _ =>
    match statement.tokens with
    | [name, value] => if name = "root".toList then some (removeTrailingSlashes value) else none
    | _ => none

/-- Enter an id found on the disk. -/
def scanId (dir : Str) (entityIds : EntityIds) (id : CInt) : EntityIds :=
  match entityIds.lookup dir with
  | none => entityIds.insert dir [id]
  | some ids => entityIds.insert dir ((ids ++ [id]).insertionSort (· ≤ ·))

/-- The id read from a file name. A name that is not a number leaves `id` as it was found, which is
the parameter `uninit`. -/
def scannedId (uninit : Str → CInt) (path name : Str) : Except Exception CInt :=
  match stoi name with
  | .ok id => .ok id
  | .error .invalidArgument => .ok (uninit path)
  | .error .outOfRange => .error (.number .outOfRange)

/-- Enter the id of a file of `dir`. -/
def scanFile (uninit : Str → CInt) (root dir : Str) (entityIds : EntityIds) (name : Str) :
    Except Exception EntityIds :=
  (scannedId uninit (root ++ '/' :: dir ++ '/' :: name) name).map (scanId dir entityIds)

/-- The inner loop of `initialize_entity_map`. -/
def scanDirectory (uninit : Str → CInt) (faults : Faults) (fs : FileSystem) (root : Str)
    (entityIds : EntityIds) (dir : Str) : Except Exception EntityIds := do
  let directoryPath := root ++ '/' :: dir
  if ← faults.isDirectory fs directoryPath then
    let names ← faults.entries fs directoryPath
    names.foldlM (scanFile uninit root dir) entityIds
  else .ok entityIds

def initializeEntityMap (uninit : Str → CInt) (faults : Faults) (root : Str) (w : CrudState) :
    Except Exception EntityIds := do
  if ← faults.isNoDirectory w.fs root then .ok w.entityIds
  else
    let dirs ← faults.entries w.fs root
    dirs.foldlM (scanDirectory uninit faults w.fs root) w.entityIds

/-- `CrudHandlerFactory::create`: the root of the new handler, or `none` for the null pointer. -/
def CrudHandlerFactory.create (uninit : Str → CInt) (faults : Faults) (config : NginxConfig)
    (w : CrudState) : Except Exception (Option Str × CrudState) :=
  match config.rootArgument with
  | none => .ok (none, w)
  | some root =>
    (initializeEntityMap uninit faults root w).map fun entityIds =>
      (some root, ⟨w.fs, entityIds⟩)

/-! ### Where no query throws -/

section

variable {uninit : Str → CInt} {faults : Faults} {fs : FileSystem} {root dir : Str}
  {entityIds entityIds' : EntityIds} {w : CrudState}

lemma scanDirectory_empty : scanDirectory uninit {} fs root entityIds dir =
    if fs.isDirectory (root ++ '/' :: dir) then
      (fs.entries (root ++ '/' :: dir)).foldlM (scanFile uninit root dir) entityIds
    else .ok entityIds := rfl

lemma initializeEntityMap_empty : initializeEntityMap uninit {} root w =
    if !w.fs.pathExists root || !w.fs.isDirectory root then .ok w.entityIds
    else (w.fs.entries root).foldlM (scanDirectory uninit {} w.fs root) w.entityIds := by
  simp only [initializeEntityMap, Faults.isNoDirectory_empty, ok_bind]
  rfl

/-- A scan of a directory that is told all it asks for. -/
lemma scanDirectory_eq_ok (h : scanDirectory uninit faults fs root entityIds dir = .ok entityIds') :
    scanDirectory uninit {} fs root entityIds dir = .ok entityIds' := by
  obtain ⟨isDirectory, hask, h⟩ := exists_of_bind_eq_ok h
  obtain ⟨-, rfl⟩ := Faults.ask_eq_ok_iff.mp hask
  rw [scanDirectory_empty]
  split_ifs at h ⊢
  · obtain ⟨names, hentries, h⟩ := exists_of_bind_eq_ok h
    obtain ⟨-, rfl⟩ := Faults.ask_eq_ok_iff.mp hentries
    exact h
  · exact h

/-- A scan that returns is one in which no query throws. -/
lemma initializeEntityMap_eq_ok (h : initializeEntityMap uninit faults root w = .ok entityIds) :
    initializeEntityMap uninit {} root w = .ok entityIds := by
  obtain ⟨missing, hask, h⟩ := exists_of_bind_eq_ok h
  obtain ⟨-, rfl⟩ := Faults.isNoDirectory_eq_ok_iff.mp hask
  rw [initializeEntityMap_empty]
  split_ifs at h ⊢
  · exact h
  · obtain ⟨dirs, hentries, h⟩ := exists_of_bind_eq_ok h
    obtain ⟨-, rfl⟩ := Faults.ask_eq_ok_iff.mp hentries
    exact foldlM_eq_ok (fun _ _ _ => scanDirectory_eq_ok) h

end

end SocialNetworkApp
