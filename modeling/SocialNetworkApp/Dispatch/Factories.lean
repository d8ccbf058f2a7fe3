import Mathlib.Logic.Function.Basic
import SocialNetworkApp.Crud.Factory
import SocialNetworkApp.Http.Handlers
import SocialNetworkApp.Meme.Handler

/-!
# Factories and handlers

A factory makes a new handler for every request. What outlives a request is the file system, the ids
in the factories of CRUD handlers, and the modules in the factories of meme handlers.
-/

namespace SocialNetworkApp

open SocialNetworkApp.Core

/-- What the handlers use of other libraries. -/
structure Library (F : Type) where
  serialize : Request → Str
  float : FloatArith F
  tree : PropertyTree F

/-- What a request leaves to chance. -/
structure Chance where
  faults : Faults := {}
  meme : MemeChance := {}
  uninitId : Str → CInt := fun _ => 0
  uninit : MemeModule.Uninit := ⟨fun _ => 0, fun _ => 0⟩

/-- The state the requests share. -/
structure World (F : Type) where
  fs : FileSystem
  entityIds : FactoryPtr → EntityIds
  memeModules : FactoryPtr → Table Str (MemeModule F)

/-- The classes below `RequestHandler`, with their fields. -/
inductive Handler (F : Type) where
  | block
  | echo
  | fileNotFound
  | health
  | static (fileName : Str)
  | crud (root : Str)
  | meme (location : Str) (memes : MemeModule F)

variable {F : Type} (lib : Library F) (chance : Chance)

/-- `StaticHandlerFactory::create`; `none` is the null pointer. -/
def StaticHandlerFactory.create (location url : Str) (config : NginxConfig) : Option (Handler F) :=
  match config.rootArgument with
  | none => none
  | some fileDir =>
    if url.take location.length = location then
      some (.static (fileDir ++ url.drop location.length))
    else none

/-- `MemeHandlerFactory::create`, with the modules it leaves behind. -/
def MemeHandlerFactory.create (location : Str) (config : NginxConfig) (fs : FileSystem)
    (memeModules : Table Str (MemeModule F)) :
    Except Exception (Option (Handler F) × Table Str (MemeModule F)) :=
  match config.rootArgument with
  | none => .ok (none, memeModules)
  | some root =>
    match memeModules.lookup root with
    | some memes => .ok (some (.meme location memes), memeModules)
    | none =>
      (MemeModule.load lib.float chance.meme.faults chance.uninit fs root).map fun memes =>
        (some (.meme location memes), memeModules.insert root memes)

/-- `factory->create(location, url, arguments)`. -/
def FactoryPtr.create (factory : FactoryPtr) (location url : Str) (config : NginxConfig)
    (w : World F) : Except Exception (Option (Handler F) × World F) :=
  match factory.type with
  | .block => .ok (some .block, w)
  | .echo => .ok (some .echo, w)
  | .fileNotFound => .ok (some .fileNotFound, w)
  | .health => .ok (some .health, w)
  | .static => .ok (StaticHandlerFactory.create location url config, w)
  | .crud =>
    (CrudHandlerFactory.create chance.uninitId chance.faults config ⟨w.fs, w.entityIds factory⟩).map
      fun (root, crud) => (root.map .crud,
        { w with entityIds := Function.update w.entityIds factory crud.entityIds })
  | .meme =>
    (MemeHandlerFactory.create lib chance location config w.fs (w.memeModules factory)).map
      fun (handler, memeModules) => (handler,
        { w with memeModules := Function.update w.memeModules factory memeModules })

/-- `handler->handle_request(req, res)`, for a handler made by `factory`. -/
def Handler.handleRequest (handler : Handler F) (factory : FactoryPtr) (req : Request)
    (res : Response) (w : World F) : Except Exception (Reply (World F)) :=
  let stateless (answered : Status × Response) : Reply (World F) := ⟨answered.1, answered.2, w⟩
  match handler with
  | .block => .ok (stateless (BlockHandler.handleRequest res))
  | .echo => .ok (stateless (EchoHandler.handleRequest lib.serialize req res))
  | .fileNotFound => .ok (stateless (FileNotFoundHandler.handleRequest res))
  | .health => .ok (stateless (HealthHandler.handleRequest res))
  | .static fileName => (StaticHandler.handleRequest w.fs fileName res).map stateless
  | .crud root =>
    (CrudHandler.handleRequest root chance.faults req res ⟨w.fs, w.entityIds factory⟩).map
      fun reply => ⟨reply.status, reply.response,
        { w with
          fs := reply.state.fs
          entityIds := Function.update w.entityIds factory reply.state.entityIds }⟩
  | .meme location memes =>
    (MemeHandler.handleRequest lib.float lib.tree chance.meme location req res ⟨w.fs, memes⟩).map
      fun reply => ⟨reply.status, reply.response,
        { w with
          fs := reply.state.fs
          memeModules := Function.update w.memeModules factory
            ((w.memeModules factory).insert reply.state.memes.root reply.state.memes) }⟩

end SocialNetworkApp
