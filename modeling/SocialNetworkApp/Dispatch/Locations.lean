import SocialNetworkApp.Crud.Covering
import SocialNetworkApp.Dispatch.NullPointers
import SocialNetworkApp.Meme.Service

/-!
# Locations

What a request does at a location, by the kind of its handlers: with entities it scans the disk and
does one operation of the store, with memes it may have to make the module and does one exchange
with the board. What only reads entities, and what all other handlers do, leaves disk and modules
as they are.
-/

namespace SocialNetworkApp

open SocialNetworkApp.Core

/-- The location has handlers of this class with this root. -/
structure RequestDispatcher.HandlesAt (d : RequestDispatcher) (type : HandlerType)
    (location root : Str) : Prop where
  factory : ∃ f, d.handlerFactories.lookup location = some f ∧ f.type = type
  arguments : ∃ config, d.arguments location = some config ∧ config.rootArgument = some root

/-- The methods with which a handler of entities changes nothing. -/
def Verb.ReadsOnly : Verb → Prop
  | .get | .other _ => True
  | _ => False

/-- No location is matched, or one whose handlers keep no state, or one of entities by a method that
only reads them. -/
def RequestDispatcher.ReadOnlyAt (d : RequestDispatcher) (req : Request) : Prop :=
  ∀ location, d.match_ req.target = some location →
    ∃ f, d.handlerFactories.lookup location = some f ∧ f.type ≠ .meme ∧
      (f.type = .crud → req.method.ReadsOnly)

/-- Nothing is changed but the ids of entities that a scan has entered. -/
structure World.SameButIds {F : Type} (w w' : World F) : Prop where
  fs_eq : w'.fs = w.fs
  memeModules_eq : w'.memeModules = w.memeModules

lemma World.SameButIds.trans {F : Type} {w w' w'' : World F} (h : w.SameButIds w')
    (h' : w'.SameButIds w'') : w.SameButIds w'' :=
  ⟨h'.fs_eq.trans h.fs_eq, h'.memeModules_eq.trans h.memeModules_eq⟩

/-- A location of memes: the factory made for it, the root of its module, and the directory that the
root names. -/
structure MemeSite where
  location : Str
  factory : FactoryPtr
  root : Str
  path : List Str
deriving DecidableEq

/-- The location has handlers of memes with this root. -/
structure RequestDispatcher.MemesAt (d : RequestDispatcher) (m : MemeSite) : Prop where
  factory : d.handlerFactories.lookup m.location = some m.factory
  type : m.factory.type = .meme
  arguments : ∃ config, d.arguments m.location = some config ∧ config.rootArgument = some m.root

/-- The files below a root, as a store. -/
def siteStore (R : List Str) (fs : FileSystem) : Store := fun key =>
  fs.tree.content (R ++ [key.1] ++ [toStr key.2])

/-! ### Responses -/

namespace StoreOp

variable {op : StoreOp} {s : Store} {status : Status} {response response' : Response}

/-- A store answers with these statuses. -/
lemma AnsweredBy.status_cases (h : op.AnsweredBy s status response) :
    status = .ok ∨ status = .created ∨ status = .bad_request := by
  cases op with
  | post dir body => exact Or.inr (Or.inl h.1)
  | put dir id body =>
    rw [show status = _ from h]
    split_ifs <;> simp
  | delete dir id =>
    rw [show status = _ from h]
    split_ifs <;> simp
  | get dir id =>
    simp only [AnsweredBy] at h
    split at h
    · exact Or.inl h.1
    · exact Or.inr (Or.inr h)

/-- The response to a bad request tells nothing of the store. -/
lemma AnsweredBy.of_bad_request (h : op.AnsweredBy s .bad_request response) :
    op.AnsweredBy s .bad_request response' := by
  cases op with
  | post dir body => exact absurd h.1 (by decide)
  | put dir id body => exact h
  | delete dir id => exact h
  | get dir id =>
    simp only [AnsweredBy] at h ⊢
    split at h
    · exact absurd h.1 (by decide)
    · trivial

lemma effect_bad_request : op.effect .bad_request response = [] := by
  cases op <;> rfl

/-- What the dispatcher makes of a response says no less of the store. -/
lemma answeredBy_overwritten (h : op.AnsweredBy s status response)
    (hresult : response.result = status) :
    op.AnsweredBy s (response.overwritten status).result (response.overwritten status) ∧
      op.effect (response.overwritten status).result (response.overwritten status) =
        op.effect status response := by
  have hsame : status.errorBody = none → response.overwritten status = response := by
    intro hnone
    rw [Response.overwritten, hnone]
  rcases h.status_cases with rfl | rfl | rfl
  · rw [hsame rfl, hresult]
    exact ⟨h, rfl⟩
  · rw [hsame rfl, hresult]
    exact ⟨h, rfl⟩
  · exact ⟨h.of_bad_request, effect_bad_request.trans effect_bad_request.symm⟩

end StoreOp

section

variable {F : Type} {lib : Library F} {d : RequestDispatcher} {w w' : World F} {req : Request}
  {res : Response} {chance : Chance} {R : List Str} {op : StoreOp}

/-- An operation on entities, through the dispatcher. -/
lemma handleRequest_crudAt {location root : Str} (hmatch : d.match_ req.target = some location)
    (hlocation : d.HandlesAt .crud location root) (hroot : EntityRoot R root w.fs)
    (hdir : PlainName op.dir) (hreq : op.RequestedBy req) (hres : res.result = .ok) (hfaults : chance.faults = {}) :
    ∃ response w', d.handleRequest lib chance req res w = .ok (response, w') ∧
      op.AnsweredBy (siteStore R w.fs) response.result response ∧
      siteStore R w'.fs = replay (siteStore R w.fs) (op.effect response.result response) ∧
      EntityRoot R root w'.fs ∧ w.fs.GrowsBelow R w'.fs ∧ w'.memeModules = w.memeModules := by
  obtain ⟨f, hf, htype⟩ := hlocation.factory
  obtain ⟨config, hconfig, hargument⟩ := hlocation.arguments
  obtain ⟨entityIds, hscan, hcovered⟩ :=
    @initializeEntityMap_covered R root ⟨w.fs, w.entityIds f⟩ chance.uninitId hroot
  obtain ⟨reply, hreply, hkept⟩ := handleRequest_kept hcovered hdir hreq hres
  obtain ⟨hanswer, heffect⟩ := StoreOp.answeredBy_overwritten hkept.answer hkept.result
  refine ⟨reply.response.overwritten reply.status,
    { w with
      fs := reply.state.fs
      entityIds := Function.update (Function.update w.entityIds f entityIds) f
        reply.state.entityIds }, ?_, hanswer, ?_, hkept.disk, hkept.grows, rfl⟩
  · rw [RequestDispatcher.handleRequest, hmatch]
    simp only [RequestDispatcher.handleAt, hconfig, hf, FactoryPtr.create, htype,
      CrudHandlerFactory.create, hargument, hscan, Except.map, Option.map_some,
      Handler.handleRequest, hfaults, Function.update_self, hreply]
  · rw [heffect]
    exact hkept.entities_eq

/-- The handler keeps no memes, and with this method changes no entities. -/
def Handler.ReadOnly (method : Verb) : Handler F → Prop
  | .crud _ => method.ReadsOnly
  | .meme _ _ => False
  | _ => True

lemma CrudHandler.state_of_readsOnly {root : Str} {faults : Faults} (h : req.method.ReadsOnly)
    {crud : CrudState} {reply : Reply CrudState}
    (hreply : CrudHandler.handleRequest root faults req res crud = .ok reply) :
    reply.state = crud := by
  rw [CrudHandler.handleRequest] at hreply
  cases hmethod : req.method with
  | get =>
    simp only [hmethod] at hreply
    exact handleGet_state hreply
  | other name =>
    simp only [hmethod] at hreply
    cases hreply
    rfl
  | _ =>
    rw [hmethod] at h
    cases h

lemma Handler.sameButIds_of_readOnly {handler : Handler F} (h : handler.ReadOnly req.method)
    {f : FactoryPtr} {reply : Reply (World F)}
    (hreply : handler.handleRequest lib chance f req res w = .ok reply) :
    w.SameButIds reply.state := by
  cases handler with
  | crud root =>
    obtain ⟨answered, hanswered, rfl⟩ := exists_of_map_eq_ok hreply
    have hstate := CrudHandler.state_of_readsOnly h hanswered
    exact ⟨by rw [hstate], rfl⟩
  | meme location memes => cases h
  | static fileName =>
    obtain ⟨answered, -, rfl⟩ := exists_of_map_eq_ok hreply
    exact ⟨rfl, rfl⟩
  | _ =>
    cases hreply
    exact ⟨rfl, rfl⟩

/-- A factory that makes no handler of memes scans at most. -/
lemma FactoryPtr.create_readOnly {f : FactoryPtr} (hmeme : f.type ≠ .meme) {method : Verb}
    (hmethod : f.type = .crud → method.ReadsOnly) {location url : Str} {config : NginxConfig}
    {made : Option (Handler F) × World F}
    (hmade : f.create lib chance location url config w = .ok made) :
    w.SameButIds made.2 ∧ ∀ handler, made.1 = some handler → handler.ReadOnly method := by
  unfold FactoryPtr.create at hmade
  cases htype : f.type with
  | crud =>
    rw [htype] at hmade
    obtain ⟨⟨root, crud⟩, -, rfl⟩ := exists_of_map_eq_ok hmade
    refine ⟨⟨rfl, rfl⟩, ?_⟩
    rintro handler hhandler
    obtain ⟨r, -, rfl⟩ := Option.map_eq_some_iff.mp hhandler
    exact hmethod htype
  | meme => exact absurd htype hmeme
  | static =>
    rw [htype] at hmade
    cases hmade
    refine ⟨⟨rfl, rfl⟩, ?_⟩
    intro handler hhandler
    simp only [StaticHandlerFactory.create] at hhandler
    split at hhandler
    · cases hhandler
    · split_ifs at hhandler
      cases hhandler
      trivial
  | _ =>
    rw [htype] at hmade
    cases hmade
    refine ⟨⟨rfl, rfl⟩, ?_⟩
    intro handler hhandler
    cases hhandler
    trivial

/-- A request that only reads leaves all but the ids as it is. -/
lemma handleRequest_readOnlyAt (h : d.ReadOnlyAt req) {response : Response}
    (hreply : d.handleRequest lib chance req res w = .ok (response, w')) : w.SameButIds w' := by
  rw [RequestDispatcher.handleRequest] at hreply
  cases hmatch : d.match_ req.target with
  | none =>
    rw [hmatch] at hreply
    cases hreply
    exact ⟨rfl, rfl⟩
  | some location =>
    obtain ⟨f, hf, hmeme, hmethod⟩ := h location hmatch
    rw [hmatch] at hreply
    simp only [RequestDispatcher.handleAt, hf] at hreply
    cases harguments : d.arguments location with
    | none =>
      rw [harguments] at hreply
      cases hreply
    | some arguments =>
      simp only [harguments] at hreply
      cases hmade : f.create lib chance location req.target arguments w with
      | error e =>
        rw [hmade] at hreply
        cases hreply
      | ok made =>
        obtain ⟨handler, w₁⟩ := made
        obtain ⟨hmade', hreadOnly⟩ := FactoryPtr.create_readOnly hmeme hmethod hmade
        rw [hmade] at hreply
        cases handler with
        | none => cases hreply
        | some handler =>
          simp only at hreply
          cases hanswer : handler.handleRequest lib chance f req res w₁ with
          | error e =>
            rw [hanswer] at hreply
            cases hreply
          | ok reply =>
            rw [hanswer] at hreply
            cases hreply
            exact hmade'.trans (Handler.sameButIds_of_readOnly (hreadOnly handler rfl) hanswer)

/-- A request at a static location reads one file. -/
lemma handleRequest_staticAt {location root : Str} (hmatch : d.match_ req.target = some location)
    (hlocation : d.HandlesAt .static location root) :
    d.handleRequest lib chance req res w =
      match StaticHandler.handleRequest w.fs (root ++ req.target.drop location.length) res with
      | .error e => .error (.exception e)
      | .ok (status, response) => .ok (response.overwritten status, w) := by
  obtain ⟨f, hf, htype⟩ := hlocation.factory
  obtain ⟨config, hconfig, hargument⟩ := hlocation.arguments
  obtain ⟨-, hurl⟩ := RequestDispatcher.match_eq_some hmatch
  have htake : req.target.take location.length = location :=
    (List.prefix_iff_eq_take.mp hurl).symm
  rw [RequestDispatcher.handleRequest, hmatch]
  simp only [RequestDispatcher.handleAt, hconfig, hf, FactoryPtr.create, htype,
    StaticHandlerFactory.create, hargument, if_pos htake, Handler.handleRequest]
  cases StaticHandler.handleRequest w.fs (root ++ req.target.drop location.length) res <;> rfl

/-! ### Memes -/

/-- The board of a location of memes: that of its module, or an empty one as long as there is no
module. -/
inductive MemeSite.Holds (lib : Library F) (m : MemeSite) (w : World F) : MemeBoard → Prop
  | unloaded (hmodule : (w.memeModules m.factory).lookup m.root = none)
      (hroot : m.root.getLast? ≠ some '/') (hname : w.fs.Denotes m.root m.path)
      (hdir : w.fs.tree.IsDir m.path) (hempty : w.fs.tree.children m.path = []) :
      Holds lib m w .empty
  | loaded {memes : MemeModule F} {b : MemeBoard}
      (hmodule : (w.memeModules m.factory).lookup m.root = some memes)
      (hheld : b.Held lib.float lib.tree m.path m.root ⟨w.fs, memes⟩) : Holds lib m w b

namespace MemeSite

variable {m : MemeSite} {b : MemeBoard}

/-- The factory finds the module of the board, or makes it. -/
lemma Holds.create (h : m.Holds lib w b) (hfloat : lib.float.Reads)
    (hmeme : chance.meme.faults = {}) {config : NginxConfig}
    (hargument : config.rootArgument = some m.root) :
    ∃ memes modules, MemeHandlerFactory.create lib chance m.location config w.fs
        (w.memeModules m.factory) = .ok (some (.meme m.location memes), modules) ∧
      b.Held lib.float lib.tree m.path m.root ⟨w.fs, memes⟩ ∧
      ∀ r, r ≠ m.root → modules.lookup r = (w.memeModules m.factory).lookup r := by
  cases h with
  | unloaded hmodule hroot hname hdir hempty =>
    obtain ⟨memes, hload, hheld⟩ :=
      @MemeHandler.held_empty F lib.float lib.tree m.path m.root w.fs hfloat hroot hname hdir hempty
        chance.uninit
    refine ⟨memes, (w.memeModules m.factory).insert m.root memes, ?_, hheld, ?_⟩
    · simp only [MemeHandlerFactory.create, hargument, hmodule, hmeme, hload, Except.map]
    · intro r hr
      exact AList.lookup_insert_ne hr
  | @loaded memes _ hmodule hheld =>
    refine ⟨memes, w.memeModules m.factory, ?_, hheld, fun r _ => rfl⟩
    simp only [MemeHandlerFactory.create, hargument, hmodule]

end MemeSite

/-- A request to a location of memes, through the dispatcher. -/
lemma handleRequest_memesAt {m : MemeSite} {b : MemeBoard} {response : Response}
    (hmatch : d.match_ req.target = some m.location) (hlocation : d.MemesAt m)
    (hholds : m.Holds lib w b) (hfloat : lib.float.Reads) (htree : ¬ Meme.Parses lib.tree [])
    (hmeme : chance.meme.faults = {})
    (hdrawn : req.method = .post → req.target = m.location ++ "/comment".toList →
      PlainName chance.meme.uuid ∧ ¬ b.store.Names chance.meme.uuid)
    (hlt : b.memes.length + 1 < 2 ^ 31)
    (hreply : d.handleRequest lib chance req {} w = .ok (response, w')) :
    ∃ status answer b',
      MemeBoard.Serves lib.float lib.tree m.location b ⟨req, chance.meme, status, answer⟩ b' ∧
      response = answer.overwritten status ∧ m.Holds lib w' b' ∧ w.fs.GrowsBelow m.path w'.fs ∧
      ∀ f r, (f, r) ≠ (m.factory, m.root) →
        (w'.memeModules f).lookup r = (w.memeModules f).lookup r := by
  obtain ⟨config, hconfig, hargument⟩ := hlocation.arguments
  obtain ⟨memes, modules, hcreate, hheld, hothers⟩ := hholds.create hfloat hmeme hargument
  rw [RequestDispatcher.handleRequest, hmatch] at hreply
  simp only [RequestDispatcher.handleAt, hconfig, hlocation.factory, FactoryPtr.create,
    hlocation.type, hcreate, Except.map, Handler.handleRequest] at hreply
  cases hanswer : MemeHandler.handleRequest lib.float lib.tree chance.meme m.location req {}
      ⟨w.fs, memes⟩ with
  | error e =>
    rw [hanswer] at hreply
    cases hreply
  | ok reply =>
    rw [hanswer] at hreply
    cases hreply
    obtain ⟨b', hserves, hheld', hgrows⟩ :=
      MemeBoard.agrees_request hheld hmeme htree hdrawn hlt reply hanswer
    have hroot : reply.state.memes.root = m.root := hheld'.stored.memory.root_eq
    refine ⟨reply.status, reply.response, b', hserves, rfl, .loaded ?_ hheld', hgrows, ?_⟩
    · simp only [hroot, Function.update_self, AList.lookup_insert]
    · intro f r hne
      by_cases hf : f = m.factory
      · subst hf
        have hr : r ≠ m.root := fun hr => hne (by rw [hr])
        simp only [hroot, Function.update_self, AList.lookup_insert_ne hr]
        exact hothers r hr
      · simp only [Function.update_of_ne hf]

end

end SocialNetworkApp
