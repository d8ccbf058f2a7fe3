import SocialNetworkApp.Crud.Agreement
import SocialNetworkApp.Dispatch.Refusal

/-!
# Framing

The dispatcher replaces the body of a response without preparing the payload again. So the length
that is announced is wrong exactly where a handler has announced one and then returned the status of
an error: the handler for missing files, and CRUD handlers that refuse a request.
-/

namespace SocialNetworkApp

open SocialNetworkApp.Core

/-! ### The switch -/

lemma framed_of_contentLength_none {res : Response} (h : res.contentLength = none) : res.Framed := by
  intro n hn
  rw [h] at hn
  cases hn

lemma contentLength_overwritten (status : Status) (res : Response) :
    (res.overwritten status).contentLength = res.contentLength := by
  unfold Response.overwritten
  cases status.errorBody <;> rfl

/-- A response that announces no length is not spoilt by the switch. -/
lemma framed_overwritten_of_none {status : Status} {res : Response} (h : res.contentLength = none) :
    (res.overwritten status).Framed := by
  apply framed_of_contentLength_none
  rw [contentLength_overwritten, h]

lemma Reply.Success.framed {S : Type} {reply : Reply S} (h : reply.Success) :
    (reply.response.overwritten reply.status).Framed := by
  rw [Response.overwritten, h.1]
  exact h.2

lemma Reply.Refusal.not_framed {S : Type} {reply : Reply S} (h : reply.Refusal) :
    ¬ (reply.response.overwritten reply.status).Framed := by
  obtain ⟨body, n, hbody, hlength, hlt⟩ := h
  intro hframed
  have hn : n = (reply.response.overwritten reply.status).body.length :=
    hframed n (by rw [contentLength_overwritten, hlength]; rfl)
  rw [Response.overwritten, hbody] at hn
  exact absurd hn hlt.ne'

/-! ### The meme handler -/

/-- The reply leaves the response alone, or is a success. -/
def Reply.Plain {S : Type} (res : Response) (reply : Reply S) : Prop :=
  reply.response = res ∨ reply.Success

lemma Reply.Plain.framed {S : Type} {res : Response} {reply : Reply S} (h : reply.Plain res)
    (hres : res.contentLength = none) : (reply.response.overwritten reply.status).Framed := by
  rcases h with hsame | hsuccess
  · rw [hsame]
    exact framed_overwritten_of_none hres
  · exact hsuccess.framed

namespace MemeHandler

variable {F : Type} {float : FloatArith F} {tree : PropertyTree F} {chance : MemeChance}
  {location : Str} {req : Request} {res : Response} {w : MemeState F}

lemma plain_fail {status : Status} : Returns (fail res status w) (Reply.Plain res) :=
  .ok (Or.inl rfl)

lemma plain_answer {status : Status} {contentType body : Str} (h : status.errorBody = none) :
    Returns (answer res status contentType body w) (Reply.Plain res) :=
  .ok (Or.inr ⟨h, Response.framed_fill _ _ _⟩)

lemma plain_postMeme : Returns (handlePostMeme float tree chance req res w) (Reply.Plain res) := by
  apply Returns.bind
  intro meme
  rcases MemeModule.create chance.faults meme.content w with ⟨made | id, w'⟩
  · exact plain_fail
  · exact plain_answer rfl

lemma plain_postComment :
    Returns (handlePostComment float tree chance req res w) (Reply.Plain res) := by
  apply Returns.bind
  intro comment
  rcases stoi comment.id with (_ | _) | id
  · exact plain_fail
  · exact .error
  · simp only
    rcases stoi comment.rating with (_ | _) | rating
    · exact plain_fail
    · exact .error
    · exact plain_answer rfl

lemma plain_post : Returns (handlePost float tree chance location req res w) (Reply.Plain res) := by
  apply Returns.ite
  · exact fun _ => plain_fail
  · intro _
    apply Returns.ite
    · exact fun _ => plain_postComment
    · exact fun _ => Returns.ite (fun _ => plain_postMeme) fun _ => plain_fail

lemma plain_randomMeme :
    Returns (handleGetRandomMeme float tree chance res w) (Reply.Plain res) := by
  unfold handleGetRandomMeme
  apply Returns.ite
  · exact fun _ => plain_fail
  · intro _
    apply Returns.bind
    rintro ⟨_ | meme, w'⟩
    · exact plain_fail
    · exact plain_answer rfl

lemma plain_memeById :
    Returns (handleGetMemeById float tree chance location req res w) (Reply.Plain res) := by
  apply Returns.bind
  intro id
  apply Returns.bind
  rintro ⟨_ | meme, w'⟩
  · exact plain_fail
  · exact plain_answer rfl

lemma plain_form {target contentType page : Str} :
    Returns (if req.target ≠ target then fail res .not_found w
      else answer res .ok contentType page w) (Reply.Plain res) := by
  apply Returns.ite
  · exact fun _ => plain_fail
  · exact fun _ => plain_answer rfl

lemma plain_handleGet :
    Returns (handleGet float tree chance location req res w) (Reply.Plain res) := by
  apply Returns.ite
  · exact fun _ => plain_form
  · intro _
    apply Returns.ite
    · exact fun _ => plain_randomMeme
    · intro _
      apply Returns.ite
      · exact fun _ => plain_answer rfl
      · intro _
        apply Returns.bind
        intro byId
        apply Returns.ite
        · exact fun _ => plain_memeById
        · intro _
          apply Returns.bind
          intro info
          apply Returns.ite
          · exact fun _ => .bind fun id => .bind fun comments => plain_answer rfl
          · intro _
            apply Returns.ite
            · exact fun _ => plain_form
            · intro _
              apply Returns.bind
              intro byViews
              apply Returns.ite
              · exact fun _ => .bind fun views => plain_answer rfl
              · intro _
                apply Returns.bind
                intro byRating
                apply Returns.ite
                · exact fun _ => .bind fun rating => plain_answer rfl
                · exact fun _ => plain_fail

/-- The meme handler never fills a response it returns an error with. -/
theorem plain_handleRequest :
    Returns (handleRequest float tree chance location req res w) (Reply.Plain res) := by
  unfold handleRequest
  cases req.method with
  | post => exact plain_post
  | get => exact plain_handleGet
  | put | delete_ | other => exact plain_fail

end MemeHandler

/-! ### All handlers -/

section

variable {F : Type} {lib : Library F} {chance : Chance} {factory : FactoryPtr} {location : Str}
  {req : Request} {c : NginxConfig} {w w₁ : World F} {handler : Handler F} {reply : Reply (World F)}

lemma plain_static {fs : FileSystem} {fileName : Str} {res : Response} :
    Returns (StaticHandler.handleRequest fs fileName res) fun answered =>
      answered.2 = res ∨ answered.1.errorBody = none ∧ answered.2.Framed := by
  have hserved (content : Str) : Returns ((MIME.getMimeType fileName).map fun contentType =>
      (Status.ok, { res with version := 11, result := .ok }.fill contentType content))
      fun answered => answered.2 = res ∨ answered.1.errorBody = none ∧ answered.2.Framed := by
    intro answered h
    obtain ⟨contentType, -, rfl⟩ := exists_of_map_eq_ok h
    exact Or.inr ⟨rfl, Response.framed_fill _ _ _⟩
  unfold StaticHandler.handleRequest
  cases fs.openRead fileName with
  | closed => exact .ok (Or.inl rfl)
  | directory => exact hserved []
  | contents content => exact hserved content

/-- The replies of a CRUD handler with a fresh response are framed exactly if they are granted, or
the method is none of the four. -/
lemma framed_crud_iff {root : Str} {faults : Faults} {crud : CrudState} {reply : Reply CrudState}
    (h : CrudHandler.handleRequest root faults req {} crud = .ok reply) :
    (reply.response.overwritten reply.status).Framed ↔
      ((∀ name, req.method ≠ .other name) → CrudHandler.Grants root faults req crud) := by
  by_cases hmethod : ∀ name, req.method ≠ .other name
  · rcases CrudHandler.handleRequest_decides hmethod reply h with
      ⟨hsuccess, hgrants⟩ | ⟨hrefusal, hnot⟩
    · exact iff_of_true hsuccess.framed fun _ => hgrants
    · exact iff_of_false hrefusal.not_framed fun hgrants => hnot (hgrants hmethod)
  · refine iff_of_true ?_ fun h => absurd h hmethod
    push Not at hmethod
    obtain ⟨name, hname⟩ := hmethod
    rw [CrudHandler.handleRequest, hname] at h
    cases h
    exact framed_overwritten_of_none rfl

lemma eq_static_of_create {location url : Str}
    (h : StaticHandlerFactory.create location url c = some handler) :
    ∃ fileName, handler = .static fileName := by
  unfold StaticHandlerFactory.create at h
  split at h
  · cases h
  · split_ifs at h
    exact ⟨_, (Option.some.inj h).symm⟩

lemma CrudHandlerFactory.create_eq_ok {uninit : Str → CInt} {faults : Faults} {root : Str} {crud crud' : CrudState}
    (h : create uninit faults c crud = .ok (some root, crud')) :
    ∃ entityIds, c.rootArgument = some root ∧
      initializeEntityMap uninit faults root crud = .ok entityIds ∧ crud' = ⟨crud.fs, entityIds⟩ := by
  unfold create at h
  cases hroot : c.rootArgument with
  | none =>
    rw [hroot] at h
    cases h
  | some root' =>
    rw [hroot] at h
    obtain ⟨entityIds, hscan, heq⟩ := exists_of_map_eq_ok h
    cases heq
    exact ⟨entityIds, rfl, hscan, rfl⟩

lemma eq_meme_of_create {location : Str} {fs : FileSystem}
    {memeModules memeModules' : Table Str (MemeModule F)}
    (h : MemeHandlerFactory.create lib chance location c fs memeModules =
      .ok (some handler, memeModules')) : ∃ memes, handler = .meme location memes := by
  unfold MemeHandlerFactory.create at h
  split at h
  · cases h
  · split at h
    · cases h
      exact ⟨_, rfl⟩
    · obtain ⟨memes, -, heq⟩ := exists_of_map_eq_ok h
      cases heq
      exact ⟨memes, rfl⟩

/-- What a request that was answered has gone through. -/
lemma RequestDispatcher.handleAt_eq_ok {d : RequestDispatcher} {res res' : Response}
    {w' : World F} {location : Str} (h : d.handleAt lib chance req res w location = .ok (res', w')) :
    ∃ arguments factory handler w₁ reply, d.arguments location = some arguments ∧
      d.handlerFactories.lookup location = some factory ∧
      factory.create lib chance location req.target arguments w = .ok (some handler, w₁) ∧
      handler.handleRequest lib chance factory req res w₁ = .ok reply ∧
      reply.response.overwritten reply.status = res' := by
  unfold handleAt at h
  split at h
  · split at h
    · cases h
    · cases h
    · split at h
      · cases h
      · cases h
        exact ⟨_, _, _, _, _, ‹_›, ‹_›, ‹_›, ‹_›, rfl⟩
  · cases h

/-- A handler that answers with a fresh response keeps it framed, unless it is the one for missing
files or a CRUD handler that does not grant the request. -/
lemma framed_handleRequest_iff
    (hcreate : factory.create lib chance location req.target c w = .ok (some handler, w₁))
    (hreply : handler.handleRequest lib chance factory req {} w₁ = .ok reply) :
    (reply.response.overwritten reply.status).Framed ↔
      factory.type ≠ .fileNotFound ∧ (factory.type = .crud → (∀ name, req.method ≠ .other name) →
        ∀ root entityIds, c.rootArgument = some root →
          initializeEntityMap chance.uninitId chance.faults root ⟨w.fs, w.entityIds factory⟩ =
              .ok entityIds →
            CrudHandler.Grants root chance.faults req ⟨w.fs, entityIds⟩) := by
  cases htype : factory.type with
  | block =>
    simp only [FactoryPtr.create, htype, Except.ok.injEq, Prod.mk.injEq, Option.some.injEq] at hcreate
    obtain ⟨rfl, rfl⟩ := hcreate
    cases hreply
    exact iff_of_true (framed_overwritten_of_none rfl) (by simp)
  | echo | health =>
    simp only [FactoryPtr.create, htype, Except.ok.injEq, Prod.mk.injEq, Option.some.injEq] at hcreate
    obtain ⟨rfl, rfl⟩ := hcreate
    cases hreply
    exact iff_of_true (Reply.Success.framed ⟨rfl, Response.framed_fill _ _ _⟩) (by simp)
  | fileNotFound =>
    simp only [FactoryPtr.create, htype, Except.ok.injEq, Prod.mk.injEq, Option.some.injEq] at hcreate
    obtain ⟨rfl, rfl⟩ := hcreate
    cases hreply
    refine iff_of_false ?_ (by simp)
    intro hframed
    exact absurd (show 0 = 17 from hframed 0 rfl) (by decide)
  | static =>
    simp only [FactoryPtr.create, htype, Except.ok.injEq, Prod.mk.injEq] at hcreate
    obtain ⟨hstatic, rfl⟩ := hcreate
    obtain ⟨fileName, rfl⟩ := eq_static_of_create hstatic
    obtain ⟨answered, hanswered, rfl⟩ := exists_of_map_eq_ok hreply
    refine iff_of_true ?_ (by simp)
    exact Reply.Plain.framed (plain_static answered hanswered) rfl
  | crud =>
    simp only [FactoryPtr.create, htype] at hcreate
    obtain ⟨⟨made, crud⟩, hmade, heq⟩ := exists_of_map_eq_ok hcreate
    obtain ⟨hhandler, rfl⟩ := Prod.mk.inj heq
    obtain ⟨root, rfl, rfl⟩ := Option.map_eq_some_iff.mp hhandler
    obtain ⟨entityIds, hroot, hscan, rfl⟩ := CrudHandlerFactory.create_eq_ok hmade
    obtain ⟨reply', hreply', rfl⟩ := exists_of_map_eq_ok hreply
    simp only [Function.update_self] at hreply'
    refine (framed_crud_iff hreply').trans ?_
    constructor
    · intro hgrants
      refine ⟨by simp, ?_⟩
      intro _ hmethod root' entityIds' hroot' hscan'
      rw [hroot, Option.some.injEq] at hroot'
      subst hroot'
      rw [hscan, Except.ok.injEq] at hscan'
      subst hscan'
      exact hgrants hmethod
    · rintro ⟨-, hgrants⟩ hmethod
      exact hgrants rfl hmethod root entityIds hroot hscan
  | meme =>
    simp only [FactoryPtr.create, htype] at hcreate
    obtain ⟨⟨made, modules⟩, hmade, heq⟩ := exists_of_map_eq_ok hcreate
    obtain ⟨rfl, rfl⟩ := Prod.mk.inj heq
    obtain ⟨memes, rfl⟩ := eq_meme_of_create hmade
    obtain ⟨reply', hreply', rfl⟩ := exists_of_map_eq_ok hreply
    refine iff_of_true ?_ (by simp)
    exact Reply.Plain.framed (MemeHandler.plain_handleRequest reply' hreply') rfl

end

/-- A response to a fresh request leaves the dispatcher with a wrong length exactly when the handler
is the one for missing files, or a CRUD handler that does not grant a request with one of its four
methods. -/
theorem handleRequest_framed_iff {F : Type} {lib : Library F} {d : RequestDispatcher}
    {chance : Chance} {req : Request} {res : Response} {w w' : World F}
    (h : d.handleRequest lib chance req {} w = .ok (res, w')) :
    res.Framed ↔ ∀ location factory, d.match_ req.target = some location →
      d.handlerFactories.lookup location = some factory →
        factory.type ≠ .fileNotFound ∧ (factory.type = .crud → (∀ name, req.method ≠ .other name) →
          ∀ arguments root entityIds, d.arguments location = some arguments →
            arguments.rootArgument = some root →
              initializeEntityMap chance.uninitId chance.faults root
                  ⟨w.fs, w.entityIds factory⟩ = .ok entityIds →
                CrudHandler.Grants root chance.faults req ⟨w.fs, entityIds⟩) := by
  rw [RequestDispatcher.handleRequest] at h
  cases hmatch : d.match_ req.target with
  | none =>
    rw [hmatch] at h
    cases h
    exact iff_of_true (Response.framed_fill _ _ _) (by simp)
  | some location =>
    rw [hmatch] at h
    obtain ⟨arguments, factory, handler, w₁, reply, harguments, hfactory, hcreate, hreply, rfl⟩ :=
      RequestDispatcher.handleAt_eq_ok h
    rw [framed_handleRequest_iff hcreate hreply]
    constructor
    · rintro ⟨hfound, hcrud⟩ location' factory' hlocation' hfactory'
      obtain rfl := Option.some.inj hlocation'
      rw [hfactory, Option.some.injEq] at hfactory'
      subst hfactory'
      refine ⟨hfound, ?_⟩
      intro htype hmethod arguments' root entityIds harguments'
      rw [harguments, Option.some.injEq] at harguments'
      subst harguments'
      exact hcrud htype hmethod root entityIds
    · intro hframed
      obtain ⟨hfound, hcrud⟩ := hframed location factory rfl hfactory
      exact ⟨hfound, fun htype hmethod root entityIds =>
        hcrud htype hmethod arguments root entityIds harguments⟩

/-- A library of which nothing is used. -/
def unusedLibrary : Library Unit where
  serialize := Request.body
  float := ⟨fun _ => (), fun _ _ => (), fun _ _ => (), fun _ _ => (), fun _ _ => false,
    fun _ => .error .invalidArgument, fun _ => []⟩
  tree := ⟨fun _ => none, fun _ _ _ => []⟩

/-- A world with an empty root and no ids. -/
def emptyWorld : World Unit := ⟨emptyDisk.fs, fun _ => ∅, fun _ => ∅⟩

/-- `location /a CrudHandler { root r; }`. -/
def crudLocation : NginxConfig :=
  .mk [.mk ["location".toList, "/a".toList, "CrudHandler".toList]
    (some (.mk [.mk ["root".toList, ['r']] none]))]

/-- A `POST` that is granted. -/
theorem handleRequest_framed_iff_post :
    ∃ d res w', crudLocation.dispatcher = some d ∧
      d.handleRequest unusedLibrary {} ⟨.post, "/a/d".toList, ['x'], []⟩ {} emptyWorld =
        .ok (res, w') ∧
      (res.Framed ↔ ∀ location factory, d.match_ "/a/d".toList = some location →
        d.handlerFactories.lookup location = some factory →
          factory.type ≠ .fileNotFound ∧
          (factory.type = .crud → (∀ name, Verb.post ≠ .other name) →
            ∀ arguments root entityIds, d.arguments location = some arguments →
              arguments.rootArgument = some root →
                initializeEntityMap (fun _ => 0) {} root
                    ⟨emptyWorld.fs, emptyWorld.entityIds factory⟩ = .ok entityIds →
                  CrudHandler.Grants root {} ⟨.post, "/a/d".toList, ['x'], []⟩
                    ⟨emptyWorld.fs, entityIds⟩)) := by
  have hrun : ∃ d res w', crudLocation.dispatcher = some d ∧
      d.handleRequest unusedLibrary {} ⟨.post, "/a/d".toList, ['x'], []⟩ {} emptyWorld =
        .ok (res, w') := ⟨_, _, _, rfl, rfl⟩
  obtain ⟨d, res, w', hd, hreply⟩ := hrun
  exact ⟨d, res, w', hd, hreply, handleRequest_framed_iff hreply⟩

/-- A `GET` of an entity that is not there is answered with the length of the handler's reason and
the body of the dispatcher. -/
theorem handleRequest_misframed :
    ∃ d res w', crudLocation.dispatcher = some d ∧
      d.handleRequest unusedLibrary {} ⟨.get, "/a/d/1".toList, [], []⟩ {} emptyWorld =
        .ok (res, w') ∧
      res.contentLength = some 41 ∧ res.body = "400 Bad Request\r\n\r\n".toList ∧ ¬ res.Framed := by
  refine ⟨_, _, _, rfl, rfl, rfl, rfl, ?_⟩
  intro hframed
  exact absurd (show 41 = 19 from hframed 41 rfl) (by decide)

end SocialNetworkApp
