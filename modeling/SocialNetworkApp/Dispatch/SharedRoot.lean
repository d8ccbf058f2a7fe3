import SocialNetworkApp.Core.Run
import SocialNetworkApp.Dispatch.Dispatcher
import SocialNetworkApp.Meme.Refinement
import SocialNetworkApp.Meme.Requests

/-!
# Two locations with one root

A factory is made for every location statement, and every factory has modules of its own. Where two
locations name one root, either module counts the ids and the views from what was on the disk when it
was made, and does not notice what happens through the other one.
-/

namespace SocialNetworkApp

open SocialNetworkApp.Core

/-- Two locations with handlers of memes and one root, up to trailing slashes. -/
structure SharedRoot (d : RequestDispatcher) (location : Bool → Str) (root : Str) : Prop where
  ne : location false ≠ location true
  factory : ∀ b, ∃ f, d.handlerFactories.lookup (location b) = some f ∧ f.type = .meme
  root_eq : ∀ b, ∃ arguments, d.arguments (location b) = some arguments ∧
    arguments.rootArgument = some root

/-- A request to one of the two locations. -/
structure SharedRequest where
  here : Bool
  req : Request
  chance : Chance

namespace SharedRequest

def isPost (e : SharedRequest) : Bool := e.req.method = .post

/-- The id at the end of the target. -/
def id? (e : SharedRequest) : Option MemeId :=
  match stoi (possibleId e.req.target) with
  | .ok n => some (MemeId.ofCInt n)
  | .error _ => none

def asksFor (id : MemeId) (e : SharedRequest) : Bool := e.req.method = .get ∧ e.id? = some id

/-- No post went to the other location since this one was first used, and there are ids left; or
nobody asked there for the same meme since, and the count of its views fits an `int`. -/
def UpToDate (es : List SharedRequest) (e : SharedRequest) : Prop :=
  (e.isPost = true →
    (∀ e' ∈ missed here e.here es, e'.isPost = false) ∧ es.countP isPost < 2 ^ 32) ∧
  ∀ id, e.asksFor id = true →
    (∀ e' ∈ missed here e.here es, e'.asksFor id = false) ∧ es.countP (asksFor id) + 1 < 2 ^ 31

end SharedRequest

/-- The requests and the responses to them, and the state they leave behind. -/
structure SharedRun (F : Type) where
  world : World F
  log : List (SharedRequest × Option Response)

/-- The file holds the count; before the first view there is none. -/
def ViewsOnDisk (fs : FileSystem) (root : Str) (id : MemeId) (n : Nat) : Prop :=
  fs.openRead (root ++ '/' :: id.toStr ++ "/views".toList) =
    if n = 0 then .closed else .contents (Nat.toDigits 10 n)

namespace SharedRun

open SharedRequest

variable {F : Type}

def requests (s : SharedRun F) : List SharedRequest := s.log.map Prod.fst

/-- The responses to posts. -/
def posted (s : SharedRun F) : List (Option Response) :=
  (s.log.filter fun entry => entry.1.isPost).map Prod.snd

/-- Before the first request. -/
def start (fs : FileSystem) : SharedRun F := ⟨⟨fs, fun _ => ∅, fun _ => ∅⟩, []⟩

def serve (lib : Library F) (d : RequestDispatcher) (s : SharedRun F) (e : SharedRequest) : SharedRun F :=
  match d.handleRequest lib e.chance e.req {} s.world with
  | .ok (res, world) => ⟨world, s.log ++ [(e, some res)]⟩
  | .error _ => { s with log := s.log ++ [(e, none)] }

/-- A post of a meme, or a request for a meme that was posted before; all calls succeed. -/
structure Valid (lib : Library F) (d : RequestDispatcher) (location : Bool → Str) (s : SharedRun F)
    (e : SharedRequest) : Prop where
  match_eq : d.match_ e.req.target = some (location e.here)
  faults : e.chance.meme.faults = {}
  call :
    (e.req.method = .post ∧ e.req.target = location e.here ∧ e.req.body ≠ [] ∧
      Meme.Parses lib.tree e.req.body) ∨
    (e.req.method = .get ∧ MemeHandler.upToLastSlash e.req.target = location e.here ++ "/".toList ∧
      ∃ id, e.id? = some id ∧ some (MemeHandler.created id) ∈ s.posted)

/-- Every post was answered with an id of its own, and the views of these memes are on the disk. -/
def Shares (root : Str) (s : SharedRun F) : Prop :=
  ∃ ids : List MemeId, ids.Nodup ∧ s.posted = ids.map (fun id => some (MemeHandler.created id)) ∧
    ∀ id ∈ ids, ViewsOnDisk s.world.fs root id (s.requests.countP (asksFor id))

end SharedRun

/-! ### Handlers of the two locations -/

section

variable {F : Type} {lib : Library F} {d : RequestDispatcher} {location : Bool → Str} {root : Str}
  {e : SharedRequest} {s s' : SharedRun F} {f : FactoryPtr}

/-- What is stored after the next request. -/
structure StepsTo (root : Str) (f : FactoryPtr) (s : SharedRun F) (e : SharedRequest)
    (res : Response) (fs : FileSystem) (memes : MemeModule F) (s' : SharedRun F) : Prop where
  log : s'.log = s.log ++ [(e, some res)]
  fs_eq : s'.world.fs = fs
  self : (s'.world.memeModules f).lookup root = some memes
  other : ∀ f', f' ≠ f → s'.world.memeModules f' = s.world.memeModules f'

namespace StepsTo

variable {res : Response} {fs : FileSystem} {memes : MemeModule F}

lemma requests (h : StepsTo root f s e res fs memes s') : s'.requests = s.requests ++ [e] := by
  rw [SharedRun.requests, h.log, List.map_append]
  rfl

lemma posted (h : StepsTo root f s e res fs memes s') :
    s'.posted = s.posted ++ if e.isPost then [some res] else [] := by
  rw [SharedRun.posted, h.log, List.filter_append, List.map_append, List.filter_singleton]
  cases e.isPost <;> rfl

end StepsTo

/-- Two locations have two factories. -/
lemma factory_injective {c : NginxConfig} (hd : c.dispatcher = some d) {k k' : Str}
    (hf : d.handlerFactories.lookup k = some f) (hf' : d.handlerFactories.lookup k' = some f) :
    k = k' := by
  obtain ⟨hfacs, -⟩ := NginxConfig.tables_of_dispatcher hd
  obtain ⟨ls, hls, -⟩ := Option.map_eq_some_iff.mp hfacs
  obtain ⟨l, hl, rfl, hfactory⟩ := factory_of_lookup hls hfacs hf
  obtain ⟨l', hl', rfl, hfactory'⟩ := factory_of_lookup hls hfacs hf'
  obtain ⟨type, -, rfl⟩ := Option.map_eq_some_iff.mp hfactory
  obtain ⟨type', -, hsame⟩ := Option.map_eq_some_iff.mp hfactory'
  rw [eq_of_block_eq hls hl hl' (congrArg FactoryPtr.statement hsame).symm]

/-- A request is served by the module of its factory, which is made if there is none yet. -/
lemma SharedRoot.serve_eq (h : SharedRoot d location root)
    (hmatch : d.match_ e.req.target = some (location e.here)) (hfaults : e.chance.meme.faults = {})
    (hf : d.handlerFactories.lookup (location e.here) = some f)
    {memes : MemeModule F}
    (hmemes : (s.world.memeModules f).lookup root = some memes ∨
      (s.world.memeModules f).lookup root = none ∧
        MemeModule.load lib.float {} e.chance.uninit s.world.fs root = .ok memes)
    {reply : Reply (MemeState F)}
    (hreply : MemeHandler.handleRequest lib.float lib.tree e.chance.meme (location e.here) e.req {}
      ⟨s.world.fs, memes⟩ = .ok reply) (hroot : reply.state.memes.root = root) :
    StepsTo root f s e (reply.response.overwritten reply.status) reply.state.fs reply.state.memes
      (SharedRun.serve lib d s e) := by
  obtain ⟨arguments, harguments, hargument⟩ := h.root_eq e.here
  have htype : f.type = .meme := by
    obtain ⟨f', hf', htype⟩ := h.factory e.here
    rw [hf, Option.some.injEq] at hf'
    rwa [hf']
  obtain ⟨memeModules, hcreate⟩ : ∃ memeModules, f.create lib e.chance (location e.here) e.req.target
      arguments s.world = .ok (some (.meme (location e.here) memes),
        { s.world with memeModules := Function.update s.world.memeModules f memeModules }) := by
    rw [FactoryPtr.create, htype]
    rcases hmemes with hmemes | ⟨hnone, hload⟩
    · refine ⟨s.world.memeModules f, ?_⟩
      simp only [MemeHandlerFactory.create, hargument, hmemes]
      rfl
    · refine ⟨(s.world.memeModules f).insert root memes, ?_⟩
      simp only [MemeHandlerFactory.create, hargument, hnone, hfaults, hload]
      rfl
  have hhandle : d.handleRequest lib e.chance e.req {} s.world =
      .ok (reply.response.overwritten reply.status,
        { s.world with
          fs := reply.state.fs
          memeModules := Function.update s.world.memeModules f
            (memeModules.insert root reply.state.memes) }) := by
    simp only [RequestDispatcher.handleRequest, hmatch, RequestDispatcher.handleAt, harguments, hf,
      hcreate, Handler.handleRequest, hreply, Except.map, Function.update_self,
      Function.update_idem, hroot]
  rw [SharedRun.serve, hhandle]
  refine ⟨rfl, rfl, ?_, fun f' hf' => Function.update_of_ne hf' _ _⟩
  simp only [Function.update_self, AList.lookup_insert]

end

/-! ### What a module has counted -/

/-- The entry of a table of views for a meme that was asked for `n` times. -/
def viewsEntry (n : Nat) : Option CInt := if n = 0 then none else some (CInt.wrap n)

lemma viewsEntry_elim_succ (n : Nat) : (viewsEntry n).elim 1 CInt.succ = CInt.wrap (n + 1) := by
  rw [viewsEntry]
  split_ifs with hn
  · subst hn
    rfl
  · exact CInt.succ_wrap n

section

open SharedRequest

variable {F : Type} {float : FloatArith F} {p : List Str} {root : Str} {es : List SharedRequest}
  {e : SharedRequest} {b : Bool} {memes : MemeModule F} {fs : FileSystem} {store : MemeStore}
  {id : MemeId}

/-- The module has counted all requests but those its location has missed. -/
structure CountsSeen (es : List SharedRequest) (b : Bool) (root : Str) (memes : MemeModule F) :
    Prop where
  root_eq : memes.root = root
  posts : es.countP isPost < 2 ^ 32 →
    memes.idCount.toNat + (missed here b es).countP isPost = es.countP isPost
  views : ∀ id, ∃ n, memes.viewCounts.lookup id = viewsEntry n ∧
    n + (missed here b es).countP (asksFor id) = es.countP (asksFor id)

/-- The memes on the disk are those that were posted, with the views that were counted. -/
structure HoldsPosted (es : List SharedRequest) (store : MemeStore) : Prop where
  live : ∀ id, (store id).isSome = true ↔ ∃ k < es.countP isPost, id = UInt32.ofNat (k + 1)
  views : ∀ id, (store id).elim 0 MemeRecord.views = es.countP (asksFor id)

lemma not_asksFor_of_isPost (h : e.isPost = true) (id : MemeId) : e.asksFor id = false := by
  rw [isPost, decide_eq_true_eq] at h
  simp [asksFor, h]

lemma not_isPost_of_asksFor (h : e.asksFor id = true) : e.isPost = false := by
  rw [asksFor, decide_eq_true_eq] at h
  simp [isPost, h.1]

lemma asksFor_eq_false_of_ne {id' : MemeId} (h : e.asksFor id = true) (hid : id' ≠ id) :
    e.asksFor id' = false := by
  rw [asksFor, decide_eq_true_eq] at h
  simp [asksFor, h, Ne.symm hid]

lemma HoldsPosted.lookup_count (h : HoldsPosted es store) (id : MemeId) :
    (store id).bind MemeRecord.count = viewsEntry (es.countP (asksFor id)) := by
  rw [← h.views]
  cases store id <;> rfl

namespace CountsSeen

/-- The other location is used. -/
lemma append_of_ne (h : CountsSeen es b root memes) (hused : ∃ e ∈ es, e.here = b)
    (hne : e.here ≠ b) : CountsSeen (es ++ [e]) b root memes where
  root_eq := h.root_eq
  posts := by
    intro hlt
    rw [List.countP_append] at hlt
    have hposts := h.posts (by omega)
    rw [missed_append_of_ne hused hne, List.countP_append, List.countP_append]
    omega
  views := by
    intro id
    obtain ⟨n, hn, hviews⟩ := h.views id
    refine ⟨n, hn, ?_⟩
    rw [missed_append_of_ne hused hne, List.countP_append, List.countP_append]
    omega

/-- A post at the location itself. -/
lemma append_post (h : CountsSeen es b root memes) (hhere : e.here = b) (hpost : e.isPost = true) :
    CountsSeen (es ++ [e]) b root { memes with idCount := memes.idCount + 1 } where
  root_eq := h.root_eq
  posts := by
    intro hlt
    rw [List.countP_append, List.countP_singleton, if_pos hpost] at hlt ⊢
    have hposts := h.posts (by omega)
    rw [missed_append_of_eq hhere, UInt32.toNat_add, UInt32.toNat_one]
    omega
  views := by
    intro id
    obtain ⟨n, hn, hviews⟩ := h.views id
    refine ⟨n, hn, ?_⟩
    rw [missed_append_of_eq hhere, List.countP_append, List.countP_singleton,
      not_asksFor_of_isPost hpost]
    exact hviews

/-- A view at the location itself. -/
lemma append_view (h : CountsSeen es b root memes) (hhere : e.here = b)
    (hasks : e.asksFor id = true) :
    CountsSeen (es ++ [e]) b root { memes with
      viewCounts := memes.viewCounts.insert id ((memes.viewCounts.lookup id).elim 1 CInt.succ) } where
  root_eq := h.root_eq
  posts := by
    intro hlt
    rw [List.countP_append, List.countP_singleton, not_isPost_of_asksFor hasks] at hlt ⊢
    rw [missed_append_of_eq hhere]
    exact h.posts hlt
  views := by
    intro id'
    obtain ⟨n, hn, hviews⟩ := h.views id'
    rw [missed_append_of_eq hhere, List.countP_append, List.countP_singleton]
    by_cases hid : id' = id
    · subst hid
      refine ⟨n + 1, ?_, ?_⟩
      · rw [AList.lookup_insert, hn, viewsEntry_elim_succ]
        rfl
      · rw [if_pos hasks, Nat.add_right_comm, hviews]
    · refine ⟨n, ?_, ?_⟩
      · rw [AList.lookup_insert_ne hid, hn]
      · rw [asksFor_eq_false_of_ne hasks hid]
        exact hviews

/-- A module that is made when its location is used for the first time. -/
lemma of_load (hmemory : InMemory root memes store)
    (hlast : memes.idCount = 0 ∨ ∃ m, store memes.idCount = some m) (hstore : HoldsPosted es store)
    (hunused : ∀ e ∈ es, e.here ≠ b) : CountsSeen es b root memes where
  root_eq := hmemory.root_eq
  posts := by
    intro hlt
    rw [missed_of_unused hunused, List.countP_nil, Nat.add_zero]
    apply Nat.le_antisymm
    · rcases hlast with hzero | ⟨m, hm⟩
      · rw [hzero]
        exact Nat.zero_le _
      · obtain ⟨k, hk, hid⟩ := (hstore.live _).mp (by rw [hm]; rfl)
        rw [hid, UInt32.toNat_ofNat']
        omega
    · cases hposts : es.countP isPost with
      | zero => exact Nat.zero_le _
      | succ n =>
        have hlive := (hstore.live (UInt32.ofNat (n + 1))).mpr ⟨n, by omega, rfl⟩
        obtain ⟨m, hm⟩ := Option.isSome_iff_exists.mp hlive
        have hle := UInt32.le_iff_toNat_le.mp (hmemory.counted hm)
        rw [UInt32.toNat_ofNat'] at hle
        omega
  views := by
    intro id
    refine ⟨es.countP (asksFor id), ?_, ?_⟩
    · rw [hmemory.viewCounts, hstore.lookup_count]
    · rw [missed_of_unused hunused, List.countP_nil, Nat.add_zero]

/-- The next id of the module is free exactly if no post was missed and there are ids left. -/
lemma next_none_iff (h : CountsSeen es b root memes) (hstore : HoldsPosted es store)
    (hle : es.countP isPost ≤ 2 ^ 32) :
    store (memes.idCount + 1) = none ↔
      (missed here b es).countP isPost = 0 ∧ es.countP isPost < 2 ^ 32 := by
  have hsize := memes.idCount.toNat_lt
  have hnext : ∀ k, memes.idCount + 1 = UInt32.ofNat (k + 1) ↔
      (memes.idCount.toNat + 1) % 2 ^ 32 = (k + 1) % 2 ^ 32 := by
    intro k
    rw [← UInt32.toNat_inj, UInt32.toNat_add, UInt32.toNat_one, UInt32.toNat_ofNat']
  rw [← Option.not_isSome_iff_eq_none, hstore.live]
  simp only [hnext, not_exists, not_and]
  constructor
  · intro hfree
    by_cases hlt : es.countP isPost < 2 ^ 32
    · refine ⟨?_, hlt⟩
      by_contra hmissed
      have hposts := h.posts hlt
      exact hfree memes.idCount.toNat (by omega) rfl
    · exact absurd rfl (hfree memes.idCount.toNat (by omega))
  · rintro ⟨hmissed, hlt⟩ k hk hid
    have hposts := h.posts hlt
    omega

lemma next_eq (h : CountsSeen es b root memes) (hmissed : (missed here b es).countP isPost = 0)
    (hlt : es.countP isPost < 2 ^ 32) :
    memes.idCount + 1 = UInt32.ofNat (es.countP isPost + 1) := by
  have hposts := h.posts hlt
  rw [hmissed, Nat.add_zero] at hposts
  rw [← UInt32.toNat_inj, UInt32.toNat_add, UInt32.toNat_one, UInt32.toNat_ofNat', hposts]

end CountsSeen

lemma upToDate_post_iff (hpost : e.isPost = true) :
    UpToDate es e ↔ (missed here e.here es).countP isPost = 0 ∧ es.countP isPost < 2 ^ 32 := by
  simp only [UpToDate, hpost, forall_const, not_asksFor_of_isPost hpost, Bool.false_eq_true,
    IsEmpty.forall_iff, and_true, List.countP_eq_zero, Bool.not_eq_true]

lemma upToDate_view_iff (hasks : e.asksFor id = true) :
    UpToDate es e ↔ (missed here e.here es).countP (asksFor id) = 0 ∧
      es.countP (asksFor id) + 1 < 2 ^ 31 := by
  simp only [UpToDate, not_isPost_of_asksFor hasks, Bool.false_eq_true, IsEmpty.forall_iff,
    true_and, List.countP_eq_zero, Bool.not_eq_true]
  constructor
  · exact fun h => h id hasks
  · intro h id' hasks'
    have hid : id' = id := by
      by_contra hid
      rw [asksFor_eq_false_of_ne hasks hid] at hasks'
      cases hasks'
    rwa [hid]

namespace HoldsPosted

/-- A post with an id that was not taken. -/
lemma append_post (h : HoldsPosted es store) (hpost : e.isPost = true)
    (hnone : store (UInt32.ofNat (es.countP isPost + 1)) = none) (content : Str) :
    HoldsPosted (es ++ [e]) (store.create (UInt32.ofNat (es.countP isPost + 1)) content) where
  live := by
    intro id
    rw [List.countP_append, List.countP_singleton, if_pos hpost, MemeStore.create]
    by_cases hid : id = UInt32.ofNat (es.countP isPost + 1)
    · rw [hid, Function.update_self]
      exact iff_of_true rfl ⟨_, Nat.lt_succ_self _, rfl⟩
    · rw [Function.update_of_ne hid, h.live]
      constructor
      · rintro ⟨k, hk, rfl⟩
        exact ⟨k, Nat.lt_succ_of_lt hk, rfl⟩
      · rintro ⟨k, hk, rfl⟩
        rcases Nat.lt_succ_iff_lt_or_eq.mp hk with hk | rfl
        · exact ⟨k, hk, rfl⟩
        · exact absurd rfl hid
  views := by
    intro id
    rw [List.countP_append, List.countP_singleton, not_asksFor_of_isPost hpost, ← h.views,
      MemeStore.create]
    by_cases hid : id = UInt32.ofNat (es.countP isPost + 1)
    · rw [hid, Function.update_self, hnone]
      rfl
    · rw [Function.update_of_ne hid]
      rfl

/-- A view of a meme that is there. -/
lemma append_view (h : HoldsPosted es store) (hasks : e.asksFor id = true) {m : MemeRecord}
    (hm : store id = some m) : HoldsPosted (es ++ [e]) (store.view id) where
  live := by
    intro id'
    rw [List.countP_append, List.countP_singleton, not_isPost_of_asksFor hasks]
    refine Iff.trans ?_ (h.live id')
    by_cases hid : id' = id
    · subst hid
      rw [MemeStore.view, Function.update_self, hm]
      rfl
    · rw [MemeStore.view, Function.update_of_ne hid]
  views := by
    intro id'
    rw [List.countP_append, List.countP_singleton, ← h.views]
    by_cases hid : id' = id
    · subst hid
      rw [MemeStore.view, Function.update_self, hm, if_pos hasks]
      rfl
    · rw [MemeStore.view, Function.update_of_ne hid, asksFor_eq_false_of_ne hasks hid]
      rfl

end HoldsPosted

end

end SocialNetworkApp
