import SocialNetworkApp.Dispatch.SharedRoot
import SocialNetworkApp.Dispatch.StaticRoot

/-!
# Runs over two locations with one root

Posts are answered with ids of their own and views are counted right as long as no location is used
for what it has missed. Every step either keeps this up or breaks it at once.
-/

namespace SocialNetworkApp

open SocialNetworkApp.Core

/-! ### Runs -/

section

open SharedRequest

variable {F : Type} {lib : Library F} {d : RequestDispatcher} {location : Bool → Str} {p : List Str}
  {root : Str} {e : SharedRequest} {s s' : SharedRun F} {f : FactoryPtr} {store : MemeStore}
  {id : MemeId}

/-- So far every post was answered with the next id; a location either was not used, or its module
has counted what the location has not missed. -/
structure Stands (lib : Library F) (d : RequestDispatcher) (location : Bool → Str) (p : List Str)
    (root : Str) (s : SharedRun F) (store : MemeStore) : Prop where
  disk : OnDisk lib.float p root s.world.fs store
  valid : store.Valid lib.tree
  holds : HoldsPosted s.requests store
  posts_le : s.requests.countP isPost ≤ 2 ^ 32
  views_lt : ∀ id, s.requests.countP (asksFor id) < 2 ^ 31
  posted : s.posted = (List.range (s.requests.countP isPost)).map fun k =>
    some (MemeHandler.created (UInt32.ofNat (k + 1)))
  modules : ∀ b f, d.handlerFactories.lookup (location b) = some f →
    ((s.world.memeModules f).lookup root = none ∧ ∀ e ∈ s.requests, e.here ≠ b) ∨
    ∃ memes, (s.world.memeModules f).lookup root = some memes ∧
      (∃ e ∈ s.requests, e.here = b) ∧ CountsSeen s.requests b root memes

namespace SharedRun

variable {res : Response}

lemma Shares.exists_of_mem (h : Shares root s) (hres : some res ∈ s.posted) :
    ∃ id, MemeHandler.created id = res ∧
      ViewsOnDisk s.world.fs root id (s.requests.countP (asksFor id)) := by
  obtain ⟨ids, -, hposted, hviews⟩ := h
  rw [hposted] at hres
  obtain ⟨id, hid, hcreated⟩ := List.mem_map.mp hres
  exact ⟨id, Option.some.inj hcreated, hviews id hid⟩

lemma Shares.viewsOnDisk (h : Shares root s) (hposted : some (MemeHandler.created id) ∈ s.posted) :
    ViewsOnDisk s.world.fs root id (s.requests.countP (asksFor id)) := by
  obtain ⟨id', hcreated, hviews⟩ := h.exists_of_mem hposted
  rwa [MemeHandler.created_injective hcreated] at hviews

/-- No post is answered with an error. -/
lemma not_shares_of_mem (h : some (Response.overwritten .internal_server_error {}) ∈ s.posted) :
    ¬ Shares root s := by
  intro hshares
  obtain ⟨id, hcreated, -⟩ := hshares.exists_of_mem h
  cases congrArg Response.result hcreated

end SharedRun

lemma ViewsOnDisk.of_onDisk (hdisk : OnDisk lib.float p root s.world.fs store) {m : MemeRecord}
    (hm : store id = some m) (hlt : m.views < 2 ^ 31) :
    ViewsOnDisk s.world.fs root id m.views := by
  rw [ViewsOnDisk, show "/views".toList = '/' :: MemeFile.views.name from rfl,
    hdisk.openRead_views hm, MemeRecord.count]
  split_ifs with hzero
  · rfl
  · refine congrArg OpenRead.contents (toStr_eq_toDigits_iff.mpr ?_)
    simp only [CInt.wrap]
    omega

namespace Stands

/-- On an empty root, nothing is posted yet. -/
lemma start {fs : FileSystem} (hname : fs.resolve root = some p) (hp : fs.tree.IsDir p)
    (hempty : fs.tree.children p = []) :
    Stands lib d location p root (SharedRun.start fs) fun _ => none where
  disk := .of_empty hname hp hempty
  valid := by
    intro id m hm
    cases hm
  holds := by
    refine ⟨fun id => iff_of_false Bool.false_ne_true ?_, fun id => rfl⟩
    rintro ⟨k, hk, -⟩
    exact absurd hk (Nat.not_lt_zero k)
  posts_le := Nat.zero_le _
  views_lt := fun id => Nat.two_pow_pos 31
  posted := rfl
  modules := fun b f _ => Or.inl ⟨rfl, fun e he => absurd he List.not_mem_nil⟩

variable (hs : Stands lib d location p root s store)

include hs

/-- The ids are different as long as they do not wrap around. -/
lemma shares : SharedRun.Shares root s := by
  refine ⟨(List.range (s.requests.countP isPost)).map fun k => UInt32.ofNat (k + 1), ?_, ?_, ?_⟩
  · refine List.Nodup.map_on ?_ List.nodup_range
    intro k hk k' hk' hid
    have hnat := congrArg UInt32.toNat hid
    rw [UInt32.toNat_ofNat', UInt32.toNat_ofNat'] at hnat
    have hle := hs.posts_le
    rw [List.mem_range] at hk hk'
    omega
  · rw [hs.posted, List.map_map]
    rfl
  · intro id hid
    obtain ⟨k, hk, rfl⟩ := List.mem_map.mp hid
    have hlive := (hs.holds.live _).mpr ⟨k, List.mem_range.mp hk, rfl⟩
    obtain ⟨m, hm⟩ := Option.isSome_iff_exists.mp hlive
    have hviews := hs.holds.views (UInt32.ofNat (k + 1))
    rw [hm, Option.elim_some] at hviews
    have hlt := hs.views_lt (UInt32.ofNat (k + 1))
    rw [← hviews] at hlt ⊢
    exact .of_onDisk hs.disk hm hlt

/-- A meme that was posted is there. -/
lemma exists_of_posted (hid : some (MemeHandler.created id) ∈ s.posted) :
    ∃ m, store id = some m := by
  rw [hs.posted] at hid
  obtain ⟨k, hk, hcreated⟩ := List.mem_map.mp hid
  rw [← MemeHandler.created_injective (Option.some.inj hcreated)]
  exact Option.isSome_iff_exists.mp ((hs.holds.live _).mpr ⟨k, List.mem_range.mp hk, rfl⟩)

/-- The module that serves a request, be it new or not, has counted what its location has seen. -/
lemma exists_module (hfloat : lib.float.Reads) (hroot : root.getLast? ≠ some '/')
    (hf : d.handlerFactories.lookup (location e.here) = some f) :
    ∃ memes, ((s.world.memeModules f).lookup root = some memes ∨
        (s.world.memeModules f).lookup root = none ∧
          MemeModule.load lib.float {} e.chance.uninit s.world.fs root = .ok memes) ∧
      CountsSeen s.requests e.here root memes := by
  rcases hs.modules e.here f hf with ⟨hnone, hunused⟩ | ⟨memes, hmemes, -, hcounts⟩
  · obtain ⟨memes, hload, hmemory, hlast⟩ := hs.disk.load hfloat hroot e.chance.uninit
    exact ⟨memes, Or.inr ⟨hnone, hload⟩, .of_load hmemory hlast hs.holds hunused⟩
  · exact ⟨memes, Or.inl hmemes, hcounts⟩

variable {c : NginxConfig} (hd : c.dispatcher = some d) (hshared : SharedRoot d location root)

section

variable (hf : d.handlerFactories.lookup (location e.here) = some f) {res : Response}
  {fs : FileSystem} {memes : MemeModule F}

include hd hshared hf

/-- The modules after a step. -/
lemma modules_step (hstep : StepsTo root f s e res fs memes s')
    (hcounts : CountsSeen (s.requests ++ [e]) e.here root memes) (b : Bool) (f' : FactoryPtr)
    (hf' : d.handlerFactories.lookup (location b) = some f') :
    ((s'.world.memeModules f').lookup root = none ∧ ∀ e ∈ s'.requests, e.here ≠ b) ∨
    ∃ memes, (s'.world.memeModules f').lookup root = some memes ∧
      (∃ e ∈ s'.requests, e.here = b) ∧ CountsSeen s'.requests b root memes := by
  rw [hstep.requests]
  by_cases hhere : e.here = b
  · subst hhere
    obtain rfl := Option.some.inj (hf.symm.trans hf')
    exact Or.inr ⟨memes, hstep.self, ⟨e, by simp, rfl⟩, hcounts⟩
  · have hff : f' ≠ f := by
      rintro rfl
      have hlocation := factory_injective hd hf hf'
      cases hb : b <;> cases he : e.here <;> rw [hb, he] at hlocation hhere
      · exact hhere rfl
      · exact hshared.ne hlocation.symm
      · exact hshared.ne hlocation
      · exact hhere rfl
    rw [hstep.other f' hff]
    rcases hs.modules b f' hf' with ⟨hnone, hunused⟩ | ⟨memes', hmemes', hused, hcounts'⟩
    · refine Or.inl ⟨hnone, fun e' he' => ?_⟩
      rcases List.mem_append.mp he' with he' | he'
      · exact hunused e' he'
      · rwa [List.mem_singleton.mp he']
    · obtain ⟨e', he', hb⟩ := hused
      refine Or.inr ⟨memes', hmemes', ⟨e', by simp [he'], hb⟩, ?_⟩
      exact hcounts'.append_of_ne ⟨e', he', hb⟩ hhere

/-- A post was answered with the next id. -/
lemma append_post {content : Str} (hpost : e.isPost = true)
    (hlt : s.requests.countP isPost < 2 ^ 32)
    (hstep : StepsTo root f s e
      (MemeHandler.created (UInt32.ofNat (s.requests.countP isPost + 1))) fs memes s')
    (hcounts : CountsSeen (s.requests ++ [e]) e.here root memes)
    (hnone : store (UInt32.ofNat (s.requests.countP isPost + 1)) = none)
    (hdisk : OnDisk lib.float p root fs
      (store.create (UInt32.ofNat (s.requests.countP isPost + 1)) content))
    (hop : (MemeOp.create content).Valid lib.tree) :
    Stands lib d location p root s'
      (store.create (UInt32.ofNat (s.requests.countP isPost + 1)) content) := by
  have hrequests : s'.requests.countP isPost = s.requests.countP isPost + 1 := by
    rw [hstep.requests, List.countP_append, List.countP_singleton, if_pos hpost]
  refine ⟨?_, ?_, ?_, ?_, fun id => ?_, ?_,
    hs.modules_step hd hshared hf hstep hcounts⟩
  · rw [hstep.fs_eq]
    exact hdisk
  · exact MemeOp.valid_record hs.valid hop (fun _ hdrawn => by cases hdrawn)
      (some (UInt32.ofNat (s.requests.countP isPost + 1)))
  · rw [hstep.requests]
    exact hs.holds.append_post hpost hnone content
  · rw [hrequests]
    exact hlt
  · rw [hstep.requests, List.countP_append, List.countP_singleton, not_asksFor_of_isPost hpost]
    exact hs.views_lt id
  · rw [hstep.posted, hs.posted, if_pos hpost, hrequests, List.range_succ, List.map_append]
    rfl

/-- A meme was asked for, and the view was counted. -/
lemma append_view (hasks : e.asksFor id = true)
    (hlt : s.requests.countP (asksFor id) + 1 < 2 ^ 31) (hstep : StepsTo root f s e res fs memes s')
    (hcounts : CountsSeen (s.requests ++ [e]) e.here root memes) {m : MemeRecord} (hm : store id = some m)
    (hdisk : OnDisk lib.float p root fs (store.view id)) :
    Stands lib d location p root s' (store.view id) := by
  have hop : (MemeOp.get id).Valid lib.tree := trivial
  refine ⟨?_, ?_, ?_, ?_, fun id' => ?_, ?_,
    hs.modules_step hd hshared hf hstep hcounts⟩
  · rw [hstep.fs_eq]
    exact hdisk
  · exact MemeOp.valid_record hs.valid hop (fun _ hdrawn => by cases hdrawn) none
  · rw [hstep.requests]
    exact hs.holds.append_view hasks hm
  · rw [hstep.requests, List.countP_append, List.countP_singleton, not_isPost_of_asksFor hasks]
    exact hs.posts_le
  · rw [hstep.requests, List.countP_append, List.countP_singleton]
    by_cases hid : id' = id
    · rw [hid, if_pos hasks]
      exact hlt
    · rw [asksFor_eq_false_of_ne hasks hid]
      exact hs.views_lt id'
  · rw [hstep.posted, hs.posted, hstep.requests, List.countP_append, List.countP_singleton,
      not_isPost_of_asksFor hasks, if_neg Bool.false_ne_true, if_neg Bool.false_ne_true,
      List.append_nil, Nat.add_zero]

end

variable (hfloat : lib.float.Reads) (hroot : root.getLast? ≠ some '/')
  (hmatch : d.match_ e.req.target = some (location e.here)) (hfaults : e.chance.meme.faults = {})

include hd hshared hfloat hroot hmatch hfaults

/-- A post is answered with the next id, or with an error if this id is taken. -/
lemma serve_post (hmethod : e.req.method = .post) (htarget : e.req.target = location e.here)
    (hne : e.req.body ≠ []) (hbody : Meme.Parses lib.tree e.req.body) :
    (UpToDate s.requests e ∧
      ∃ store', Stands lib d location p root (SharedRun.serve lib d s e) store') ∨
    ¬ UpToDate s.requests e ∧ ¬ SharedRun.Shares root (SharedRun.serve lib d s e) := by
  obtain ⟨f, hf, -⟩ := hshared.factory e.here
  obtain ⟨memes, hmemes, hcounts⟩ := hs.exists_module hfloat hroot hf
  have hpost : e.isPost = true := decide_eq_true hmethod
  have hnext := hcounts.next_none_iff hs.holds hs.posts_le
  rw [← upToDate_post_iff hpost] at hnext
  have hdisk : OnDisk lib.float p root (⟨s.world.fs, memes⟩ : MemeState F).fs store := hs.disk
  cases hid : store (memes.idCount + 1) with
  | none =>
    have hup := hnext.mp hid
    obtain ⟨hmissed, hlt⟩ := (upToDate_post_iff hpost).mp hup
    obtain ⟨fs', hcreate, hdisk'⟩ := hdisk.module_create hcounts.root_eq hid e.req.body
    rw [← hfaults] at hcreate
    have hreply := @MemeHandler.handleRequest_post_of_some _ lib.float _ _ _ _ _ _ _ hmethod htarget
      hbody hcreate
    have hstep := hshared.serve_eq hmatch hfaults hf hmemes hreply hcounts.root_eq
    have hcounts' := hcounts.append_post rfl hpost
    simp only [hcounts.next_eq hmissed hlt] at hdisk' hid hstep hcounts'
    have hop : (MemeOp.create e.req.body).Valid lib.tree :=
      ⟨hne, fun _ _ => succeeds_meme_make_iff.mpr hbody⟩
    exact Or.inl ⟨hup, _, hs.append_post hd hshared hf hpost hlt hstep hcounts' hid hdisk' hop⟩
  | some m =>
    have hcreate := hdisk.module_create_of_some hcounts.root_eq hid e.req.body
    rw [← hfaults] at hcreate
    have hreply := @MemeHandler.handleRequest_post_of_none _ lib.float _ _ _ _ _ _ hmethod htarget
      hbody hcreate
    have hstep := hshared.serve_eq hmatch hfaults hf hmemes hreply hcounts.root_eq
    refine Or.inr ⟨fun hup => ?_, SharedRun.not_shares_of_mem ?_⟩
    · rw [hnext.mpr hup] at hid
      cases hid
    · rw [hstep.posted, if_pos hpost]
      exact List.mem_append_right _ List.mem_cons_self

/-- A request for a meme leaves the right count of views, unless views were missed. -/
lemma serve_view {n : CInt} (hmethod : e.req.method = .get)
    (htarget : MemeHandler.upToLastSlash e.req.target = location e.here ++ "/".toList)
    (hn : stoi (possibleId e.req.target) = .ok n)
    (hposted : some (MemeHandler.created (MemeId.ofCInt n)) ∈ s.posted) :
    (UpToDate s.requests e ∧
      ∃ store', Stands lib d location p root (SharedRun.serve lib d s e) store') ∨
    ¬ UpToDate s.requests e ∧ ¬ SharedRun.Shares root (SharedRun.serve lib d s e) := by
  obtain ⟨f, hf, -⟩ := hshared.factory e.here
  obtain ⟨memes, hmemes, hcounts⟩ := hs.exists_module hfloat hroot hf
  obtain ⟨m, hm⟩ := hs.exists_of_posted hposted
  have hasks : e.asksFor (MemeId.ofCInt n) = true := by
    rw [asksFor, decide_eq_true_eq, id?, hn]
    exact ⟨hmethod, rfl⟩
  have hdisk : OnDisk lib.float p root (⟨s.world.fs, memes⟩ : MemeState F).fs store := hs.disk
  obtain ⟨meme, hget, -⟩ := hdisk.module_get hcounts.root_eq hm (hs.valid _ m hm)
  obtain ⟨fs', hincrement, hsets⟩ := hdisk.module_incrementViewCount hcounts.root_eq hm
  rw [hincrement, ← hfaults] at hget
  have hreply := MemeHandler.handleRequest_get {} hmethod htarget hn hget
  have hstep := hshared.serve_eq hmatch hfaults hf hmemes hreply hcounts.root_eq
  obtain ⟨k, hk, hviews⟩ := hcounts.views (MemeId.ofCInt n)
  simp only [hk, viewsEntry_elim_succ] at hsets
  by_cases hup : UpToDate s.requests e
  · obtain ⟨hmissed, hfits⟩ := (upToDate_view_iff hasks).mp hup
    have hdisk' : OnDisk lib.float p root fs' (store.view (MemeId.ofCInt n)) := by
      rw [hmissed, Nat.add_zero] at hviews
      have hm' := hs.holds.views (MemeId.ofCInt n)
      rw [hm, Option.elim_some] at hm'
      have hcount : ({ m with views := m.views + 1 } : MemeRecord).count =
          some (CInt.wrap (k + 1)) := by
        rw [hviews, ← hm', MemeRecord.count, if_neg (Nat.succ_ne_zero _), Nat.cast_succ]
      rw [MemeStore.view, hm]
      exact hdisk.update hsets.changesWithin ((hdisk.memeAt hm).setViews hcount hsets)
    have hcounts' := hcounts.append_view rfl hasks
    exact Or.inl ⟨hup, _, hs.append_view hd hshared hf hasks hfits hstep hcounts' hm hdisk'⟩
  · -- the count that was written is not the number of requests
    refine Or.inr ⟨hup, fun hshares => ?_⟩
    have hwritten := hshares.viewsOnDisk (hstep.posted ▸ List.mem_append_left _ hposted)
    have hpath := hdisk.resolve_file_of_sets hm (hdisk.not_isDir_views hm) hsets .views
    rw [hstep.requests, List.countP_append, List.countP_singleton, if_pos hasks, ViewsOnDisk,
      if_neg (Nat.succ_ne_zero _), hstep.fs_eq,
      show "/views".toList = '/' :: MemeFile.views.name from rfl,
      FileSystem.openRead_of_node hpath hsets.node_self, OpenRead.contents.injEq,
      toStr_eq_toDigits_iff] at hwritten
    have hlt := hs.views_lt (MemeId.ofCInt n)
    have hupper := (CInt.wrap (k + 1)).upper
    rw [hwritten] at hupper
    refine hup ((upToDate_view_iff hasks).mpr ⟨?_, by omega⟩)
    simp only [CInt.wrap] at hwritten
    omega

end Stands

namespace SharedRun

lemma requests_serve (s : SharedRun F) (e : SharedRequest) :
    (serve lib d s e).requests = s.requests ++ [e] := by
  rw [serve]
  cases d.handleRequest lib e.chance e.req {} s.world with
  | ok answered => exact List.map_append
  | error failure => exact List.map_append

lemma requests_foldl (es : List SharedRequest) (s : SharedRun F) :
    (es.foldl (serve lib d) s).requests = s.requests ++ es := by
  induction es generalizing s with
  | nil => exact (List.append_nil _).symm
  | cons e es ih => rw [List.foldl_cons, ih, requests_serve, List.append_assoc, List.singleton_append]

end SharedRun

/-- Two locations share the memes of their root exactly as long as no post goes to a location that
missed one, no request for a meme to a location that missed one, and the counters fit. -/
theorem SharedRoot.run_shares_iff {F : Type} (lib : Library F) {c : NginxConfig}
    {d : RequestDispatcher} {location : Bool → Str} {root : Str} (hd : c.dispatcher = some d)
    (hshared : SharedRoot d location root) (hroot : root.getLast? ≠ some '/')
    (hfloat : lib.float.Reads) (fs : FileSystem) (hdir : fs.isDirectory root = true)
    (hempty : fs.entries root = []) (es : List SharedRequest)
    (hvalid : ∀ es₁ e, es₁ ++ [e] <+: es →
      SharedRun.Valid lib d location (es₁.foldl (SharedRun.serve lib d) (.start fs)) e) :
    (∀ es₁, es₁ <+: es →
      SharedRun.Shares root (es₁.foldl (SharedRun.serve lib d) (.start fs))) ↔
        ∀ es₁ e, es₁ ++ [e] <+: es → UpToDate es₁ e := by
  obtain ⟨p, hname, hp⟩ := FileSystem.isDirectory_eq_true hdir
  rw [FileSystem.entries, hname] at hempty
  have hstep : ∀ {s : SharedRun F} (e : SharedRequest),
      (∃ store, Stands lib d location p root s store) → SharedRun.Valid lib d location s e →
        (UpToDate s.requests e ∧
          ∃ store, Stands lib d location p root (SharedRun.serve lib d s e) store) ∨
        ¬ UpToDate s.requests e ∧ ¬ SharedRun.Shares root (SharedRun.serve lib d s e) := by
    rintro s e ⟨store, hs⟩ ⟨hmatch, hfaults, hpost | hget⟩
    · obtain ⟨hmethod, htarget, hne, hbody⟩ := hpost
      exact hs.serve_post hd hshared hfloat hroot hmatch hfaults hmethod htarget hne hbody
    · obtain ⟨hmethod, htarget, id, hid, hposted⟩ := hget
      rw [id?] at hid
      cases hn : stoi (possibleId e.req.target) with
      | error failure =>
        rw [hn] at hid
        cases hid
      | ok n =>
        rw [hn] at hid
        cases hid
        exact hs.serve_view hd hshared hfloat hroot hmatch hfaults hmethod htarget hn hposted
  have hstart : ∃ store, Stands lib d location p root (SharedRun.start fs) store :=
    ⟨_, .start hname hp hempty⟩
  have hiff := @forall_prefix_foldl_iff_of_valid _ _ (SharedRun.serve lib d)
    (fun s => ∃ store, Stands lib d location p root s store) (SharedRun.Shares root)
    (SharedRun.Valid lib d location) (fun s e => UpToDate s.requests e) (fun hs => hs.elim fun _ hs => hs.shares)
    hstep es _ hstart hvalid
  simp only [SharedRun.requests_foldl] at hiff
  exact hiff

end

/-! ### Three posts -/

/-- `location /a MemeHandler { root m; }` and `location /b MemeHandler { root m/; }`. -/
def twoLocations : NginxConfig :=
  .mk [.mk ["location".toList, "/a".toList, "MemeHandler".toList]
      (some (.mk [.mk ["root".toList, ['m']] none])),
    .mk ["location".toList, "/b".toList, "MemeHandler".toList]
      (some (.mk [.mk ["root".toList, "m/".toList] none]))]

def sampleLocation (b : Bool) : Str := if b then "/b".toList else "/a".toList

/-- Posts to the first location, the second and the first again. -/
def samplePosts : List SharedRequest :=
  [false, true, false].map fun b => ⟨b, ⟨.post, sampleLocation b, sampleMeme, []⟩, {}⟩

def sampleLibrary : Library CInt := ⟨fun _ => [], wholeFloat, sampleTree⟩

lemma twoLocations_sharedRoot :
    ∃ d, twoLocations.dispatcher = some d ∧ SharedRoot d sampleLocation ['m'] ∧
      ∀ e ∈ samplePosts, ∀ s : SharedRun CInt,
        SharedRun.Valid sampleLibrary d sampleLocation s e := by
  refine ⟨_, rfl, ⟨by decide, fun b => ?_, fun b => ?_⟩, fun e he s => ?_⟩
  · cases b <;> exact ⟨_, rfl, rfl⟩
  · cases b <;> exact ⟨_, rfl, rfl⟩
  · obtain ⟨b, -, rfl⟩ := List.mem_map.mp he
    refine ⟨?_, rfl, Or.inl ⟨rfl, rfl, List.cons_ne_nil _ _, ⟨_, rfl⟩⟩⟩
    cases b <;> rfl

theorem SharedRoot.run_shares_iff_samplePosts :
    ∃ d, twoLocations.dispatcher = some d ∧
      ((∀ es₁, es₁ <+: samplePosts → SharedRun.Shares ['m']
          (es₁.foldl (SharedRun.serve sampleLibrary d) (.start sampleDisk))) ↔
        ∀ es₁ e, es₁ ++ [e] <+: samplePosts → SharedRequest.UpToDate es₁ e) := by
  obtain ⟨d, hd, hshared, hvalid⟩ := twoLocations_sharedRoot
  refine ⟨d, hd, run_shares_iff sampleLibrary hd hshared (by decide) wholeFloat_reads sampleDisk rfl
    rfl samplePosts fun es₁ e hpre => hvalid e (hpre.subset ?_) _⟩
  exact List.mem_append_right _ List.mem_cons_self

/-- The third post gets an id that the second has got. -/
lemma twoLocations_posted :
    twoLocations.dispatcher.map (fun d =>
      (samplePosts.foldl (SharedRun.serve sampleLibrary d) (.start sampleDisk)).posted) =
    some [some (MemeHandler.created 1), some (MemeHandler.created 2),
      some (Response.overwritten .internal_server_error {})] := rfl

lemma parse_twoLocations :
    parse (twoLocations.toStr 0) = .returned true twoLocations := by
  have hhandler : TokenText "MemeHandler".toList :=
    .bare (c := 'M') (s := "emeHandler".toList) (by decide) (List.forall_iff_forall_mem.mp (by decide))
  obtain ⟨ts, hts, htexts⟩ := exists_statementOf_oneRoot
    (.bare (c := '/') (s := ['a']) (by decide) (List.forall_iff_forall_mem.mp (by decide))) hhandler
    (.bare (c := 'm') (s := []) (by decide) (by simp))
  obtain ⟨us, hus, hutexts⟩ := exists_statementOf_oneRoot
    (.bare (c := '/') (s := ['b']) (by decide) (List.forall_iff_forall_mem.mp (by decide))) hhandler
    (.bare (c := 'm') (s := ['/']) (by decide) (List.forall_iff_forall_mem.mp (by decide)))
  refine parse_toStr_of_configOf (ConfigOf.cons hts hus.toConfigOf) (fun t ht => ?_) 0
  rcases List.mem_append.mp ht with ht | ht
  · exact htexts t ht
  · exact hutexts t ht

theorem SharedRoot.run_conflicts :
    parse (twoLocations.toStr 0) = .returned true twoLocations ∧
      ¬ ∀ d, twoLocations.dispatcher = some d → SharedRoot d sampleLocation ['m'] →
        (∀ e ∈ samplePosts, ∀ s : SharedRun CInt,
          SharedRun.Valid sampleLibrary d sampleLocation s e) →
        SharedRun.Shares ['m']
          (samplePosts.foldl (SharedRun.serve sampleLibrary d) (.start sampleDisk)) := by
  refine ⟨parse_twoLocations, fun h => ?_⟩
  obtain ⟨d, hd, hshared, hvalid⟩ := twoLocations_sharedRoot
  have hresponses := twoLocations_posted
  rw [hd, Option.map_some, Option.some.injEq] at hresponses
  refine SharedRun.not_shares_of_mem ?_ (h d hd hshared hvalid)
  rw [hresponses]
  exact List.mem_cons_of_mem _ (List.mem_cons_of_mem _ List.mem_cons_self)

end SocialNetworkApp
