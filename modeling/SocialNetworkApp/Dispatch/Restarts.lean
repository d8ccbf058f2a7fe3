import SocialNetworkApp.Dispatch.Services
import SocialNetworkApp.Meme.Loading

/-!
# Restarts

A process that ends leaves nothing but its disk behind. The process that is started on it scans the
entities anew, and goes on with every store where the one before has left it, whatever has become of
the memes.
-/

namespace SocialNetworkApp

open SocialNetworkApp.Core

variable {F : Type} {lib : Library F} {d : RequestDispatcher} {sv : Services} {w₀ w w' : World F}
  {fs fs' : FileSystem} {calls : List ServiceCall} {c : ServiceCall} {m : MemeSite}

/-- Below the roots of entities are entities only, and those of memes are found. -/
structure Services.Standing (sv : Services) (fs : FileSystem) : Prop where
  entities : ∀ s ∈ sv.entities, EntityRoot s.2 s.1 fs
  resolve : ∀ m ∈ sv.memes, fs.resolve m.root = some m.path

/-- The dispatcher answers the request, and no call of the file system fails but for memes. -/
structure ServiceCall.Returned (lib : Library F) (d : RequestDispatcher) (sv : Services)
    (w : World F) (c : ServiceCall) (w' : World F) : Prop where
  asks : d.Asks sv c.request c.want
  faults : c.chance.faults = {}
  plain : ∀ n, c.drawn = some n → PlainName n
  reply : d.handleRequest lib c.chance c.request {} w = .ok (c.response, w')

/-- A process: the dispatcher of its configuration, and the calls it answers. -/
structure Process where
  dispatcher : RequestDispatcher
  calls : List ServiceCall

/-- A process that is started on one disk and leaves another. -/
def Process.Leaves (lib : Library F) (sv : Services) (fs : FileSystem) (p : Process)
    (fs' : FileSystem) : Prop :=
  ∃ w, Run (ServiceCall.Returned lib p.dispatcher sv) (startedOn F fs) p.calls w ∧ w.fs = fs'

/-! ### Memes -/

/-- The modules have the roots they are found under. -/
def World.Rooted (w : World F) : Prop :=
  ∀ f r memes, (w.memeModules f).lookup r = some memes → memes.root = r

lemma MemeModule.root_of_load {float : FloatArith F} {faults : StorageFaults} {uninit : Uninit}
    {root : Str} {memes : MemeModule F} (h : load float faults uninit fs root = .ok memes) :
    memes.root = root := by
  by_cases hdir : fs.isDirectory root = true
  · rw [eq_of_load hdir h]
    exact (foldl_afterEntry (subdirectories fs root)).1
  · rw [load, if_neg (by simp [hdir])] at h
    cases h
    rfl

/-- The factory finds a module of the root, or makes one. -/
lemma MemeHandlerFactory.exists_of_create {chance : Chance} {location root : Str}
    {config : NginxConfig} {modules : Table Str (MemeModule F)}
    {made : Option (Handler F) × Table Str (MemeModule F)}
    (hargument : config.rootArgument = some root)
    (hrooted : ∀ r memes, modules.lookup r = some memes → memes.root = r)
    (h : create lib chance location config fs modules = .ok made) :
    ∃ memes, made.1 = some (.meme location memes) ∧ memes.root = root ∧
      ∀ r memes, made.2.lookup r = some memes → memes.root = r := by
  simp only [create, hargument] at h
  cases hmodule : modules.lookup root with
  | some memes =>
    rw [hmodule] at h
    cases h
    exact ⟨memes, rfl, hrooted root memes hmodule, hrooted⟩
  | none =>
    rw [hmodule] at h
    obtain ⟨memes, hload, rfl⟩ := exists_of_map_eq_ok h
    have hroot := MemeModule.root_of_load hload
    refine ⟨memes, rfl, hroot, ?_⟩
    intro r memes' hlookup
    rcases Table.lookup_insert_cases hlookup with ⟨rfl, rfl⟩ | ⟨-, hold⟩
    · exact hroot
    · exact hrooted r memes' hold

/-- A request to a location of memes writes below its root only. -/
lemma handleRequest_memes_grows {req : Request} {chance : Chance} {response : Response}
    (hmatch : d.match_ req.target = some m.location) (hlocation : d.MemesAt m)
    (hname : w.fs.resolve m.root = some m.path) (hrooted : w.Rooted)
    (huuid : req.method = .post → req.target = m.location ++ "/comment".toList →
      PlainName chance.meme.uuid)
    (hreply : d.handleRequest lib chance req {} w = .ok (response, w')) :
    w.fs.GrowsBelow m.path w'.fs ∧ w'.Rooted := by
  obtain ⟨config, hconfig, hargument⟩ := hlocation.arguments
  rw [RequestDispatcher.handleRequest, hmatch] at hreply
  simp only [RequestDispatcher.handleAt, hconfig, hlocation.factory, FactoryPtr.create,
    hlocation.type] at hreply
  cases hcreate : MemeHandlerFactory.create lib chance m.location config w.fs
      (w.memeModules m.factory) with
  | error e =>
    rw [hcreate] at hreply
    cases hreply
  | ok made =>
    obtain ⟨memes, hmade, hroot, hmodules⟩ :=
      MemeHandlerFactory.exists_of_create hargument (hrooted m.factory) hcreate
    simp only [hcreate, Except.map, hmade, Handler.handleRequest] at hreply
    cases hanswer : MemeHandler.handleRequest lib.float lib.tree chance.meme m.location req {}
        ⟨w.fs, memes⟩ with
    | error e =>
      rw [hanswer] at hreply
      cases hreply
    | ok reply =>
      rw [hanswer] at hreply
      cases hreply
      have hresolve : w.fs.resolve memes.root = some m.path := by rw [hroot, hname]
      obtain ⟨hgrows, hreplied⟩ :=
        MemeHandler.returns_handleRequest (w := ⟨w.fs, memes⟩) hresolve huuid reply hanswer
      refine ⟨hgrows, ?_⟩
      intro f r memes' hlookup
      by_cases hf : f = m.factory
      · subst hf
        simp only [Function.update_self] at hlookup
        rcases Table.lookup_insert_cases hlookup with ⟨rfl, rfl⟩ | ⟨-, hold⟩
        · rfl
        · exact hmodules r memes' hold
      · simp only [Function.update_of_ne hf] at hlookup
        exact hrooted f r memes' hlookup

/-! ### One process -/

/-- What holds after some calls. -/
structure Services.Lasting (sv : Services) (w₀ : World F) (calls : List ServiceCall)
    (w : World F) : Prop extends Services.StoresKept sv w₀ calls w where
  rooted : w.Rooted

lemma Services.Lasting.call (h : sv.Lasting w₀ calls w) (hstanding : sv.Standing w₀.fs)
    (hcall : ServiceCall.Returned lib d sv w c w') : sv.Lasting w₀ (calls ++ [c]) w' := by
  obtain ⟨req, want, chance, response⟩ := c
  obtain ⟨hasks, hfaults, hplain, hreply⟩ := hcall
  cases hasks with
  | entity hmatch hlocation hroot hdir hreq =>
    obtain ⟨hstores, -, hmodules⟩ :=
      h.toStoresKept.entity hreply hmatch hlocation hroot hdir hreq hfaults
    refine ⟨hstores, ?_⟩
    rw [World.Rooted, hmodules]
    exact h.rooted
  | @memes m hmatch hlocation hm =>
    have hname : w.fs.resolve m.root = some m.path :=
      FileSystem.resolve_mono h.grown.cwd_eq h.grown.isDir (hstanding.resolve m hm)
    obtain ⟨hgrows, hrooted⟩ := handleRequest_memes_grows hmatch hlocation hname h.rooted
      (fun hmethod htarget => hplain _ (if_pos ⟨hmethod, htarget⟩)) hreply
    exact ⟨h.toStoresKept.memes hm hgrows fun _ => rfl, hrooted⟩
  | nothing hreads =>
    have hsame := handleRequest_readOnlyAt hreads hreply
    refine ⟨h.toStoresKept.nothing hsame, ?_⟩
    rw [World.Rooted, hsame.memeModules_eq]
    exact h.rooted

lemma Services.Standing.run (h : sv.Standing fs)
    (hrun : Run (ServiceCall.Returned lib d sv) (startedOn F fs) calls w) :
    sv.Lasting (startedOn F fs) calls w := by
  refine hrun.induction_on_last ⟨.start h.entities, ?_⟩ ?_
  · intro f r memes hlookup
    cases hlookup
  · intro calls c t t' _ ih hcall
    exact ih.call h hcall

/-! ### One process after the other -/

/-- Every store goes on across all restarts, and what is below no root is as it was. -/
theorem restarts_keep_stores {ps : List Process} (hstanding : sv.Standing fs)
    (hrun : Run (Process.Leaves lib sv) fs ps fs') :
    sv.Standing fs' ∧
      (∀ s ∈ sv.entities, Run Store.Serves (siteStore s.2 fs)
        (ps.flatMap fun p => exchangesAt s.2 p.calls) (siteStore s.2 fs')) ∧
      ∀ q, (∀ R, sv.IsPath R → ¬ R <+: q) → fs'.tree.node q = fs.tree.node q := by
  induction hrun with
  | nil fs => exact ⟨hstanding, fun _ _ => .nil _, fun _ _ => rfl⟩
  | @cons fs fs₁ fs' p ps hleaves _ ih =>
    obtain ⟨w, hcalls, rfl⟩ := hleaves
    have h := hstanding.run hcalls
    have hnext : sv.Standing w.fs := by
      refine ⟨h.roots, fun m hm => ?_⟩
      exact FileSystem.resolve_mono h.grown.cwd_eq h.grown.isDir (hstanding.resolve m hm)
    obtain ⟨hlast, hstores, hnode⟩ := ih hnext
    refine ⟨hlast, ?_, fun q hq => (hnode q hq).trans (h.grown.node_eq q hq)⟩
    intro s hs
    rw [List.flatMap_cons]
    exact (h.stores s hs).append (hstores s hs)

/-- One process puts an entity, and the next one is asked for it. -/
def putGet (d : RequestDispatcher) (response response' : Response) : List Process :=
  [⟨d, [⟨⟨.put, "/e/d/1".toList, ['x'], []⟩, .entity [['r']] (.put ['d'] 1 ['x']), {}, response⟩]⟩,
    ⟨d, [⟨⟨.get, "/e/d/1".toList, [], []⟩, .entity [['r']] (.get ['d'] 1), {}, response'⟩]⟩]

theorem restarts_keep_stores_putGet : ∃ d response response' fs',
    sampleLocations.dispatcher = some d ∧
    Run (Process.Leaves wholeLibrary sampleServices) sampleRoots (putGet d response response') fs' ∧
    Run Store.Serves (siteStore [['r']] sampleRoots)
      [⟨.put ['d'] 1 ['x'], response.result, response⟩, ⟨.get ['d'] 1, response'.result, response'⟩]
      (siteStore [['r']] fs') := by
  have hcalls : ∃ d response response' w w', sampleLocations.dispatcher = some d ∧
      d.HandlesAt .crud "/e".toList ['r'] ∧ d.match_ "/e/d/1".toList = some "/e".toList ∧
      d.handleRequest wholeLibrary {} ⟨.put, "/e/d/1".toList, ['x'], []⟩ {} sampleWorld =
        .ok (response, w) ∧
      d.handleRequest wholeLibrary {} ⟨.get, "/e/d/1".toList, [], []⟩ {} (startedOn CInt w.fs) =
        .ok (response', w') :=
    ⟨_, _, _, _, _, rfl, ⟨⟨_, rfl, rfl⟩, ⟨_, rfl, rfl⟩⟩, rfl, rfl, rfl⟩
  obtain ⟨d, response, response', w, w', hd, hcrud, hmatch, hput, hget⟩ := hcalls
  have hrun : Run (Process.Leaves wholeLibrary sampleServices) sampleRoots
      (putGet d response response') w'.fs := by
    refine .cons ⟨w, .cons ⟨?_, rfl, ?_, hput⟩ (.nil w), rfl⟩
      (.cons ⟨w', .cons ⟨?_, rfl, ?_, hget⟩ (.nil w'), rfl⟩ (.nil w'.fs))
    · exact .entity hmatch hcrud rfl (by decide) ⟨"/e".toList, rfl, rfl, rfl⟩
    · intro n hn
      cases hn
    · exact .entity hmatch hcrud rfl (by decide) ⟨"/e".toList, rfl, rfl⟩
    · intro n hn
      cases hn
  have hstanding : sampleServices.Standing sampleRoots :=
    ⟨ready_sampleServices.entities, ready_sampleServices.resolve⟩
  exact ⟨d, response, response', w'.fs, hd, hrun,
    (restarts_keep_stores hstanding hrun).2.1 (['r'], [['r']]) rfl⟩

end SocialNetworkApp
