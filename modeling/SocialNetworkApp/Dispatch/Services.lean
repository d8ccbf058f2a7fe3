import SocialNetworkApp.Dispatch.Locations

/-!
# The services of a dispatcher

Behind one dispatcher stand any number of services, each below a root of its own: stores of
entities, which several locations may share, and boards of memes. Whatever the order of the
requests, every service goes on as if it were alone, and what is below no root stays as it is.
-/

namespace SocialNetworkApp

open SocialNetworkApp.Core

/-- An exchange with a store. -/
def Store.Serves (s : Store) (e : Exchange) (s' : Store) : Prop :=
  e.op.AnsweredBy s e.status e.response ∧ s' = replay s (e.op.effect e.status e.response)

/-- The roots of entities, each with the directory it names, and the locations of memes. No root is
below another one. -/
structure Services where
  entities : Set (Str × List Str)
  memes : Set MemeSite
  entities_apart : ∀ s ∈ entities, ∀ s' ∈ entities, s.2 = s'.2 ∨ FileSystem.Apart s.2 s'.2
  memes_apart : ∀ m ∈ memes, ∀ m' ∈ memes, m = m' ∨ FileSystem.Apart m.path m'.path
  apart : ∀ s ∈ entities, ∀ m ∈ memes, FileSystem.Apart s.2 m.path

/-- The directory is that of a service. -/
def Services.IsPath (sv : Services) (R : List Str) : Prop :=
  (∃ s ∈ sv.entities, s.2 = R) ∨ ∃ m ∈ sv.memes, m.path = R

/-- Below the roots of entities are entities only, and there is nothing below those of memes. -/
structure Services.Ready {F : Type} (sv : Services) (w : World F) : Prop where
  entities : ∀ s ∈ sv.entities, EntityRoot s.2 s.1 w.fs
  root : ∀ m ∈ sv.memes, m.root.getLast? ≠ some '/'
  resolve : ∀ m ∈ sv.memes, w.fs.resolve m.root = some m.path
  dir : ∀ m ∈ sv.memes, w.fs.tree.IsDir m.path
  empty : ∀ m ∈ sv.memes, w.fs.tree.children m.path = []
  unloaded : ∀ m ∈ sv.memes, (w.memeModules m.factory).lookup m.root = none

/-- A process that has just been started, on a disk. -/
def startedOn (F : Type) (fs : FileSystem) : World F := ⟨fs, fun _ => ∅, fun _ => ∅⟩

/-- What a request asks for. -/
inductive Want where
  | entity (R : List Str) (op : StoreOp)
  | memes (m : MemeSite)
  | nothing

/-- The request asks for an operation on an entity, for what a location of memes answers, or, as
whatever only reads entities does, for no change of what is kept. -/
inductive RequestDispatcher.Asks (d : RequestDispatcher) (sv : Services) (req : Request) :
    Want → Prop
  | entity {location root : Str} {R : List Str} {op : StoreOp}
      (hmatch : d.match_ req.target = some location) (hlocation : d.HandlesAt .crud location root)
      (hroot : (root, R) ∈ sv.entities) (hdir : PlainName op.dir) (hreq : op.RequestedBy req) :
      Asks d sv req (.entity R op)
  | memes {m : MemeSite} (hmatch : d.match_ req.target = some m.location)
      (hlocation : d.MemesAt m) (hm : m ∈ sv.memes) : Asks d sv req (.memes m)
  | nothing (h : d.ReadOnlyAt req) : Asks d sv req .nothing

/-- A request, what it asks for, what it leaves to chance, and the response to it. -/
structure ServiceCall where
  request : Request
  want : Want
  chance : Chance
  response : Response

namespace ServiceCall

/-- The dispatcher answers the request, and no call of the file system fails. -/
structure Answered {F : Type} (lib : Library F) (d : RequestDispatcher) (sv : Services)
    (w : World F) (c : ServiceCall) (w' : World F) : Prop where
  asks : d.Asks sv c.request c.want
  faults : c.chance.faults = {}
  memeFaults : c.chance.meme.faults = {}
  reply : d.handleRequest lib c.chance c.request {} w = .ok (c.response, w')

/-- The operation on the entities below `R`, and its answer. -/
def exchange? (R : List Str) (c : ServiceCall) : Option Exchange :=
  match c.want with
  | .entity R' op => if R' = R then some ⟨op, c.response.result, c.response⟩ else none
  | _ => none

/-- What is seen of an exchange with a board. -/
abbrev Seen := Request × MemeChance × Response

/-- What is seen of a call at a location of memes. -/
def seen? (m : MemeSite) (c : ServiceCall) : Option Seen :=
  match c.want with
  | .memes m' => if m' = m then some (c.request, c.chance.meme, c.response) else none
  | _ => none

/-- The name that is drawn for a comment. -/
def drawn (c : ServiceCall) : Option Str :=
  match c.want with
  | .memes m =>
    if c.request.method = .post ∧ c.request.target = m.location ++ "/comment".toList then
      some c.chance.meme.uuid
    else none
  | _ => none

end ServiceCall

/-- Behind the dispatcher, the response of the handler is replaced where it is an error. -/
def MemeBoard.Exchange.seen (e : MemeBoard.Exchange) : ServiceCall.Seen :=
  (e.request, e.chance, e.response.overwritten e.status)

/-- The operations on the entities below `R`, and their answers. -/
def exchangesAt (R : List Str) (calls : List ServiceCall) : List Exchange :=
  calls.filterMap (ServiceCall.exchange? R)

/-- What is seen of the calls at a location of memes. -/
def seenAt (m : MemeSite) (calls : List ServiceCall) : List ServiceCall.Seen :=
  calls.filterMap (ServiceCall.seen? m)

/-- The names drawn for comments are names of files, and no name is drawn twice. -/
structure Drawn (calls : List ServiceCall) : Prop where
  plain : ∀ n ∈ calls.filterMap ServiceCall.drawn, PlainName n
  nodup : (calls.filterMap ServiceCall.drawn).Nodup
  length_lt : calls.length < 2 ^ 31

/-- Every service has gone on as if it were alone, and what is below no root is as it was. -/
structure Services.Independent {F : Type} (lib : Library F) (sv : Services) (w₀ : World F)
    (calls : List ServiceCall) (w : World F) : Prop where
  stores : ∀ s ∈ sv.entities,
    Run Store.Serves (siteStore s.2 w₀.fs) (exchangesAt s.2 calls) (siteStore s.2 w.fs)
  boards : ∀ m ∈ sv.memes, ∃ es b, es.map MemeBoard.Exchange.seen = seenAt m calls ∧
    Run (MemeBoard.Serves lib.float lib.tree m.location) .empty es b
  elsewhere : ∀ q, (∀ R, sv.IsPath R → ¬ R <+: q) → w.fs.tree.node q = w₀.fs.tree.node q

variable {F : Type} {lib : Library F} {d : RequestDispatcher} {sv : Services} {w₀ w w' : World F}
  {calls : List ServiceCall} {c : ServiceCall} {m : MemeSite} {b : MemeBoard} {R : List Str}

/-! ### Boards that wait -/

/-- What happens elsewhere does not matter to a board. -/
lemma MemeSite.Holds.elsewhere (h : m.Holds lib w b) (hgrows : w.fs.GrowsBelow R w'.fs)
    (hapart : FileSystem.Apart R m.path) (hname : w'.fs.Denotes m.root m.path)
    (hmodules : (w'.memeModules m.factory).lookup m.root =
      (w.memeModules m.factory).lookup m.root) : m.Holds lib w' b := by
  cases h with
  | unloaded hmodule hroot _ hdir hempty =>
    exact .unloaded (hmodules.trans hmodule) hroot hname (hgrows.isDir _ hdir)
      (hgrows.children_apart hapart hempty)
  | loaded hmodule hheld =>
    exact .loaded (hmodules.trans hmodule) (hheld.elsewhere hgrows hapart hname)

lemma MemeSite.Holds.sameButIds (h : m.Holds lib w b) (hsame : w.SameButIds w') :
    m.Holds lib w' b := by
  obtain ⟨hfs, hmodules⟩ := hsame
  cases h with
  | unloaded hmodule hroot hname hdir hempty =>
    exact .unloaded (by rw [hmodules, hmodule]) hroot (hfs ▸ hname) (hfs ▸ hdir) (hfs ▸ hempty)
  | loaded hmodule hheld => exact .loaded (by rw [hmodules, hmodule]) (hfs ▸ hheld)

/-! ### Calls one after the other -/

lemma exchangesAt_concat (R : List Str) (calls : List ServiceCall) (c : ServiceCall) :
    exchangesAt R (calls ++ [c]) = exchangesAt R calls ++ (c.exchange? R).toList := by
  rw [exchangesAt, exchangesAt, List.filterMap_append]
  cases h : c.exchange? R <;> simp [h]

lemma seenAt_concat (m : MemeSite) (calls : List ServiceCall) (c : ServiceCall) :
    seenAt m (calls ++ [c]) = seenAt m calls ++ (c.seen? m).toList := by
  rw [seenAt, seenAt, List.filterMap_append]
  cases h : c.seen? m <;> simp [h]

lemma Drawn.of_append {calls' : List ServiceCall} (h : Drawn (calls ++ calls')) : Drawn calls := by
  obtain ⟨hplain, hnodup, hlength⟩ := h
  rw [List.filterMap_append] at hplain hnodup
  rw [List.length_append] at hlength
  exact ⟨fun n hn => hplain n (List.mem_append_left _ hn), (List.nodup_append.mp hnodup).1,
    (Nat.le_add_right _ _).trans_lt hlength⟩

/-- A name that is drawn is a new name of a file. -/
lemma Drawn.last {n : Str} (h : Drawn (calls ++ [c])) (hc : c.drawn = some n) :
    PlainName n ∧ n ∉ calls.filterMap ServiceCall.drawn := by
  obtain ⟨hplain, hnodup, -⟩ := h
  have hlast : [c].filterMap ServiceCall.drawn = [n] := List.filterMap_cons_some hc
  rw [List.filterMap_append, hlast] at hplain hnodup
  refine ⟨hplain n (List.mem_append_right _ (List.mem_singleton_self n)), fun hn => ?_⟩
  exact (List.nodup_append.mp hnodup).2.2 n hn n (List.mem_singleton_self n) rfl

/-! ### The disk -/

/-- Directories are kept, and what is below no root is as it was. -/
structure Services.Grown (sv : Services) (w₀ w : World F) : Prop where
  cwd_eq : w.fs.cwd = w₀.fs.cwd
  isDir : ∀ q, w₀.fs.tree.IsDir q → w.fs.tree.IsDir q
  node_eq : ∀ q, (∀ R, sv.IsPath R → ¬ R <+: q) → w.fs.tree.node q = w₀.fs.tree.node q

namespace Services.Grown

lemma refl (sv : Services) (w : World F) : sv.Grown w w := ⟨rfl, fun _ h => h, fun _ _ => rfl⟩

lemma grow (h : sv.Grown w₀ w) (hR : sv.IsPath R) (hgrows : w.fs.GrowsBelow R w'.fs) :
    sv.Grown w₀ w' where
  cwd_eq := hgrows.within.cwd_eq.trans h.cwd_eq
  isDir q hq := hgrows.isDir q (h.isDir q hq)
  node_eq q hq := (hgrows.within.node_eq q (hq R hR)).trans (h.node_eq q hq)

lemma sameButIds (h : sv.Grown w₀ w) (hsame : w.SameButIds w') : sv.Grown w₀ w' := by
  obtain ⟨hcwd, hdir, hnode⟩ := h
  rw [← hsame.fs_eq] at hcwd hdir hnode
  exact ⟨hcwd, hdir, hnode⟩

lemma denotes (h : sv.Grown w₀ w) (hready : sv.Ready w₀) (hm : m ∈ sv.memes) :
    w.fs.Denotes m.root m.path :=
  .of_grown (hready.resolve m hm) (hready.empty m hm) h.cwd_eq h.isDir

end Services.Grown

/-- Locations of memes that have one module are the same. -/
lemma Services.Ready.eq_of_module (h : sv.Ready w₀) {m' : MemeSite} (hm : m ∈ sv.memes)
    (hm' : m' ∈ sv.memes) (hmodule : (m'.factory, m'.root) = (m.factory, m.root)) : m = m' := by
  have hpath : m.path = m'.path := by
    have hresolve := h.resolve m' hm'
    rw [(Prod.mk.inj hmodule).2, h.resolve m hm] at hresolve
    exact Option.some.inj hresolve
  refine (sv.memes_apart m hm m' hm').resolve_right fun hapart => hapart.1 ?_
  rw [hpath]

/-! ### The services -/

/-- What holds of the stores after some calls. -/
structure Services.StoresKept (sv : Services) (w₀ : World F) (calls : List ServiceCall)
    (w : World F) : Prop where
  grown : sv.Grown w₀ w
  roots : ∀ s ∈ sv.entities, EntityRoot s.2 s.1 w.fs
  stores : ∀ s ∈ sv.entities,
    Run Store.Serves (siteStore s.2 w₀.fs) (exchangesAt s.2 calls) (siteStore s.2 w.fs)

namespace Services.StoresKept

lemma start (h : ∀ s ∈ sv.entities, EntityRoot s.2 s.1 w₀.fs) : sv.StoresKept w₀ [] w₀ where
  grown := .refl sv w₀
  roots := h
  stores _ _ := .nil _

/-- The stores of which a call asks nothing are kept. -/
lemma store_elsewhere (h : sv.StoresKept w₀ calls w) (hgrows : w.fs.GrowsBelow R w'.fs)
    {s : Str × List Str} (hs : s ∈ sv.entities) (hapart : FileSystem.Apart R s.2)
    (hc : c.exchange? s.2 = none) :
    Run Store.Serves (siteStore s.2 w₀.fs) (exchangesAt s.2 (calls ++ [c]))
      (siteStore s.2 w'.fs) := by
  have hsame : siteStore s.2 w'.fs = siteStore s.2 w.fs := by
    funext key
    simp only [siteStore, FileTree.content, List.append_assoc, hgrows.node_apart hapart]
  rw [exchangesAt_concat, hc, Option.toList_none, List.append_nil, hsame]
  exact h.stores s hs

/-- A call that asks for memes leaves all stores as they are. -/
lemma memes (h : sv.StoresKept w₀ calls w) (hm : m ∈ sv.memes)
    (hgrows : w.fs.GrowsBelow m.path w'.fs) (hc : ∀ R, c.exchange? R = none) :
    sv.StoresKept w₀ (calls ++ [c]) w' where
  grown := h.grown.grow (Or.inr ⟨m, hm, rfl⟩) hgrows
  roots s hs := (h.roots s hs).apart hgrows ⟨(sv.apart s hs m hm).2, (sv.apart s hs m hm).1⟩
  stores s hs := h.store_elsewhere hgrows hs ⟨(sv.apart s hs m hm).2, (sv.apart s hs m hm).1⟩ (hc _)

variable {req : Request} {chance : Chance} {response : Response}

/-- A request for an entity goes to the store of its root. -/
lemma entity {location root : Str} {op : StoreOp} (h : sv.StoresKept w₀ calls w)
    (hreply : d.handleRequest lib chance req {} w = .ok (response, w'))
    (hmatch : d.match_ req.target = some location) (hlocation : d.HandlesAt .crud location root)
    (hroot : (root, R) ∈ sv.entities) (hdir : PlainName op.dir) (hreq : op.RequestedBy req)
    (hfaults : chance.faults = {}) :
    sv.StoresKept w₀ (calls ++ [⟨req, .entity R op, chance, response⟩]) w' ∧
      w.fs.GrowsBelow R w'.fs ∧ w'.memeModules = w.memeModules := by
  obtain ⟨response', w₁, hreply', hanswer, hstore, hdisk, hgrows, hmodules⟩ :=
    @handleRequest_crudAt F lib d w req {} chance R op location root hmatch hlocation
      (h.roots _ hroot) hdir hreq rfl hfaults
  obtain ⟨rfl, rfl⟩ : response = response' ∧ w' = w₁ := by
    simpa using hreply.symm.trans hreply'
  refine ⟨⟨h.grown.grow (Or.inl ⟨_, hroot, rfl⟩) hgrows, ?_, ?_⟩, hgrows, hmodules⟩
  · intro s hs
    rcases sv.entities_apart _ hroot s hs with heq | hapart
    · have hsame : R = s.2 := heq
      refine ⟨⟨(h.roots s hs).rootAt.grows hgrows, ?_⟩, ?_⟩
      · rw [← hsame]
        exact hdisk.shape
      · rw [← hsame]
        exact hdisk.not_file
    · exact (h.roots s hs).apart hgrows hapart
  · intro s hs
    rcases sv.entities_apart _ hroot s hs with heq | hapart
    · have hsame : R = s.2 := heq
      have hexchange : ServiceCall.exchange? s.2 ⟨req, .entity R op, chance, response⟩ =
          some ⟨op, response.result, response⟩ := if_pos hsame
      rw [exchangesAt_concat, hexchange]
      refine (h.stores s hs).append (.cons ?_ (.nil _))
      rw [← hsame]
      exact ⟨hanswer, hstore⟩
    · refine h.store_elsewhere hgrows hs hapart (if_neg fun heq => hapart.1 ?_)
      rw [show R = s.2 from heq]

/-- A request that changes nothing goes to no store. -/
lemma nothing (h : sv.StoresKept w₀ calls w) (hsame : w.SameButIds w') :
    sv.StoresKept w₀ (calls ++ [⟨req, .nothing, chance, response⟩]) w' := by
  refine ⟨h.grown.sameButIds hsame, ?_, ?_⟩
  · rw [hsame.fs_eq]
    exact h.roots
  · intro s hs
    rw [exchangesAt_concat, hsame.fs_eq]
    exact (List.append_nil (exchangesAt s.2 calls)).symm ▸ h.stores s hs

end Services.StoresKept

/-- What holds of the services after some calls. -/
structure Services.Kept (lib : Library F) (sv : Services) (w₀ : World F)
    (calls : List ServiceCall) (w : World F) : Prop extends Services.StoresKept sv w₀ calls w where
  boards : ∀ m ∈ sv.memes, ∃ es b, es.map MemeBoard.Exchange.seen = seenAt m calls ∧
    Run (MemeBoard.Serves lib.float lib.tree m.location) .empty es b ∧ m.Holds lib w b ∧
    b.memes.length ≤ calls.length ∧
    ∀ n, b.store.Names n → n ∈ calls.filterMap ServiceCall.drawn

namespace Services.Kept

lemma start (h : sv.Ready w₀) : sv.Kept lib w₀ [] w₀ where
  toStoresKept := .start h.entities
  boards m hm := by
    refine ⟨[], .empty, rfl, .nil _, ?_, Nat.le_refl _, ?_⟩
    · exact .unloaded (h.unloaded m hm) (h.root m hm)
        ((Grown.refl sv w₀).denotes h hm) (h.dir m hm) (h.empty m hm)
    · rintro n ⟨id, m', hm', -⟩
      rw [MemeBoard.store_empty] at hm'
      cases hm'

/-- The boards of which a call asks nothing are held on. -/
lemma board_elsewhere (h : sv.Kept lib w₀ calls w) (hready : sv.Ready w₀) (hgrown : sv.Grown w₀ w')
    (hgrows : w.fs.GrowsBelow R w'.fs) (hm : m ∈ sv.memes) (hapart : FileSystem.Apart R m.path)
    (hmodules : (w'.memeModules m.factory).lookup m.root =
      (w.memeModules m.factory).lookup m.root) (hc : c.seen? m = none) :
    ∃ es b, es.map MemeBoard.Exchange.seen = seenAt m (calls ++ [c]) ∧
      Run (MemeBoard.Serves lib.float lib.tree m.location) .empty es b ∧ m.Holds lib w' b ∧
      b.memes.length ≤ (calls ++ [c]).length ∧
      ∀ n, b.store.Names n → n ∈ (calls ++ [c]).filterMap ServiceCall.drawn := by
  obtain ⟨es, b, hseen, hrun, hholds, hlength, hnames⟩ := h.boards m hm
  refine ⟨es, b, ?_, hrun, hholds.elsewhere hgrows hapart (hgrown.denotes hready hm) hmodules,
    ?_, ?_⟩
  · rw [seenAt_concat, hc]
    simpa using hseen
  · rw [List.length_append]
    exact hlength.trans (Nat.le_add_right _ _)
  · intro n hn
    rw [List.filterMap_append]
    exact List.mem_append_left _ (hnames n hn)

variable (h : sv.Kept lib w₀ calls w) (hready : sv.Ready w₀) {req : Request} {chance : Chance}
  {response : Response} (hreply : d.handleRequest lib chance req {} w = .ok (response, w'))

include h hready hreply

/-- A request for an entity leaves all boards as they are. -/
lemma entity {location root : Str} {op : StoreOp} (hmatch : d.match_ req.target = some location)
    (hlocation : d.HandlesAt .crud location root) (hroot : (root, R) ∈ sv.entities)
    (hdir : PlainName op.dir) (hreq : op.RequestedBy req) (hfaults : chance.faults = {}) :
    sv.Kept lib w₀ (calls ++ [⟨req, .entity R op, chance, response⟩]) w' := by
  obtain ⟨hstores, hgrows, hmodules⟩ :=
    h.toStoresKept.entity hreply hmatch hlocation hroot hdir hreq hfaults
  refine ⟨hstores, fun m hm => ?_⟩
  exact h.board_elsewhere hready hstores.grown hgrows hm (sv.apart _ hroot m hm) (by rw [hmodules])
    rfl

/-- A request to a location of memes goes to its board. -/
lemma board (hfloat : lib.float.Reads) (htree : ¬ Meme.Parses lib.tree [])
    (hmatch : d.match_ req.target = some m.location) (hlocation : d.MemesAt m) (hm : m ∈ sv.memes)
    (hmeme : chance.meme.faults = {})
    (hdrawn : Drawn (calls ++ [⟨req, .memes m, chance, response⟩])) :
    sv.Kept lib w₀ (calls ++ [⟨req, .memes m, chance, response⟩]) w' := by
  obtain ⟨es, b, hseen, hrun, hholds, hlength, hnames⟩ := h.boards m hm
  have hlt := hdrawn.length_lt
  rw [List.length_append, List.length_singleton] at hlt
  have hname : req.method = .post → req.target = m.location ++ "/comment".toList →
      PlainName chance.meme.uuid ∧ ¬ b.store.Names chance.meme.uuid := by
    intro hmethod htarget
    obtain ⟨hplain, hnew⟩ := hdrawn.last (if_pos ⟨hmethod, htarget⟩)
    exact ⟨hplain, fun hname => hnew (hnames _ hname)⟩
  obtain ⟨status, answer, b', hserves, rfl, hholds', hgrows, hmodules⟩ :=
    handleRequest_memesAt hmatch hlocation hholds hfloat htree hmeme hname
      ((Nat.add_le_add_right hlength 1).trans_lt hlt) hreply
  obtain ⟨hcount, hnames'⟩ :=
    hserves.bounds (hlength.trans_lt ((Nat.le_succ _).trans_lt hlt))
  have hstores := h.toStoresKept.memes (c := ⟨req, .memes m, chance, answer.overwritten status⟩)
    hm hgrows fun _ => rfl
  refine ⟨hstores, ?_⟩
  intro m' hm'
  by_cases hsame : m = m'
  · subst hsame
    refine ⟨es ++ [⟨req, chance.meme, status, answer⟩], b', ?_,
      hrun.append (.cons hserves (.nil _)), hholds', ?_, ?_⟩
    · have hlast : ServiceCall.seen? m
          ⟨req, .memes m, chance, answer.overwritten status⟩ =
            some (req, chance.meme, answer.overwritten status) := if_pos rfl
      rw [List.map_append, hseen, seenAt_concat, hlast]
      rfl
    · rw [List.length_append, List.length_singleton]
      exact hcount.trans (Nat.add_le_add_right hlength 1)
    · intro n hn
      rw [List.filterMap_append, List.mem_append]
      rcases hnames' n hn with hn | hn
      · exact Or.inl (hnames n hn)
      · exact Or.inr (List.mem_filterMap.mpr ⟨_, List.mem_singleton_self _, hn⟩)
  · have hapart := (sv.memes_apart m hm m' hm').resolve_left hsame
    refine h.board_elsewhere hready hstores.grown hgrows hm' hapart (hmodules _ _ fun hmodule => ?_)
      (if_neg hsame)
    exact hsame (hready.eq_of_module hm hm' hmodule)

omit hready in
/-- A request that changes nothing goes to no service. -/
lemma nothing (hreads : d.ReadOnlyAt req) :
    sv.Kept lib w₀ (calls ++ [⟨req, .nothing, chance, response⟩]) w' := by
  have hsame := handleRequest_readOnlyAt hreads hreply
  refine ⟨h.toStoresKept.nothing hsame, ?_⟩
  intro m hm
  obtain ⟨es, b, hseen, hrun, hholds, hlength, hnames⟩ := h.boards m hm
  refine ⟨es, b, ?_, hrun, hholds.sameButIds hsame, ?_, ?_⟩
  · rw [seenAt_concat]
    exact hseen.trans (List.append_nil (seenAt m calls)).symm
  · rw [List.length_append]
    exact hlength.trans (Nat.le_add_right _ _)
  · intro n hn
    rw [List.filterMap_append]
    exact List.mem_append_left _ (hnames n hn)

end Services.Kept

/-! ### Runs -/

lemma Services.Ready.run (hready : sv.Ready w₀) (hfloat : lib.float.Reads)
    (htree : ¬ Meme.Parses lib.tree []) (hdrawn : Drawn calls)
    (hrun : Run (ServiceCall.Answered lib d sv) w₀ calls w) : sv.Kept lib w₀ calls w := by
  refine hrun.induction_on_last (P := fun calls w => Drawn calls → sv.Kept lib w₀ calls w) ?_ ?_
    hdrawn
  · exact fun _ => .start hready
  · rintro calls ⟨req, want, chance, response⟩ t t' - ih ⟨hasks, hfaults, hmeme, hreply⟩ hdrawn
    have h := ih hdrawn.of_append
    cases hasks with
    | entity hmatch hlocation hroot hdir hreq =>
      exact h.entity hready hreply hmatch hlocation hroot hdir hreq hfaults
    | memes hmatch hlocation hm =>
      exact h.board hready hreply hfloat htree hmatch hlocation hm hmeme hdrawn
    | nothing hreads => exact h.nothing hreply hreads

lemma Services.Kept.independent (h : sv.Kept lib w₀ calls w) : sv.Independent lib w₀ calls w where
  stores := h.stores
  boards m hm := by
    obtain ⟨es, b, hseen, hrun, -⟩ := h.boards m hm
    exact ⟨es, b, hseen, hrun⟩
  elsewhere := h.grown.node_eq

/-- Whatever the order of the requests to all the locations, every store of entities and every board
of memes goes on as if it were alone, and nothing else is written. -/
theorem dispatcher_refines_services (hready : sv.Ready w₀) (hfloat : lib.float.Reads)
    (htree : ¬ Meme.Parses lib.tree []) (hdrawn : Drawn calls)
    (hrun : Run (ServiceCall.Answered lib d sv) w₀ calls w) : sv.Independent lib w₀ calls w :=
  (hready.run hfloat htree hdrawn hrun).independent

/-! ### A store, a board and a file -/

/-- A configuration with a location of entities, one of memes and one for a file. -/
def sampleLocations : NginxConfig :=
  .mk [.mk ["location".toList, "/e".toList, "CrudHandler".toList]
      (some (.mk [.mk ["root".toList, ['r']] none])),
    .mk ["location".toList, "/m".toList, "MemeHandler".toList]
      (some (.mk [.mk ["root".toList, ['m']] none])),
    .mk ["location".toList, "/f".toList, "StaticHandler".toList]
      (some (.mk [.mk ["root".toList, "f.txt".toList] none]))]

def wholeLibrary : Library CInt := ⟨fun _ => [], wholeFloat, sampleTree⟩

lemma not_parses_wholeLibrary : ¬ Meme.Parses wholeLibrary.tree [] := by
  rintro ⟨three, hthree⟩
  cases hthree

/-- A disk with the directories `r` and `m`, and a file. -/
def sampleRoots : FileSystem :=
  ⟨(emptyDisk.fs.tree.insert [['m']] .dir (by simp) (by decide) fun _ => rfl).insert
    ["f.txt".toList] (.file ['x']) (by simp) (by decide) (by decide), []⟩

def sampleWorld : World CInt := startedOn CInt sampleRoots

def sampleSite : MemeSite := ⟨"/m".toList, ⟨.meme, 1⟩, ['m'], [['m']]⟩

def sampleServices : Services where
  entities := {(['r'], [['r']])}
  memes := {sampleSite}
  entities_apart := by
    rintro s rfl s' rfl
    exact Or.inl rfl
  memes_apart := by
    rintro m rfl m' rfl
    exact Or.inl rfl
  apart := by
    rintro s rfl m rfl
    exact ⟨by decide, by decide⟩

lemma node_sampleRoots {p : List Str} (h : 1 < p.length) : sampleRoots.tree.node p = none := by
  have hne : ∀ n : Str, p ≠ [n] := by
    rintro n rfl
    simp at h
  unfold sampleRoots
  rw [FileTree.node_insert_ne _ _ _ _ _ (hne _), FileTree.node_insert_ne _ _ _ _ _ (hne _)]
  exact node_emptyDisk h

lemma ready_sampleServices : sampleServices.Ready sampleWorld where
  entities := by
    have hnode : ∀ {p : List Str}, 1 < p.length → sampleWorld.fs.tree.node p = none :=
      node_sampleRoots
    rintro s rfl
    refine ⟨⟨⟨rfl, rfl⟩, ?_, ?_⟩, ?_⟩
    · intro d x hx
      rw [hnode (by simp)] at hx
      cases hx
    · intro d name x hx
      rw [hnode (by simp)] at hx
      cases hx
    · rintro d - ⟨content, hcontent⟩
      rw [hnode (by simp)] at hcontent
      cases hcontent
  root := by
    rintro m rfl
    decide
  resolve := by
    rintro m rfl
    rfl
  dir := by
    rintro m rfl
    rfl
  empty := by
    rintro m rfl
    rfl
  unloaded := by
    rintro m rfl
    rfl

/-- The memes are listed, an entity is put, and the entities of its directory are listed. -/
def sampleCalls (response response' response'' : Response) : List ServiceCall :=
  [⟨⟨.get, "/m/all".toList, [], []⟩, .memes sampleSite, {}, response⟩,
    ⟨⟨.put, "/e/d/1".toList, ['x'], []⟩, .entity [['r']] (.put ['d'] 1 ['x']), {}, response'⟩,
    ⟨⟨.get, "/e/d".toList, [], []⟩, .nothing, {}, response''⟩]

lemma drawn_sampleCalls (response response' response'' : Response) :
    Drawn (sampleCalls response response' response'') := by
  refine ⟨?_, List.nodup_nil, by simp [sampleCalls]⟩
  intro n hn
  cases hn

lemma exists_run_sampleCalls : ∃ d response response' response'' w,
    sampleLocations.dispatcher = some d ∧
    Run (ServiceCall.Answered wholeLibrary d sampleServices) sampleWorld
      (sampleCalls response response' response'') w ∧
    d.match_ "/f".toList = some "/f".toList ∧
    d.HandlesAt .static "/f".toList "f.txt".toList := by
  have hcalls : ∃ d response response' response'' w w' w'', sampleLocations.dispatcher = some d ∧
      d.HandlesAt .crud "/e".toList ['r'] ∧ d.MemesAt sampleSite ∧
      d.HandlesAt .static "/f".toList "f.txt".toList ∧
      d.match_ "/m/all".toList = some "/m".toList ∧
      d.match_ "/e/d/1".toList = some "/e".toList ∧
      d.match_ "/e/d".toList = some "/e".toList ∧ d.match_ "/f".toList = some "/f".toList ∧
      d.handleRequest wholeLibrary {} ⟨.get, "/m/all".toList, [], []⟩ {} sampleWorld =
        .ok (response, w) ∧
      d.handleRequest wholeLibrary {} ⟨.put, "/e/d/1".toList, ['x'], []⟩ {} w =
        .ok (response', w') ∧
      d.handleRequest wholeLibrary {} ⟨.get, "/e/d".toList, [], []⟩ {} w' =
        .ok (response'', w'') :=
    ⟨_, _, _, _, _, _, _, rfl, ⟨⟨_, rfl, rfl⟩, ⟨_, rfl, rfl⟩⟩, ⟨rfl, rfl, ⟨_, rfl, rfl⟩⟩,
      ⟨⟨_, rfl, rfl⟩, ⟨_, rfl, rfl⟩⟩, rfl, rfl, rfl, rfl, rfl, rfl, rfl⟩
  obtain ⟨d, response, response', response'', w, w', w'', hd, hcrud, hmemes, hstatic, hm, he, hdir,
    hf, hall, hput, hlist⟩ := hcalls
  have hreads : d.ReadOnlyAt ⟨.get, "/e/d".toList, [], []⟩ := by
    intro location hmatch
    obtain ⟨f, hlookup, htype⟩ := hcrud.factory
    obtain rfl : "/e".toList = location := Option.some.inj (hdir.symm.trans hmatch)
    exact ⟨f, hlookup, by simp [htype], fun _ => trivial⟩
  refine ⟨d, response, response', response'', w'', hd, ?_, hf, hstatic⟩
  exact .cons ⟨.memes hm hmemes rfl, rfl, rfl, hall⟩
    (.cons ⟨.entity he hcrud rfl (by decide) ⟨"/e".toList, rfl, rfl, rfl⟩, rfl, rfl, hput⟩
      (.cons ⟨.nothing hreads, rfl, rfl, hlist⟩ (.nil w'')))

theorem dispatcher_refines_services_sampleCalls : ∃ d response response' response'' w,
    sampleLocations.dispatcher = some d ∧
    Run (ServiceCall.Answered wholeLibrary d sampleServices) sampleWorld
      (sampleCalls response response' response'') w ∧
    sampleServices.Independent wholeLibrary sampleWorld
      (sampleCalls response response' response'') w := by
  obtain ⟨d, response, response', response'', w, hd, hrun, -⟩ := exists_run_sampleCalls
  exact ⟨d, response, response', response'', w, hd, hrun,
    dispatcher_refines_services ready_sampleServices wholeFloat_reads not_parses_wholeLibrary
      (drawn_sampleCalls response response' response'') hrun⟩

/-! ### Files -/

/-- A file that no service can write is served as at first, whatever the requests before. -/
theorem dispatcher_serves_files (hready : sv.Ready w₀) (hfloat : lib.float.Reads)
    (htree : ¬ Meme.Parses lib.tree []) (hdrawn : Drawn calls)
    (hrun : Run (ServiceCall.Answered lib d sv) w₀ calls w) {req : Request} {location root : Str}
    (hmatch : d.match_ req.target = some location)
    (hlocation : d.HandlesAt .static location root) {q : List Str}
    (hname : w₀.fs.resolve (root ++ req.target.drop location.length) = some q)
    (hq : ∀ R, sv.IsPath R → ¬ R <+: q) (chance : Chance) :
    d.handleRequest lib chance req {} w =
      (d.handleRequest lib chance req {} w₀).map fun answer => (answer.1, w) := by
  have hgrown := (hready.run hfloat htree hdrawn hrun).grown
  have hread : w.fs.openRead (root ++ req.target.drop location.length) =
      w₀.fs.openRead (root ++ req.target.drop location.length) := by
    rw [FileSystem.openRead, FileSystem.openRead, hname,
      FileSystem.resolve_mono hgrown.cwd_eq hgrown.isDir hname]
    simp only [hgrown.node_eq q hq]
  rw [handleRequest_staticAt hmatch hlocation, handleRequest_staticAt hmatch hlocation,
    StaticHandler.handleRequest, StaticHandler.handleRequest, hread]
  cases w₀.fs.openRead (root ++ req.target.drop location.length) with
  | closed => rfl
  | _ => cases MIME.getMimeType (root ++ req.target.drop location.length) <;> rfl

/-- Behind the calls the file is asked for. -/
theorem dispatcher_serves_files_sampleCalls : ∃ d response response' response'' w,
    sampleLocations.dispatcher = some d ∧
    Run (ServiceCall.Answered wholeLibrary d sampleServices) sampleWorld
      (sampleCalls response response' response'') w ∧
    d.handleRequest wholeLibrary {} ⟨.get, "/f".toList, [], []⟩ {} w =
      (d.handleRequest wholeLibrary {} ⟨.get, "/f".toList, [], []⟩ {} sampleWorld).map
        fun answer => (answer.1, w) := by
  obtain ⟨d, response, response', response'', w, hd, hrun, hmatch, hstatic⟩ :=
    exists_run_sampleCalls
  refine ⟨d, response, response', response'', w, hd, hrun, ?_⟩
  refine dispatcher_serves_files ready_sampleServices wholeFloat_reads not_parses_wholeLibrary
    (drawn_sampleCalls response response' response'') hrun hmatch hstatic
    (show _ = some ["f.txt".toList] from rfl) ?_ {}
  rintro R (⟨s, rfl, rfl⟩ | ⟨m, rfl, rfl⟩)
  · decide
  · decide

end SocialNetworkApp
