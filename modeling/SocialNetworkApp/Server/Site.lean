import SocialNetworkApp.Config.Site
import SocialNetworkApp.Dispatch.LongestPrefix
import SocialNetworkApp.Server.Main
import SocialNetworkApp.Server.Services

/-!
# Serving a site

From the text of a configuration to what clients read: `main` makes a dispatcher that finds for
every url the longest path of the site, and the server behind it keeps a store for every root of
entities and a board for every location of memes.
-/

namespace SocialNetworkApp

open SocialNetworkApp.Core

namespace Site

variable {site : Site} {ss : List NginxConfigStatement} {d : RequestDispatcher} {l : SiteLocation}
  {input : Str} {fs : FileSystem} {listens : Nat → Bool} {program fileName : Str}

/-- The dispatcher finds the longest path that begins a url, and has the handlers and the block of
every location. -/
structure ServedBy (site : Site) (d : RequestDispatcher) : Prop where
  match_eq_some_iff : ∀ url p, d.match_ url = some p ↔ LongestPrefix site.keys url p
  factory : ∀ l ∈ site.locations, ∃ f, d.handlerFactories.lookup l.key = some f ∧ f.type = l.type
  arguments : ∀ l ∈ site.locations, d.arguments l.key = some l.block

/-- A location that keeps something below its root, and the directory that this root names. -/
structure KeepsAt (site : Site) (fs : FileSystem) (l : SiteLocation) (R : List Str) : Prop where
  mem : l ∈ site.locations
  type : l.type = .crud ∨ l.type = .meme
  root : ∃ root, l.rootArgument = some root ∧ fs.resolve root = some R

/-- A disk for the site: below the roots of entities are entities only, those of memes are empty
directories, and no root is below another one. Locations of entities may share a root. -/
structure Fits (site : Site) (fs : FileSystem) : Prop where
  entities : ∀ l ∈ site.locations, l.type = .crud → ∀ root, l.rootArgument = some root →
    ∃ R, EntityRoot R root fs
  memes : ∀ l ∈ site.locations, l.type = .meme → ∀ root, l.rootArgument = some root →
    root.getLast? ≠ some '/' ∧
      ∃ R, fs.resolve root = some R ∧ fs.tree.IsDir R ∧ fs.tree.children R = []
  apart : ∀ l l' R R', site.KeepsAt fs l R → site.KeepsAt fs l' R' →
    FileSystem.Apart R R' ∨ l = l' ∨ l.type = .crud ∧ l'.type = .crud ∧ R = R'

/-- What a request asks of the site: an operation on an entity, something of the board of a
location, or no change of what is kept. The factory of memes is that of the dispatcher. -/
inductive Asks (site : Site) (fs : FileSystem) (d : RequestDispatcher) (req : Request) : Want → Prop
  | entity {l : SiteLocation} {root : Str} {R : List Str} {op : StoreOp}
      (hl : l ∈ site.locations) (hlongest : LongestPrefix site.keys req.target l.key)
      (htype : l.type = .crud) (hroot : l.rootArgument = some root)
      (hname : fs.resolve root = some R) (hdir : PlainName op.dir) (hreq : op.RequestedBy req) :
      Asks site fs d req (.entity R op)
  | memes {l : SiteLocation} {root : Str} {R : List Str} {f : FactoryPtr}
      (hl : l ∈ site.locations) (hlongest : LongestPrefix site.keys req.target l.key)
      (htype : l.type = .meme) (hroot : l.rootArgument = some root)
      (hname : fs.resolve root = some R) (hf : d.handlerFactories.lookup l.key = some f) :
      Asks site fs d req (.memes ⟨l.key, f, root, R⟩)
  | nothing
      (h : ∀ l ∈ site.locations, LongestPrefix site.keys req.target l.key →
        l.type ≠ .meme ∧ (l.type = .crud → req.method.ReadsOnly)) : Asks site fs d req .nothing

/-- The services of the site on a disk. -/
def services (site : Site) (d : RequestDispatcher) (fs : FileSystem) (h : site.Fits fs) :
    Services where
  entities := {s | ∃ l ∈ site.locations, l.type = .crud ∧ l.rootArgument = some s.1 ∧
    fs.resolve s.1 = some s.2}
  memes := {m | ∃ l ∈ site.locations, l.type = .meme ∧ l.key = m.location ∧
    l.rootArgument = some m.root ∧ fs.resolve m.root = some m.path ∧
    d.handlerFactories.lookup m.location = some m.factory}
  entities_apart := by
    rintro s ⟨l, hl, htype, hroot, hname⟩ s' ⟨l', hl', htype', hroot', hname'⟩
    rcases h.apart l l' s.2 s'.2 ⟨hl, Or.inl htype, _, hroot, hname⟩
      ⟨hl', Or.inl htype', _, hroot', hname'⟩ with hapart | rfl | ⟨-, -, hsame⟩
    · exact Or.inr hapart
    · rw [hroot, Option.some_inj] at hroot'
      rw [← hroot', hname, Option.some_inj] at hname'
      exact Or.inl hname'
    · exact Or.inl hsame
  memes_apart := by
    rintro ⟨location, f, root, R⟩ ⟨l, hl, htype, hkey, hroot, hname, hf⟩
      ⟨location', f', root', R'⟩ ⟨l', hl', htype', hkey', hroot', hname', hf'⟩
    rcases h.apart l l' R R' ⟨hl, Or.inr htype, _, hroot, hname⟩
      ⟨hl', Or.inr htype', _, hroot', hname'⟩ with hapart | rfl | ⟨hcrud, -⟩
    · exact Or.inr hapart
    · obtain rfl : location = location' := hkey.symm.trans hkey'
      obtain rfl : root = root' := Option.some.inj (hroot.symm.trans hroot')
      obtain rfl : R = R' := Option.some.inj (hname.symm.trans hname')
      obtain rfl : f = f' := Option.some.inj (hf.symm.trans hf')
      exact Or.inl rfl
    · rw [htype] at hcrud
      cases hcrud
  apart := by
    rintro s ⟨l, hl, htype, hroot, hname⟩ m ⟨l', hl', htype', -, hroot', hname', -⟩
    rcases h.apart l l' s.2 m.path ⟨hl, Or.inl htype, _, hroot, hname⟩
      ⟨hl', Or.inr htype', _, hroot', hname'⟩ with hapart | rfl | ⟨-, hcrud, -⟩
    · exact hapart
    · rw [htype] at htype'
      cases htype'
    · rw [htype'] at hcrud
      cases hcrud

/-- A run of the server from the start of the process, in which no call of the file system fails and
clients ask for what the site has. -/
structure Ran {F : Type} (site : Site) (d : RequestDispatcher) (lib : Library F) (fs : FileSystem)
    (parseRequest : Str → Option Request) (serialize : Response → Str) (chances : Nat → Chance)
    (want : Request → Want) (es : List Event) (srv : Server (Shared F)) : Prop where
  runs : Server.Runs (d.environment lib parseRequest serialize) ⟨startedOn F fs, chances⟩ es srv
  running : srv.terminated = none
  faults : ∀ n, (chances n).faults = {} ∧ (chances n).meme.faults = {}
  asks : ∀ x ∈ srv.log, site.Asks fs d x.request (want x.request)
  drawn : Drawn (callsOf want chances srv.log)

/-! ### The dispatcher of a site -/

lemma mem_keys_iff (hss : ss.Perm site.statements) {ls : List LocationStatement}
    (h : (NginxConfig.mk ss).locationStatements = some ls) {factories : Table Str FactoryPtr}
    (hfactories : (NginxConfig.mk ss).getFactories = some factories) (k : Str) :
    k ∈ factories.keys ↔ k ∈ site.keys := by
  rw [AList.mem_keys.symm, ← AList.lookup_isSome, Option.isSome_iff_exists, keys, List.mem_map]
  constructor
  · rintro ⟨f, hf⟩
    obtain ⟨x, hx, rfl, -⟩ := factory_of_lookup h hfactories hf
    obtain ⟨l, hl, hkey, -⟩ := location_of_mem hss h hx
    exact ⟨l, hl, hkey.symm⟩
  · rintro ⟨l, hl, rfl⟩
    obtain ⟨x, hx, hkey, hfactory⟩ := exists_mem_of_location hss h hl
    obtain rfl : Table.writeAll LocationStatement.key LocationStatement.factory ∅ ls =
        factories := by
      simpa [NginxConfig.getFactories, h] using hfactories
    exact Table.lookup_writeAll_empty_isSome.mpr ⟨x, hx, hkey, _, hfactory⟩

lemma servedBy_of_dispatcher (hss : ss.Perm site.statements)
    (hd : (NginxConfig.mk ss).dispatcher = some d) : site.ServedBy d := by
  obtain ⟨ls, h, -⟩ := Option.map_eq_some_iff.mp (NginxConfig.tables_of_dispatcher hd).1
  obtain ⟨arguments, factories, harguments, hfactories, hd', -⟩ := NginxConfig.exists_tables h
  obtain rfl : d = ⟨factories, arguments, .mk ss⟩ := Option.some.inj (hd.symm.trans hd')
  have hkeys := mem_keys_iff hss h hfactories
  have hfound : ∀ l ∈ site.locations, ∃ f, factories.lookup l.key = some f := by
    intro l hl
    exact Option.isSome_iff_exists.mp
      (AList.lookup_isSome.mpr ((hkeys l.key).mpr (List.mem_map_of_mem hl)))
  refine ⟨?_, ?_, ?_⟩
  · intro url p
    have hshort : ∀ key ∈ factories.keys, key.length < 2147483648 := by
      intro key hkey
      obtain ⟨l, hl, rfl⟩ := List.mem_map.mp ((hkeys key).mp hkey)
      exact site.key_length_lt l hl
    have hlengths : RequestDispatcher.LengthsKept ⟨factories, arguments, .mk ss⟩ url := by
      intro p key hp hkey hurl hkp
      have hlt := hp.longer key hkey hurl hkp
      rw [RequestDispatcher.storedLength_of_lt (hshort key hkey),
        RequestDispatcher.storedLength_of_lt (hshort p hp.mem)]
      exact ⟨hlt.le, hlt⟩
    rw [hlengths.longestMatch.found]
    constructor
    · rintro ⟨hmem, hbegins, hlonger⟩
      exact ⟨(hkeys p).mp hmem, hbegins, fun key hkey => hlonger key ((hkeys key).mpr hkey)⟩
    · rintro ⟨hmem, hbegins, hlonger⟩
      exact ⟨(hkeys p).mpr hmem, hbegins, fun key hkey => hlonger key ((hkeys key).mp hkey)⟩
  · intro l hl
    obtain ⟨f, hf⟩ := hfound l hl
    obtain ⟨x, hx, hkey, hfactory⟩ := factory_of_lookup h hfactories hf
    obtain ⟨l', hl', hkey', hfactory', -⟩ := location_of_mem hss h hx
    obtain rfl := location_of_key_eq hl hl' (hkey.symm.trans hkey')
    rw [hfactory] at hfactory'
    exact ⟨f, hf, by rw [Option.some.inj hfactory']⟩
  · intro l hl
    obtain ⟨f, hf⟩ := hfound l hl
    obtain ⟨place, hplace, -⟩ := lookup_getArguments_of_getFactories harguments hfactories hf
    rw [RequestDispatcher.arguments, hplace]
    rw [lookup_getArguments h harguments, Option.map_eq_some_iff] at hplace
    obtain ⟨x, hx, rfl⟩ := hplace
    obtain ⟨hmem, hkey⟩ := List.mem_filter.mp (List.mem_of_getLast? hx)
    obtain ⟨l', hl', hkey', -, hblock⟩ := location_of_mem hss h hmem
    obtain rfl := location_of_key_eq hl hl' ((of_decide_eq_true hkey).symm.trans hkey')
    exact hblock

/-! ### Starting up -/

/-- `main` serves the site whose configuration it reads. -/
lemma exists_serving (hspelled : site.SpelledBy input)
    (hread : fs.openRead fileName = .contents input) (hlistens : listens site.port = true) :
    ∃ d, ServerMain.main fs listens [program, fileName] = .serving site.port d ∧
      site.ServedBy d := by
  obtain ⟨ss, hparse, hss⟩ := hspelled
  obtain ⟨d, hd, -⟩ := dispatcher_of_parse hparse
  have hserved := servedBy_of_dispatcher hss hd
  have hreads : ServerMain.Reads fs [program, fileName] (.mk ss) := by
    refine ⟨program, fileName, rfl, ?_⟩
    rw [parseFile, hread]
    exact hparse
  have hport : (NginxConfig.mk ss).AtPort site.port := by
    refine ⟨_, ports_eq hss, ?_, site.port_le⟩
    rw [leadingInt_digits Nat.toDigits_ne_nil fun c hc => isDigit_of_mem_toDigits hc,
      Nat.ofDigitChars_ten_toDigits]
  have hlocations : (NginxConfig.mk ss).locationStatements ≠ some [] := by
    intro hnil
    obtain ⟨l, hl⟩ := List.exists_mem_of_ne_nil _ site.locations_ne_nil
    obtain ⟨x, hx, -⟩ := exists_mem_of_location hss hnil hl
    cases hx
  exact ⟨d, (ServerMain.Ends.serving hreads hport hlocations hlistens hd).main_eq, hserved⟩

/-! ### What is asked of a site -/

lemma rootArgument_block (l : SiteLocation) : l.block.rootArgument = l.rootArgument := by
  rw [SiteLocation.block, SiteLocation.rootArgument]
  cases l.root with
  | none => rfl
  | some root =>
    change (if "root".toList = "root".toList then _ else none) = _
    exact if_pos rfl

lemma ServedBy.asks (h : site.ServedBy d) (hfits : site.Fits fs) {req : Request} {want : Want}
    (hasks : site.Asks fs d req want) : d.Asks (site.services d fs hfits) req want := by
  cases hasks with
  | @entity l root R op hl hlongest htype hroot hname hdir hreq =>
    obtain ⟨f, hf, hftype⟩ := h.factory l hl
    exact .entity ((h.match_eq_some_iff _ _).mpr hlongest)
      ⟨⟨f, hf, hftype.trans htype⟩, l.block, h.arguments l hl,
        (rootArgument_block l).trans hroot⟩ ⟨l, hl, htype, hroot, hname⟩ hdir hreq
  | @memes l root R f hl hlongest htype hroot hname hf =>
    obtain ⟨f', hf', hftype⟩ := h.factory l hl
    obtain rfl : f = f' := Option.some.inj (hf.symm.trans hf')
    exact .memes ((h.match_eq_some_iff _ _).mpr hlongest)
      ⟨hf, hftype.trans htype, l.block, h.arguments l hl, (rootArgument_block l).trans hroot⟩
      ⟨l, hl, htype, rfl, hroot, hname, hf⟩
  | nothing hnothing =>
    refine .nothing fun location hmatch => ?_
    have hlongest := (h.match_eq_some_iff _ _).mp hmatch
    obtain ⟨l, hl, rfl⟩ := List.mem_map.mp hlongest.mem
    obtain ⟨f, hf, hftype⟩ := h.factory l hl
    obtain ⟨hmeme, hmethod⟩ := hnothing l hl hlongest
    exact ⟨f, hf, by rwa [hftype], by rwa [hftype]⟩

lemma ready_startedOn {F : Type} (hfits : site.Fits fs) :
    (site.services d fs hfits).Ready (startedOn F fs) where
  entities := by
    rintro s ⟨l, hl, htype, hroot, hname⟩
    obtain ⟨R, hR⟩ := hfits.entities l hl htype s.1 hroot
    rwa [show s.2 = R from Option.some.inj (hname.symm.trans hR.rootAt.resolve_eq)]
  root := by
    rintro m ⟨l, hl, htype, -, hroot, -⟩
    exact (hfits.memes l hl htype m.root hroot).1
  resolve := by
    rintro m ⟨l, hl, htype, -, hroot, hname, -⟩
    exact hname
  dir := by
    rintro m ⟨l, hl, htype, -, hroot, hname, -⟩
    obtain ⟨-, R, hR, hdir, -⟩ := hfits.memes l hl htype m.root hroot
    rwa [show m.path = R from Option.some.inj (hname.symm.trans hR)]
  empty := by
    rintro m ⟨l, hl, htype, -, hroot, hname, -⟩
    obtain ⟨-, R, hR, -, hempty⟩ := hfits.memes l hl htype m.root hroot
    rwa [show m.path = R from Option.some.inj (hname.symm.trans hR)]
  unloaded _ _ := rfl

/-! ### From the configuration to the clients -/

/-- `main` serves the site whose configuration it reads. Behind its server, in a run in which all
requests ask for what the site has, every store and every board of the site goes on as if it were
alone; and a client that has sent a complete request, in any pieces between those of others, has been
written the response that the log holds for it. -/
theorem main_serves_site (hspelled : site.SpelledBy input)
    (hread : fs.openRead fileName = .contents input) (hlistens : listens site.port = true) :
    ∃ d, ServerMain.main fs listens [program, fileName] = .serving site.port d ∧
      site.ServedBy d ∧
      ∀ (F : Type) (lib : Library F) (parseRequest : Str → Option Request)
        (serialize : Response → Str) (chances : Nat → Chance) (want : Request → Want)
        (es : List Event) (srv : Server (Shared F)) (hfits : site.Fits fs),
        lib.float.Reads → ¬ Meme.Parses lib.tree [] →
        site.Ran d lib fs parseRequest serialize chances want es srv →
        (site.services d fs hfits).Independent lib (startedOn F fs)
            (callsOf want chances srv.log) srv.world.world ∧
          ∀ (i : Nat) (s : Session (Shared F)) (r : WireRequest) (request : Request) (ip : Str)
            (chunks : List Chunk), srv.session? i = some s → r.Agreed →
            parseRequest r.text = some request → Server.readsOf i es = chunks.map (deliver ip) →
            WireRequest.IsCut chunks r.text →
            ∃ x, transactionsOf i srv.log = [x] ∧
              x.request = { request with body := Session.terminated request.body } ∧
              s.written = [serialize x.response] := by
  obtain ⟨d, hmain, hserved⟩ := exists_serving hspelled hread hlistens
  refine ⟨d, hmain, hserved, ?_⟩
  intro F lib parseRequest serialize chances want es srv hfits hfloat htree h
  constructor
  · exact Server.independent_of_runs h.runs h.running (ready_startedOn hfits) hfloat htree h.faults
      (fun x hx => hserved.asks hfits (h.asks x hx)) h.drawn
  · intro i s r request ip chunks hs hagreed hrequest hreads hcut
    have hdispatched := Server.delivered_of_runs h.runs hs hagreed hrequest hreads hcut
    obtain ⟨x, before, after, w₁, w₂, hlog, hx, hwritten, -⟩ :=
      Server.served_of_dispatched h.runs h.running hs hdispatched
    exact ⟨x, hlog, hx, hwritten⟩

/-- A site with a single location, which is itself the directory of an entity. -/
def directorySite : Site where
  port := 80
  locations := [⟨"/a".toList, .crud, some ['r']⟩]
  port_le := by decide
  locations_ne_nil := by decide
  nodup := by decide
  key_length_lt := by
    rintro l (_ | ⟨_, ⟨⟩⟩)
    decide
  path_text := by
    rintro l (_ | ⟨_, ⟨⟩⟩)
    exact tokenText_of_all (by decide) (by decide)
  root_text := by
    rintro l (_ | ⟨_, ⟨⟩⟩) root hroot
    rw [← Option.some.inj hroot]
    exact tokenText_of_all (by decide) (by decide)

/-- A disk with the root of the location and the configuration. -/
def directoryDisk : FileSystem :=
  ⟨emptyDisk.fs.tree.insert [['c']] (.file (NginxConfig.toStr 0 (.mk directorySite.statements)))
    (by simp) (by decide) (by decide), []⟩

lemma node_directoryDisk {p : List Str} (h : 1 < p.length) : directoryDisk.tree.node p = none := by
  have hne : p ≠ [['c']] := by
    rintro rfl
    simp at h
  rw [directoryDisk, FileTree.node_insert_ne _ _ _ _ _ hne]
  exact node_emptyDisk h

lemma fits_directorySite : directorySite.Fits directoryDisk where
  entities := by
    rintro l (_ | ⟨_, ⟨⟩⟩) - root hroot
    obtain rfl : ['r'] = root := Option.some.inj hroot
    refine ⟨[['r']], ⟨⟨⟨rfl, rfl⟩, ?_, ?_⟩, ?_⟩⟩
    · intro d x hx
      rw [node_directoryDisk (by simp)] at hx
      cases hx
    · intro d name x hx
      rw [node_directoryDisk (by simp)] at hx
      cases hx
    · rintro d - ⟨content, hcontent⟩
      rw [node_directoryDisk (by simp)] at hcontent
      cases hcontent
  memes := by
    rintro l (_ | ⟨_, ⟨⟩⟩) htype
    cases htype
  apart := by
    rintro l l' R R' ⟨hl, -, -⟩ ⟨hl', -, -⟩
    exact Or.inr (Or.inl ((List.mem_singleton.mp hl).trans (List.mem_singleton.mp hl').symm))

/-- The requests of the clients make entities. -/
def wantsEntity (req : Request) : Want := .entity [['r']] (.post ['a'] req.body)

/-- The request of a client, as the session passes it on. -/
def postedByte : Request :=
  ⟨.post, "/a".toList, "x\r\n\r\n".toList, [("Content-Length".toList, ['1'])]⟩

lemma drawn_wantsEntity {log : List Transaction} (h : log.length < 2 ^ 31) :
    Drawn (callsOf wantsEntity (fun _ => {}) log) := by
  have hdrawn : (callsOf wantsEntity (fun _ => {}) log).filterMap ServiceCall.drawn = [] := by
    refine List.filterMap_eq_nil_iff.mpr fun call hcall => ?_
    obtain ⟨n, hn, rfl⟩ := List.mem_mapIdx.mp hcall
    rfl
  refine ⟨by simp [hdrawn], by simp [hdrawn], ?_⟩
  rw [callsOf, List.length_mapIdx]
  exact h

lemma exists_runs_threeClients : ∃ d srv s,
    ServerMain.start (fun _ => true) (.mk directorySite.statements) = .serving 80 d ∧
    d.match_ "/a".toList = some "/a".toList ∧
    Server.Runs (d.environment wholeLibrary Server.counter.parseRequest Response.body)
      ⟨startedOn CInt directoryDisk, fun _ => {}⟩ Server.threeClients srv ∧
    srv.terminated = none ∧ srv.session? 0 = some s ∧
    srv.log.map Transaction.connection = [1, 0] ∧
    srv.log.map Transaction.request = [postedByte, postedByte] :=
  ⟨_, _, _, rfl, rfl, .cons rfl (.cons rfl (.cons rfl (.cons rfl (.cons rfl (.cons rfl (.cons rfl
    (.cons rfl (.nil _)))))))), rfl, rfl, rfl, rfl⟩

/-- The site is started, and two of three clients make an entity. -/
theorem main_serves_site_threeClients : ∃ d srv s,
    ServerMain.main directoryDisk (fun _ => true) [['s'], ['c']] = .serving 80 d ∧
    Server.Runs (d.environment wholeLibrary Server.counter.parseRequest Response.body)
      ⟨startedOn CInt directoryDisk, fun _ => {}⟩ Server.threeClients srv ∧
    srv.session? 0 = some s ∧ srv.log.map Transaction.connection = [1, 0] ∧
    (directorySite.services d directoryDisk fits_directorySite).Independent wholeLibrary
      (startedOn CInt directoryDisk) (callsOf wantsEntity (fun _ => {}) srv.log) srv.world.world ∧
    ∃ x, transactionsOf 0 srv.log = [x] ∧ x.request = postedByte ∧
      s.written = [x.response.body] := by
  obtain ⟨d, hmain, hserved, hserves⟩ := @main_serves_site directorySite _ directoryDisk
    (fun _ => true) ['s'] ['c'] (spelledBy_toStr (.refl _) 0) rfl rfl
  obtain ⟨d', srv, s, hstart, hmatch, hrun, hrunning, hs, hconnections, hlog⟩ :=
    exists_runs_threeClients
  have hreads : ServerMain.Reads directoryDisk [['s'], ['c']] (.mk directorySite.statements) :=
    ⟨_, _, rfl, parse_toStr_of_perm (.refl _) 0⟩
  obtain rfl : d = d' := by
    have heq := hmain.symm.trans ((ServerMain.main_of_reads hreads).trans hstart)
    cases heq
    rfl
  have hran : directorySite.Ran d wholeLibrary directoryDisk Server.counter.parseRequest
      Response.body (fun _ => {}) wantsEntity Server.threeClients srv := by
    have hlength : srv.log.length = 2 := by simpa using congrArg List.length hlog
    refine ⟨hrun, hrunning, fun _ => ⟨rfl, rfl⟩, ?_, drawn_wantsEntity (by rw [hlength]; decide)⟩
    intro x hx
    have hrequest : x.request = postedByte := by
      have hmem : x.request ∈ srv.log.map Transaction.request := List.mem_map_of_mem hx
      rw [hlog] at hmem
      simpa using hmem
    rw [hrequest]
    exact .entity (List.mem_singleton_self _) ((hserved.match_eq_some_iff _ _).mp hmatch) rfl rfl
      rfl (by decide) ⟨[], rfl, rfl, rfl⟩
  have hagreed : WireRequest.spelledByte.Agreed :=
    Or.inr ⟨Or.inl rfl, ⟨_, List.mem_singleton_self _, rfl⟩, by decide⟩
  have hrequest : Server.counter.parseRequest WireRequest.spelledByte.text =
      some ⟨.post, "/a".toList, ['x'], [("Content-Length".toList, ['1'])]⟩ := rfl
  have hcut : WireRequest.IsCut Server.halves WireRequest.spelledByte.text :=
    ⟨by decide, by decide⟩
  obtain ⟨hindependent, hclients⟩ := hserves CInt wholeLibrary _ _ _ _ _ _ fits_directorySite
    wholeFloat_reads not_parses_wholeLibrary hran
  exact ⟨d, srv, s, hmain, hrun, hs, hconnections, hindependent,
    hclients 0 s _ _ [] Server.halves hs hagreed hrequest rfl hcut⟩

end Site

end SocialNetworkApp
