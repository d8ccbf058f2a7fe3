import SocialNetworkApp.Crud.Creation
import SocialNetworkApp.Crud.Scan

/-!
# Requests through the factory

Each request first makes the factory scan the disk again. On a disk with an entity the scan enters
its id a second time, and no request takes both entries away together with the file.
-/

namespace SocialNetworkApp

open SocialNetworkApp.Core

/-- One request through the factory: a new handler is made for it. -/
def CrudHandlerFactory.Serves (uninit : Str → CInt) (config : NginxConfig) (w : CrudState)
    (c : CrudCall) (w' : CrudState) : Prop :=
  ∃ root w₁, create uninit c.faults config w = .ok (some root, w₁) ∧ CrudHandler.Step root w₁ c w'

/-- The vectors are strictly increasing and hold exactly the ids of the files. -/
structure Exact (R : List Str) (w : CrudState) : Prop where
  sorted : ∀ d, (idsOf w.entityIds d).Pairwise (· < ·)
  mem_iff : ∀ d, PlainName d → ∀ id,
    id ∈ idsOf w.entityIds d ↔ w.fs.tree.IsFile (R ++ [d] ++ [toStr id])

/-- There is no file of an entity. -/
def NoEntities (R : List Str) (fs : FileSystem) : Prop :=
  ∀ d, PlainName d → ∀ id, ¬ fs.tree.IsFile (R ++ [d] ++ [toStr id])

/-- The root is a directory, and below it the disk has the shape of entities. -/
structure EntityDisk (R : List Str) (root : Str) (fs : FileSystem) : Prop where
  rootAt : fs.RootAt root R
  shape : EntityShape R fs

variable {R : List Str} {root : Str} {w w' : CrudState} {fs fs' : FileSystem} {d : Str} {id : CInt}
  {entityIds : EntityIds}

/-! ### The shape of the disk -/

lemma EntityShape.sets (h : EntityShape R fs) {p : List Str} {x : Option (Node Str)}
    (hsets : fs.Sets p x fs') (hplain : ∀ n, p = R ++ [n] → x ≠ none → PlainName n)
    (hentity : ∀ d name y, p = R ++ [d] ++ [name] → x = some y →
      ∃ content id, y = .file content ∧ name = toStr id) : EntityShape R fs' := by
  constructor
  · intro d y hy
    by_cases hp : R ++ [d] = p
    · subst hp
      rw [hsets.node_self] at hy
      exact hplain d rfl (by simp [hy])
    · rw [hsets.node_ne hp] at hy
      exact h.plain hy
  · intro d name y hy
    by_cases hp : R ++ [d] ++ [name] = p
    · subst hp
      rw [hsets.node_self] at hy
      exact hentity d name y rfl hy
    · rw [hsets.node_ne hp] at hy
      exact h.entity hy

lemma EntityDisk.directory (h : EntityDisk R root fs) (hd : '/' ∉ d)
    (hcreate : fs.createDirectory (root ++ '/' :: d) = some fs') : EntityDisk R root fs' := by
  obtain ⟨-, hsets⟩ := h.rootAt.createDirectory hd hcreate
  refine ⟨h.rootAt.sets hsets fun _ => rfl, h.shape.sets hsets ?_ ?_⟩
  · intro n hn _
    by_cases hplain : PlainName d
    · rw [stepName_of_plain R hplain] at hn
      obtain rfl : d = n := by simpa using hn
      exact hplain
    · have hlength := length_stepName_le R hd hplain
      rw [hn, List.length_append, List.length_singleton] at hlength
      omega
  · intro d' name y hp _
    by_cases hplain : PlainName d
    · have hlength := congrArg List.length hp
      simp [stepName_of_plain R hplain] at hlength
    · have hlength := length_stepName_le R hd hplain
      rw [hp, List.length_append, List.length_append, List.length_singleton] at hlength
      omega

lemma EntityDisk.file (h : EntityDisk R root fs) (hd : '/' ∉ d) {content : Str}
    (hwrite : fs.writeFile (root ++ '/' :: d ++ '/' :: toStr id) content = some fs') :
    EntityDisk R root fs' := by
  obtain ⟨hdir, hsets⟩ := h.rootAt.writeFile hd hwrite
  refine ⟨h.rootAt.sets hsets fun hp => absurd hp hdir, h.shape.sets hsets ?_ ?_⟩
  · intro n hn _
    obtain ⟨-, hname⟩ := List.append_inj' hn rfl
    obtain rfl : toStr id = n := by simpa using hname
    exact plainName_toStr id
  · intro d' name y hp hy
    obtain ⟨-, hname⟩ := List.append_inj' hp rfl
    exact ⟨content, id, (Option.some.inj hy).symm, by simpa using hname.symm⟩

lemma EntityDisk.change (h : EntityDisk R root w.fs) (hd : '/' ∉ d)
    (hchange : Change root w d w') : EntityDisk R root w'.fs := by
  cases hchange with
  | nothing => exact h
  | directory hdir => exact h.directory hd hdir
  | store hdir hfile =>
    rcases hdir with rfl | hdir
    · exact h.file hd hfile
    · exact (h.directory hd hdir).file hd hfile
  | overwrite _ hfile => exact h.file hd hfile
  | delete _ _ _ hexists hdir _ hfile =>
    obtain ⟨p, hp, hisfile⟩ := FileSystem.isFile_of_exists hexists hdir
    have hsets := FileSystem.remove_eq_some hfile hp
    refine ⟨h.rootAt.sets hsets fun hpdir => absurd hisfile (FileTree.not_isFile_of_isDir hpdir),
      h.shape.sets hsets ?_ ?_⟩
    · intro n _ hnone
      exact absurd rfl hnone
    · intro d' name y _ hnone
      cases hnone

lemma EntityDisk.isFile_iff (h : EntityDisk R root fs) {name : Str} :
    fs.tree.IsFile (R ++ [d] ++ [name]) ↔
      ∃ id, fs.tree.IsFile (R ++ [d] ++ [toStr id]) ∧ toStr id = name := by
  constructor
  · rintro ⟨content, hcontent⟩
    obtain ⟨-, id, -, rfl⟩ := h.shape.entity hcontent
    exact ⟨id, ⟨content, hcontent⟩, rfl⟩
  · rintro ⟨id, hfile, rfl⟩
    exact hfile

/-! ### Exactness and agreement -/

/-- On such a disk, to know the ids of the files is to know the files. -/
lemma matches_of_mem_iff (h : EntityDisk R root w.fs)
    (hmem : ∀ d, PlainName d → ∀ id,
      id ∈ idsOf w.entityIds d ↔ w.fs.tree.IsFile (R ++ [d] ++ [toStr id])) :
    Matches (Directories.plain R) root w := by
  refine ⟨h.rootAt, ?_⟩
  intro d hd name
  rw [stepName_of_plain R hd, h.isFile_iff]
  simp only [hmem d hd]

lemma Exact.agree (h : Exact R w) (hdisk : EntityDisk R root w.fs) :
    Agree (Directories.plain R) root w :=
  ⟨matches_of_mem_iff hdisk h.mem_iff, fun d _ => h.sorted d⟩

/-- A request on a handler is a change to one directory. -/
lemma CrudHandler.Step.change {c : CrudCall} (h : CrudHandler.Step root w c w')
    (hc : c.faults.removal = false) : ∃ d, '/' ∉ d ∧ Change root w d w' := by
  obtain ⟨reply, hreply, rfl⟩ := h
  rcases handleRequest_change hc hreply with hsame | ⟨d, hd, hchange⟩
  · exact ⟨[], by simp, by rw [hsame]; exact .nothing⟩
  · exact ⟨d, Request.slash_not_mem_directory hd, hchange⟩

/-- No change disorders a vector. -/
lemma Change.sorted (h : Change root w d w') (hsorted : ∀ d, (idsOf w.entityIds d).Pairwise (· < ·)) :
    ∀ d, (idsOf w'.entityIds d).Pairwise (· < ·) := by
  intro d'
  cases h with
  | store => exact pairwise_addIdToEntity (hsorted d')
  | delete _ _ _ _ _ hremove => exact pairwise_remove hremove (hsorted d')
  | _ => exact hsorted d'

/-- A request on an exact state leaves an exact state behind. -/
lemma Exact.step (h : Exact R w) (hdisk : EntityDisk R root w.fs) {c : CrudCall}
    (hc : c.faults.removal = false) (hstep : CrudHandler.Step root w c w') : Exact R w' := by
  have hagree := (h.agree hdisk).step (CrudCall.within_plain hc) hstep
  obtain ⟨d, -, hchange⟩ := hstep.change hc
  refine ⟨hchange.sorted h.sorted, ?_⟩
  intro d hd id
  rw [← hagree.isFile_iff hd, stepName_of_plain R hd]

/-! ### What a scan does to an exact state -/

lemma count_eq_fileCount (h : Exact R w) (hd : PlainName d) :
    (idsOf w.entityIds d).count id = fileCount R w.fs d id := by
  by_cases hmem : id ∈ idsOf w.entityIds d
  · rw [List.count_eq_one_of_mem ((h.sorted d).imp ne_of_lt) hmem, eq_comm, fileCount_eq_one_iff]
    exact (h.mem_iff d hd id).mp hmem
  · rw [List.count_eq_zero_of_not_mem hmem, eq_comm, fileCount_eq_zero_iff]
    exact fun hfile => hmem ((h.mem_iff d hd id).mpr hfile)

/-- Where every id is entered as often as there is a file, the scanned state is exact. -/
lemma Scanned.exact {added : Str → CInt → Nat} (h : Scanned w.entityIds entityIds added)
    (hsorted : ∀ d, (idsOf w.entityIds d).Pairwise (· ≤ ·))
    (hle : ∀ d id, (idsOf w.entityIds d).count id + added d id ≤ 1)
    (hplain : ∀ d, PlainName d → ∀ id,
      (idsOf w.entityIds d).count id + added d id = fileCount R w.fs d id) :
    Exact R ⟨w.fs, entityIds⟩ := by
  refine ⟨?_, ?_⟩
  · intro d
    refine pairwise_lt_of_sorted (h.sorted d (hsorted d)) (List.nodup_iff_count_le_one.mpr ?_)
    intro id
    rw [h.count_eq]
    exact hle d id
  · intro d hd id
    have hone : fileCount R w.fs d id ≤ 1 := hplain d hd id ▸ hle d id
    show id ∈ idsOf entityIds d ↔ w.fs.tree.IsFile (R ++ [d] ++ [toStr id])
    rw [← List.count_pos_iff, h.count_eq, hplain d hd id, ← fileCount_eq_one_iff]
    omega

/-- A scan of a disk with an entity enters an id twice; then no request makes the state exact. -/
lemma not_exact_of_change (hmatches : Matches (Directories.plain R) root w) (hd : PlainName d)
    (htwice : 2 ≤ (idsOf w.entityIds d).count id) {d' : Str} (hchange : Change root w d' w') :
    ¬ Exact R w' := by
  intro hexact
  have hle : (idsOf w'.entityIds d).count id ≤ 1 :=
    List.nodup_iff_count_le_one.mp ((hexact.sorted d).imp ne_of_lt) id
  cases hchange with
  | nothing => exact absurd (htwice.trans hle) (by decide)
  | directory => exact absurd (htwice.trans hle) (by decide)
  | overwrite => exact absurd (htwice.trans hle) (by decide)
  | @store fs fs' n content hdir hfile =>
    have hcount : (idsOf w.entityIds d).count id ≤ (idsOf (addIdToEntity w.entityIds d' n) d).count id :=
      count_le_addIdToEntity
    exact absurd (htwice.trans (hcount.trans hle)) (by decide)
  | @delete name both n entityIds fs hboth hname hid hexists hdir hremove hfile =>
    by_cases hsame : d = d' ∧ n = id
    · -- one of the two entries is left, but the file is gone
      obtain ⟨rfl, rfl⟩ := hsame
      have hsets := FileSystem.remove_eq_some hfile
        (hmatches.delete_path hd hboth hname hid hexists hdir hremove)
      obtain ⟨-, rfl⟩ := removeIdFromEntity_eq_some hremove
      have hleft : n ∈ (idsOf w.entityIds d).erase n := by
        rw [← List.count_pos_iff, List.count_erase_self]
        omega
      have hin : n ∈ idsOf (w.entityIds.insert d ((idsOf w.entityIds d).erase n)) d := by
        rwa [idsOf_insert_self]
      obtain ⟨content, hcontent⟩ := (hexact.mem_iff d hd n).mp hin
      rw [stepName_of_plain R hd] at hsets
      rw [hsets.node_self] at hcontent
      cases hcontent
    · have hcount : (idsOf w.entityIds d).count id ≤ (idsOf entityIds d).count id := by
        obtain ⟨-, rfl⟩ := removeIdFromEntity_eq_some hremove
        by_cases hd' : d = d'
        · subst hd'
          rw [idsOf_insert_self, List.count_erase_of_ne]
          exact fun hn => hsame ⟨rfl, hn.symm⟩
        · rw [idsOf_insert_ne _ hd']
      exact absurd (htwice.trans (hcount.trans hle)) (by decide)

/-! ### Runs through the factory -/

section

variable {uninit : Str → CInt} {config : NginxConfig} {c : CrudCall}

/-- A request is served by a handler whose ids are the ones there were, and those of all files. -/
lemma CrudHandlerFactory.Serves.scanned (h : Serves uninit config w c w')
    (hconfig : config.rootArgument = some root) (hdisk : EntityDisk R root w.fs) :
    ∃ entityIds, Scanned w.entityIds entityIds (fileCount R w.fs) ∧
      CrudHandler.Step root ⟨w.fs, entityIds⟩ c w' := by
  obtain ⟨root', w₁, hcreate, hstep⟩ := h
  obtain ⟨entityIds, hscan, hscanned⟩ :=
    @initializeEntityMap_scanned R root uninit w hdisk.shape hdisk.rootAt
  rw [create, hconfig] at hcreate
  obtain ⟨entityIds', hscan', heq⟩ := exists_of_map_eq_ok hcreate
  rw [initializeEntityMap_eq_ok hscan', Except.ok.injEq] at hscan
  subst hscan
  cases heq
  exact ⟨entityIds', hscanned, hstep⟩

/-- The outcome of a request is determined. -/
lemma CrudHandlerFactory.Serves.unique {w'' : CrudState} (h : Serves uninit config w c w')
    (h' : Serves uninit config w c w'') : w' = w'' := by
  obtain ⟨root, w₁, hcreate, reply, hreply, rfl⟩ := h
  obtain ⟨root', w₁', hcreate', reply', hreply', rfl⟩ := h'
  rw [hcreate] at hcreate'
  cases hcreate'
  rw [CrudHandler.Answers] at hreply hreply'
  rw [hreply] at hreply'
  cases hreply'
  rfl

lemma EntityDisk.serves (h : EntityDisk R root w.fs) (hconfig : config.rootArgument = some root)
    (hc : c.faults.removal = false) (hserves : CrudHandlerFactory.Serves uninit config w c w') :
    EntityDisk R root w'.fs := by
  obtain ⟨entityIds, -, hstep⟩ := hserves.scanned hconfig h
  obtain ⟨d, hd, hchange⟩ := hstep.change hc
  exact EntityDisk.change (w := ⟨w.fs, entityIds⟩) h hd hchange

lemma EntityDisk.run (h : EntityDisk R root w.fs) (hconfig : config.rootArgument = some root)
    {cs : List CrudCall} (hcs : ∀ c ∈ cs, c.faults.removal = false)
    (hrun : Run (CrudHandlerFactory.Serves uninit config) w cs w') : EntityDisk R root w'.fs :=
  hrun.invariant (I := fun w => EntityDisk R root w.fs)
    (fun h hc hserves => h.serves hconfig hc hserves) hcs h

/-- The first request: there are no ids but those of the files. -/
lemma exact_of_serves_first (hdisk : EntityDisk R root w.fs)
    (hconfig : config.rootArgument = some root) (hempty : w.entityIds = ∅)
    (hc : c.faults.removal = false) (hserves : CrudHandlerFactory.Serves uninit config w c w') :
    Exact R w' := by
  obtain ⟨entityIds, hscanned, hstep⟩ := hserves.scanned hconfig hdisk
  have hnone : ∀ d, idsOf w.entityIds d = [] := by
    intro d
    rw [hempty]
    rfl
  have hexact : Exact R ⟨w.fs, entityIds⟩ := by
    refine hscanned.exact ?_ ?_ ?_
    · intro d
      rw [hnone]
      exact .nil
    · intro d id
      rw [hnone, List.count_nil, Nat.zero_add]
      exact fileCount_le_one
    · intro d _ id
      rw [hnone, List.count_nil, Nat.zero_add]
  exact hexact.step hdisk hc hstep

/-- A later request on a disk without entities: the scan finds nothing. -/
lemma Exact.serves (h : Exact R w) (hdisk : EntityDisk R root w.fs)
    (hconfig : config.rootArgument = some root) (hnone : NoEntities R w.fs)
    (hc : c.faults.removal = false) (hserves : CrudHandlerFactory.Serves uninit config w c w') :
    Exact R w' := by
  obtain ⟨entityIds, hscanned, hstep⟩ := hserves.scanned hconfig hdisk
  have hzero : ∀ d id, fileCount R w.fs d id = 0 := by
    intro d id
    refine fileCount_eq_zero_iff.mpr ?_
    rintro ⟨content, hcontent⟩
    exact hnone d (hdisk.shape.plain (FileTree.isDir_of_node hcontent)) id ⟨content, hcontent⟩
  have hexact : Exact R ⟨w.fs, entityIds⟩ := by
    refine hscanned.exact ?_ ?_ ?_
    · exact fun d => (h.sorted d).imp le_of_lt
    · intro d id
      rw [hzero, Nat.add_zero]
      exact List.nodup_iff_count_le_one.mp ((h.sorted d).imp ne_of_lt) id
    · intro d hd id
      rw [count_eq_fileCount h hd, hzero]
  exact hexact.step hdisk hc hstep

/-- A later request on a disk with an entity leaves one of its ids entered twice, or a ghost. -/
lemma Exact.not_serves (h : Exact R w) (hdisk : EntityDisk R root w.fs)
    (hconfig : config.rootArgument = some root) (hd : PlainName d)
    (hfile : w.fs.tree.IsFile (R ++ [d] ++ [toStr id])) (hc : c.faults.removal = false)
    (hserves : CrudHandlerFactory.Serves uninit config w c w') : ¬ Exact R w' := by
  obtain ⟨entityIds, hscanned, hstep⟩ := hserves.scanned hconfig hdisk
  have hcount : ∀ d, PlainName d → ∀ id,
      (idsOf entityIds d).count id = fileCount R w.fs d id + fileCount R w.fs d id := by
    intro d hd id
    rw [hscanned.count_eq, count_eq_fileCount h hd]
  have hmatches : Matches (Directories.plain R) root ⟨w.fs, entityIds⟩ := by
    refine matches_of_mem_iff hdisk ?_
    intro d hd id
    have hle : fileCount R w.fs d id ≤ 1 := fileCount_le_one
    show id ∈ idsOf entityIds d ↔ w.fs.tree.IsFile (R ++ [d] ++ [toStr id])
    rw [← List.count_pos_iff, hcount d hd id, ← fileCount_eq_one_iff]
    omega
  obtain ⟨d', -, hchange⟩ := hstep.change hc
  have htwice : 2 ≤ (idsOf entityIds d).count id := by
    rw [hcount d hd id, fileCount_eq_one_iff.mpr hfile]
  exact not_exact_of_change hmatches hd htwice hchange

/-- From no ids at all, every request leaves the ids of exactly the files behind, in strictly
increasing vectors, if and only if every request but the first finds no file of an entity. -/
theorem entityIds_exact_iff {w₀ : CrudState} (hdisk : EntityDisk R root w₀.fs)
    (hconfig : config.rootArgument = some root) (hempty : w₀.entityIds = ∅) {cs : List CrudCall}
    (hcs : ∀ c ∈ cs, c.faults.removal = false)
    (hrun : Run (CrudHandlerFactory.Serves uninit config) w₀ cs w) :
    (∀ cs₁ w₁, cs₁ ≠ [] → cs₁ <+: cs → Run (CrudHandlerFactory.Serves uninit config) w₀ cs₁ w₁ →
        Exact R w₁) ↔
      ∀ cs₁ c w₁, cs₁ ≠ [] → cs₁ ++ [c] <+: cs →
        Run (CrudHandlerFactory.Serves uninit config) w₀ cs₁ w₁ → NoEntities R w₁.fs := by
  have hallowed : ∀ {cs₁}, cs₁ <+: cs → ∀ c ∈ cs₁, c.faults.removal = false :=
    fun hpre c hc => hcs c (hpre.subset hc)
  constructor
  · intro hexact cs₁ c w₁ hne hpre hrun₁ d hd id hfile
    have hpre₁ : cs₁ <+: cs := (List.prefix_append cs₁ [c]).trans hpre
    obtain ⟨rest, rfl⟩ := hpre
    obtain ⟨w₂, hrun₂, -⟩ := hrun.of_append
    have hlast : CrudHandlerFactory.Serves uninit config w₁ c w₂ := by
      obtain ⟨w₁', hrun₁', hlast⟩ := hrun₂.of_append
      obtain rfl := hrun₁.unique (fun h h' => h.unique h') hrun₁'
      cases hlast with
      | cons hstep hnil =>
        cases hnil
        exact hstep
    refine Exact.not_serves (hexact cs₁ w₁ hne hpre₁ hrun₁)
      (hdisk.run hconfig (hallowed hpre₁) hrun₁) hconfig hd hfile (hcs c (by simp)) hlast ?_
    exact hexact (cs₁ ++ [c]) w₂ (by simp) (List.prefix_append _ rest) hrun₂
  · intro hnone cs₁ w₁ hne hpre hrun₁
    refine hrun₁.induction_on_last
      (P := fun cs₁ w₁ => cs₁ ≠ [] → cs₁ <+: cs → Exact R w₁) ?_ ?_ hne hpre
    · intro hnil
      exact absurd rfl hnil
    · intro cs₁ c t t' hrun₁ ih hserves _ hpre
      have hpre₁ : cs₁ <+: cs := (List.prefix_append cs₁ [c]).trans hpre
      have hc : c.faults.removal = false := hallowed hpre c (by simp)
      by_cases hfirst : cs₁ = []
      · subst hfirst
        cases hrun₁
        exact exact_of_serves_first hdisk hconfig hempty hc hserves
      · exact (ih hfirst hpre₁).serves (hdisk.run hconfig (hallowed hpre₁) hrun₁) hconfig
          (hnone cs₁ c t hfirst hpre hrun₁) hc hserves

/-- The configuration block of a CRUD handler over the empty disk. -/
def emptyDiskConfig : NginxConfig := .mk [.mk ["root".toList, ['r']] none]

lemma entityDisk_emptyDisk : EntityDisk [['r']] ['r'] emptyDisk.fs := by
  refine ⟨⟨rfl, rfl⟩, ?_, ?_⟩
  · intro d x hx
    rw [node_emptyDisk (by simp)] at hx
    cases hx
  · intro d name x hx
    rw [node_emptyDisk (by simp)] at hx
    cases hx

/-- A `GET` before the first `POST`. -/
theorem entityIds_exact_iff_post :
    ∃ w, Run (CrudHandlerFactory.Serves (fun _ => 0) emptyDiskConfig) emptyDisk
        [⟨⟨.get, "/d".toList, [], []⟩, {}, {}⟩, ⟨⟨.post, "/d".toList, ['x'], []⟩, {}, {}⟩] w ∧
      ((∀ cs₁ w₁, cs₁ ≠ [] →
          cs₁ <+: [⟨⟨.get, "/d".toList, [], []⟩, {}, {}⟩, ⟨⟨.post, "/d".toList, ['x'], []⟩, {}, {}⟩] →
          Run (CrudHandlerFactory.Serves (fun _ => 0) emptyDiskConfig) emptyDisk cs₁ w₁ →
          Exact [['r']] w₁) ↔
        ∀ cs₁ c w₁, cs₁ ≠ [] →
          cs₁ ++ [c] <+:
            [⟨⟨.get, "/d".toList, [], []⟩, {}, {}⟩, ⟨⟨.post, "/d".toList, ['x'], []⟩, {}, {}⟩] →
          Run (CrudHandlerFactory.Serves (fun _ => 0) emptyDiskConfig) emptyDisk cs₁ w₁ →
          NoEntities [['r']] w₁.fs) := by
  have hrun : ∃ w, Run (CrudHandlerFactory.Serves (fun _ => 0) emptyDiskConfig) emptyDisk
      [⟨⟨.get, "/d".toList, [], []⟩, {}, {}⟩, ⟨⟨.post, "/d".toList, ['x'], []⟩, {}, {}⟩] w :=
    ⟨_, .cons ⟨_, _, rfl, _, rfl, rfl⟩ (.cons ⟨_, _, rfl, _, rfl, rfl⟩ (.nil _))⟩
  obtain ⟨w, hrun⟩ := hrun
  refine ⟨w, hrun, entityIds_exact_iff entityDisk_emptyDisk rfl rfl ?_ hrun⟩
  simp

/-- A `GET` behind the first `POST` enters the id of the new entity again. -/
theorem serves_enters_twice :
    EntityDisk [['r']] ['r'] emptyDisk.fs ∧ emptyDiskConfig.rootArgument = some ['r'] ∧
      emptyDisk.entityIds = ∅ ∧
    ∃ w, Run (CrudHandlerFactory.Serves (fun _ => 0) emptyDiskConfig) emptyDisk
        [⟨⟨.post, "/d".toList, ['x'], []⟩, {}, {}⟩, ⟨⟨.get, "/d/1".toList, [], []⟩, {}, {}⟩] w ∧
      idsOf w.entityIds ['d'] = [1, 1] ∧ ¬ Exact [['r']] w := by
  refine ⟨entityDisk_emptyDisk, rfl, rfl, _,
    .cons ⟨_, _, rfl, _, rfl, rfl⟩ (.cons ⟨_, _, rfl, _, rfl, rfl⟩ (.nil _)), rfl, ?_⟩
  intro hexact
  have hsorted : [(1 : CInt), 1].Pairwise (· < ·) := hexact.sorted ['d']
  exact absurd hsorted (by decide)

end

end SocialNetworkApp
