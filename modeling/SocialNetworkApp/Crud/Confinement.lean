import SocialNetworkApp.Core.Lexical
import SocialNetworkApp.Crud.Creation

/-!
# Staying below the root

The path names a request touches are put together from the root and pieces of the target without a
slash. They stay below the root as long as no new entity is put in the directory `..`: what is read
and deleted must be in the map.
-/

namespace SocialNetworkApp

open SocialNetworkApp.Core

/-- The names a request hands to the calls that create, write, remove or read. -/
inductive CrudHandler.Touches (root : Str) (c : CrudCall) (w : CrudState) : Str → Prop
  | directory {d : Str} (hmethod : c.request.method = .post ∨ c.request.method = .put)
      (hd : c.request.directory = some d) : Touches root c w (root ++ '/' :: d)
  | created {i : Nat} {d : Str} (hmethod : c.request.method = .post)
      (hd : lastSegment c.request.target = some (i, d)) :
      Touches root c w (root ++ '/' :: d ++ '/' :: toStr (getAvailableId w.entityIds d))
  | updated {d : Str} {id : CInt} (hmethod : c.request.method = .put)
      (hd : updateTarget c.request.target = some (d, id)) :
      Touches root c w (root ++ '/' :: d ++ '/' :: toStr id)
  | deleted {d name both : Str} {id : CInt} (hmethod : c.request.method = .delete_)
      (hd : deletionTarget c.request.target = some (d, name, both)) (hid : stoi name = .ok id)
      (hmem : id ∈ idsOf w.entityIds d) : Touches root c w (root ++ '/' :: both)
  | retrieved {d name : Str} {id : CInt} (hmethod : c.request.method = .get)
      (hd : retrievalDir c.request.target (findLastOf '/' c.request.target) = d)
      (hname : possibleId c.request.target = name) (hid : stoi name = .ok id)
      (hmem : id ∈ idsOf w.entityIds d) : Touches root c w (root ++ '/' :: d ++ '/' :: name)

variable {root : Str} {c : CrudCall} {w w' : CrudState} {reply : Reply CrudState}

/-! ### Nothing else is touched -/

/-- A request changes the disk by calls on what it touches. -/
lemma CrudHandler.Answers.callsOn (h : Answers root w c reply) :
    w.fs.CallsOn (Touches root c w) reply.state.fs := by
  rw [Answers, handleRequest] at h
  cases hmethod : c.request.method with
  | post =>
    simp only [hmethod] at h
    have hdirectory : ∀ {i d}, lastSegment c.request.target = some (i, d) →
        Touches root c w (root ++ '/' :: d) := by
      intro i d hd
      exact .directory (Or.inl hmethod) (by simp [Request.directory, hmethod, hd])
    rcases handleCreation_cases h with ⟨-, hsame | ⟨i, d, fs, hd, hcreate, hstate⟩⟩ |
      ⟨i, d, fs, fs', hd, hdir, hwrite, rfl⟩
    · rw [hsame]
      exact .nil _
    · rw [hstate]
      exact .createDirectory (hdirectory hd) hcreate (.nil _)
    · rcases hdir with rfl | hcreate
      · exact .writeFile (.created hmethod hd) hwrite (.nil _)
      · exact .createDirectory (hdirectory hd) hcreate
          (.writeFile (.created hmethod hd) hwrite (.nil _))
  | get =>
    simp only [hmethod] at h
    rw [handleGet_state h]
    exact .nil _
  | put =>
    simp only [hmethod] at h
    have hdirectory : ∀ {d id}, updateTarget c.request.target = some (d, id) →
        Touches root c w (root ++ '/' :: d) := by
      intro d id hd
      exact .directory (Or.inr hmethod) (by simp [Request.directory, hmethod, hd])
    rcases handleUpdate_cases h with ⟨-, hsame | ⟨d, id, fs, hd, hcreate, hstate⟩⟩ |
      ⟨d, id, hd, ⟨fs, fs', hcreate, hwrite, rfl⟩ | ⟨fs, -, hwrite, rfl⟩⟩
    · rw [hsame]
      exact .nil _
    · rw [hstate]
      exact .createDirectory (hdirectory hd) hcreate (.nil _)
    · exact .createDirectory (hdirectory hd) hcreate
        (.writeFile (.updated hmethod hd) hwrite (.nil _))
    · exact .writeFile (.updated hmethod hd) hwrite (.nil _)
  | delete_ =>
    simp only [hmethod] at h
    rcases handleDeletion_cases h with ⟨-, hsame⟩ |
      ⟨d, name, both, id, entityIds, hd, hid, -, -, -, hremove,
        ⟨fs, hfile, -, rfl⟩ | ⟨-, -, hstate⟩⟩
    · rw [hsame]
      exact .nil _
    · exact .remove (.deleted hmethod hd hid (removeIdFromEntity_eq_some hremove).1) hfile (.nil _)
    · rw [hstate]
      exact .nil _
  | other name =>
    simp only [hmethod, Except.ok.injEq] at h
    subst h
    exact .nil _

/-- The answer to a `GET` depends on no file but what it touches. -/
lemma CrudHandler.handleRequest_get_congr (hmethod : c.request.method = .get) {fs : FileSystem}
    (hfs : ∀ name, Touches root c w name → fs.openRead name = w.fs.openRead name) :
    handleRequest root c.faults c.request c.response ⟨fs, w.entityIds⟩ =
      (handleRequest root c.faults c.request c.response w).map fun reply =>
        { reply with state := ⟨fs, w.entityIds⟩ } := by
  simp only [handleRequest, hmethod, handleGet]
  cases endsWithId c.request.target with
  | error e => rfl
  | ok ends =>
    cases ends with
    | false =>
      simp only [listEntities]
      split <;> rfl
    | true =>
      simp only [retrieveEntity]
      cases hid : stoi (possibleId c.request.target) with
      | error e => rfl
      | ok id =>
        simp only
        split_ifs with hexists
        · rfl
        · have hmem := entityExists_iff.mp (by simpa using hexists)
          have hread := hfs _ (.retrieved hmethod rfl rfl hid hmem)
          simp only [Faults.openRead, hread]
          split <;> rfl

/-! ### What is touched is below the root -/

/-- The request puts a new entity in the directory `..`. -/
def CrudCall.NamesParent (c : CrudCall) : Prop :=
  (c.request.method = .post ∨ c.request.method = .put) ∧ c.request.directory = some ['.', '.']

/-- Two components, neither of them `..`, lead down. -/
lemma prefix_lexical_two (hroot : root ≠ []) {cwd : List Str} {d name : Str} (hd : '/' ∉ d)
    (hne : d ≠ ['.', '.']) (hname : PlainName name) :
    lexical cwd root <+: lexical cwd (root ++ '/' :: d ++ '/' :: name) := by
  rw [lexical_append (by simp) hname.2.1, lexical_append hroot hd]
  exact (prefix_stepName _ hne).trans (prefix_stepName _ hname.2.2.2)

/-- A request that does not name `..` touches nothing outside, if no id is known there. -/
lemma CrudHandler.Touches.inside (hroot : root ≠ []) (hc : ¬ c.NamesParent)
    (hmap : idsOf w.entityIds ['.', '.'] = []) {name : Str} (h : Touches root c w name)
    (cwd : List Str) : lexical cwd root <+: lexical cwd name := by
  have hknown : ∀ {d : Str} {id : CInt}, id ∈ idsOf w.entityIds d → d ≠ ['.', '.'] := by
    rintro d id hmem rfl
    rw [hmap] at hmem
    cases hmem
  cases h with
  | @directory d hmethod hd =>
    rw [lexical_append hroot (Request.slash_not_mem_directory hd)]
    refine prefix_stepName _ ?_
    rintro rfl
    exact hc ⟨hmethod, hd⟩
  | @created i d hmethod hd =>
    have hdirectory : c.request.directory = some d := by simp [Request.directory, hmethod, hd]
    refine prefix_lexical_two hroot (Request.slash_not_mem_directory hdirectory) ?_
      (plainName_toStr _)
    rintro rfl
    exact hc ⟨Or.inl hmethod, hdirectory⟩
  | @updated d id hmethod hd =>
    have hdirectory : c.request.directory = some d := by simp [Request.directory, hmethod, hd]
    refine prefix_lexical_two hroot (Request.slash_not_mem_directory hdirectory) ?_
      (plainName_toStr _)
    rintro rfl
    exact hc ⟨Or.inr hmethod, hdirectory⟩
  | deleted hmethod hd hid hmem =>
    obtain ⟨hslash, hname, -, rfl | ⟨rfl, rfl⟩⟩ := deletionTarget_eq_some hd
    · rw [← List.cons_append, ← List.append_assoc]
      exact prefix_lexical_two hroot hslash (hknown hmem) (plainName_of_stoi hname hid)
    · rw [lexical_append hroot hname]
      exact prefix_stepName _ (plainName_of_stoi hname hid).2.2.2
  | retrieved hmethod hd hname hid hmem =>
    subst hd hname
    exact prefix_lexical_two hroot (slash_not_mem_retrievalDir _) (hknown hmem)
      (plainName_of_stoi (slash_not_mem_possibleId _) hid)

/-! ### Runs -/

/-- What a request does to the ids. -/
lemma CrudHandler.Answers.entityIds_cases (h : Answers root w c reply) :
    reply.state.entityIds = w.entityIds ∨
      (∃ d id, (c.request.method = .post ∨ c.request.method = .put) ∧
        c.request.directory = some d ∧ reply.state.entityIds = addIdToEntity w.entityIds d id) ∨
      ∃ d id, removeIdFromEntity w.entityIds d id = some reply.state.entityIds := by
  rw [Answers, handleRequest] at h
  cases hmethod : c.request.method with
  | post =>
    simp only [hmethod] at h
    rcases handleCreation_cases h with
      ⟨-, hsame | ⟨i, d, fs, hd, -, hstate⟩⟩ | ⟨i, d, fs, fs', hd, -, -, rfl⟩
    · exact Or.inl (by rw [hsame])
    · exact Or.inl (by rw [hstate])
    · refine Or.inr (Or.inl ⟨d, _, Or.inl rfl, ?_, rfl⟩)
      simp [Request.directory, hmethod, hd]
  | get =>
    simp only [hmethod] at h
    exact Or.inl (by rw [handleGet_state h])
  | put =>
    simp only [hmethod] at h
    rcases handleUpdate_cases h with ⟨-, hsame | ⟨d, id, fs, -, -, hstate⟩⟩ |
      ⟨d, id, hd, ⟨fs, fs', -, -, rfl⟩ | ⟨fs, -, -, rfl⟩⟩
    · exact Or.inl (by rw [hsame])
    · exact Or.inl (by rw [hstate])
    · exact Or.inr (Or.inl ⟨d, id, Or.inr rfl, by simp [Request.directory, hmethod, hd], rfl⟩)
    · exact Or.inl rfl
  | delete_ =>
    simp only [hmethod] at h
    rcases handleDeletion_cases h with ⟨-, hsame⟩ |
      ⟨d, name, both, id, entityIds, -, -, -, -, -, hremove, ⟨fs, -, -, rfl⟩ | ⟨-, -, hstate⟩⟩
    · exact Or.inl (by rw [hsame])
    · exact Or.inr (Or.inr ⟨d, id, hremove⟩)
    · exact Or.inr (Or.inr ⟨d, id, by rw [hstate, hremove]⟩)
  | other name =>
    simp only [hmethod, Except.ok.injEq] at h
    subst h
    exact Or.inl rfl

/-- A request that does not name `..` leaves no id there. -/
lemma CrudHandler.Answers.idsOf_parent (hc : ¬ c.NamesParent)
    (hmap : idsOf w.entityIds ['.', '.'] = []) (h : Answers root w c reply) :
    idsOf reply.state.entityIds ['.', '.'] = [] := by
  rcases h.entityIds_cases with hsame | ⟨d, id, hmethod, hd, hadd⟩ | ⟨d, id, hremove⟩
  · rw [hsame, hmap]
  · have hne : ['.', '.'] ≠ d := by
      rintro rfl
      exact hc ⟨hmethod, hd⟩
    rw [hadd, idsOf_addIdToEntity_ne hne, hmap]
  · obtain ⟨hmem, heq⟩ := removeIdFromEntity_eq_some hremove
    have hne : ['.', '.'] ≠ d := by
      rintro rfl
      rw [hmap] at hmem
      cases hmem
    rw [heq, idsOf_insert_ne _ hne, hmap]

lemma CrudHandler.cwd_eq_of_run {w₀ : CrudState} {cs : List CrudCall}
    (hrun : Run (Step root) w₀ cs w) : w.fs.cwd = w₀.fs.cwd := by
  refine hrun.invariant (I := fun w => w.fs.cwd = w₀.fs.cwd) (A := fun _ => True) ?_
    (fun _ _ => trivial) rfl
  rintro w w' c hcwd - ⟨reply, hreply, rfl⟩
  rw [hreply.callsOn.cwd_eq, hcwd]

/-- A request touches the root or what lies in it, resolved lexically: it changes the disk by calls on
what it touches, and the answer to a `GET` depends on no other file. -/
structure CrudHandler.Confined (root : Str) (c : CrudCall) (w : CrudState) (reply : Reply CrudState) :
    Prop where
  inside : ∀ name, Touches root c w name → lexical w.fs.cwd root <+: lexical w.fs.cwd name
  changes : w.fs.CallsOn (Touches root c w) reply.state.fs
  reads : c.request.method = .get → ∀ fs : FileSystem,
    (∀ name, Touches root c w name → fs.openRead name = w.fs.openRead name) →
      handleRequest root c.faults c.request c.response ⟨fs, w.entityIds⟩ =
        .ok { reply with state := ⟨fs, w.entityIds⟩ }

/-- Along every run of requests none of which puts an entity in `..`, on a handler that starts
without ids there, every request is confined to the root; if the root is that of the whole disk,
along every run. -/
theorem crudHandler_confined (hroot : root ≠ []) {w₀ : CrudState}
    (hmap : idsOf w₀.entityIds ['.', '.'] = []) {cs : List CrudCall}
    (hrun : Run (CrudHandler.Step root) w₀ cs w)
    (hcs : (∀ c' ∈ c :: cs, ¬ c'.NamesParent) ∨ lexical w₀.fs.cwd root = [])
    (h : CrudHandler.Answers root w c reply) : CrudHandler.Confined root c w reply := by
  refine ⟨?_, h.callsOn, ?_⟩
  · intro name htouches
    rcases hcs with hcs | hall
    · obtain ⟨hc, hbefore⟩ := List.forall_mem_cons.mp hcs
      refine htouches.inside hroot hc ?_ w.fs.cwd
      refine hrun.invariant (I := fun w => idsOf w.entityIds ['.', '.'] = []) ?_ hbefore hmap
      rintro w w' c hmap hc ⟨reply, hreply, rfl⟩
      exact hreply.idsOf_parent hc hmap
    · rw [CrudHandler.cwd_eq_of_run hrun, hall]
      exact List.nil_prefix
  · intro hmethod fs hfs
    rw [CrudHandler.Answers] at h
    rw [CrudHandler.handleRequest_get_congr hmethod hfs, h]
    rfl

/-- A `DELETE` in a directory of the root, behind a `POST`, a `PUT` and a `GET`. -/
theorem crudHandler_confined_delete :
    ∃ w reply, Run (CrudHandler.Step ['r']) emptyDisk
        [⟨⟨.post, "/d".toList, ['x'], []⟩, {}, {}⟩, ⟨⟨.put, "/d/7".toList, ['y'], []⟩, {}, {}⟩,
          ⟨⟨.get, "/d/7".toList, [], []⟩, {}, {}⟩] w ∧
      CrudHandler.Answers ['r'] w ⟨⟨.delete_, "/d/7".toList, [], []⟩, {}, {}⟩ reply ∧
      CrudHandler.Confined ['r'] ⟨⟨.delete_, "/d/7".toList, [], []⟩, {}, {}⟩ w reply := by
  have hrun : ∃ w, Run (CrudHandler.Step ['r']) emptyDisk
      [⟨⟨.post, "/d".toList, ['x'], []⟩, {}, {}⟩, ⟨⟨.put, "/d/7".toList, ['y'], []⟩, {}, {}⟩,
        ⟨⟨.get, "/d/7".toList, [], []⟩, {}, {}⟩] w ∧
      ∃ reply, CrudHandler.Answers ['r'] w ⟨⟨.delete_, "/d/7".toList, [], []⟩, {}, {}⟩ reply :=
    ⟨_, .cons ⟨_, rfl, rfl⟩ (.cons ⟨_, rfl, rfl⟩ (.cons ⟨_, rfl, rfl⟩ (.nil _))), _, rfl⟩
  obtain ⟨w, hrun, reply, hreply⟩ := hrun
  refine ⟨w, reply, hrun, hreply,
    crudHandler_confined (List.cons_ne_nil _ _) rfl hrun (Or.inl ?_) hreply⟩
  intro c' hc'
  simp only [List.mem_cons, List.not_mem_nil, or_false] at hc'
  rcases hc' with rfl | rfl | rfl | rfl
  all_goals
    rintro ⟨-, hdirectory⟩
    cases hdirectory

/-- A `POST` to `/a/..` writes a file next to the root. -/
theorem crudHandler_escapes :
    idsOf emptyDisk.entityIds ['.', '.'] = [] ∧
    ∃ reply, CrudHandler.Answers ['r'] emptyDisk ⟨⟨.post, "/a/..".toList, ['x'], []⟩, {}, {}⟩ reply ∧
      emptyDisk.fs.tree.content [['1']] = none ∧
      reply.state.fs.tree.content [['1']] = some ['x'] ∧
      lexical [] "r/../1".toList = [['1']] ∧
      ¬ CrudHandler.Confined ['r'] ⟨⟨.post, "/a/..".toList, ['x'], []⟩, {}, {}⟩ emptyDisk reply := by
  refine ⟨rfl, _, rfl, rfl, rfl, rfl, ?_⟩
  intro hconfined
  have hinside : [['r']] <+: [['1']] :=
    hconfined.inside "r/../1".toList (@CrudHandler.Touches.created _ _ _ _ ['.', '.'] rfl rfl)
  exact absurd hinside (by decide)

end SocialNetworkApp
