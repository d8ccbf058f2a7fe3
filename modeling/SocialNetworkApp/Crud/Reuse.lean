import Mathlib.Order.Bounds.Basic
import SocialNetworkApp.Crud.Refinement

/-!
# Reuse of ids

The walk along a sorted vector of positive ids stops at the smallest positive id that is not in it,
as long as there is one of type `int`. What happens in other directories does not matter.
-/

namespace SocialNetworkApp

open SocialNetworkApp.Core

/-! ### The smallest free id -/

/-- The walk stops at the first id from `current` on that is not in the vector. -/
lemma firstGap_isLeast {current : CInt} {ids : List CInt} (hsorted : ids.Pairwise (· < ·))
    (hge : ∀ m ∈ ids, current ≤ m) (hroom : ∃ n, current ≤ n ∧ n ∉ ids) :
    IsLeast {n | current ≤ n ∧ n ∉ ids} (firstGap current ids) := by
  induction ids generalizing current with
  | nil => exact ⟨⟨le_rfl, List.not_mem_nil⟩, fun n hn => hn.1⟩
  | cons m ms ih =>
    obtain ⟨hm, hms⟩ := List.pairwise_cons.mp hsorted
    rw [firstGap]
    split_ifs with heq
    · subst heq
      obtain ⟨n, hle, hn⟩ := hroom
      have hlt : m < n := lt_of_le_of_ne hle fun heq => hn (heq ▸ List.mem_cons_self)
      have hsucc : m.succ.val = m.val + 1 := by
        apply CInt.val_succ_of_lt
        exact lt_of_lt_of_le (CInt.val_lt_iff.mpr hlt) n.upper
      have hiff : ∀ k, m.succ ≤ k ↔ m < k := by
        intro k
        rw [← CInt.val_le_iff, ← CInt.val_lt_iff, hsucc, Int.add_one_le_iff]
      have hset : {k | m ≤ k ∧ k ∉ m :: ms} = {k | m.succ ≤ k ∧ k ∉ ms} := by
        ext k
        simp only [Set.mem_ofPred_eq, List.mem_cons, not_or, hiff, lt_iff_le_and_ne, ne_comm,
          and_assoc]
      rw [hset]
      refine ih hms (fun k hk => (hiff k).mpr (hm k hk)) ⟨n, (hiff n).mpr hlt, ?_⟩
      exact fun hmem => hn (List.mem_cons_of_mem _ hmem)
    · have hlt : current < m := lt_of_le_of_ne (hge m List.mem_cons_self) (Ne.symm heq)
      refine ⟨⟨le_rfl, fun hmem => ?_⟩, fun n hn => hn.1⟩
      rcases List.mem_cons.mp hmem with rfl | hmem
      · exact heq rfl
      · exact lt_asymm hlt (hm _ hmem)

/-! ### Requests -/

/-- A `POST` to `d`, and no call of the file system fails. -/
def CrudCall.Posts (c : CrudCall) (d : Str) : Prop :=
  c.faults = {} ∧ c.request.method = .post ∧ ∃ pre, c.request.target = pre ++ '/' :: d

/-- A `DELETE` of `name` in `d`, and no call of the file system fails. -/
def CrudCall.Deletes (c : CrudCall) (d name : Str) : Prop :=
  c.faults = {} ∧ c.request.method = .delete_ ∧
    ∃ pre, c.request.target = pre ++ '/' :: d ++ '/' :: name

def CrudCall.OnIds (c : CrudCall) (d : Str) : Prop :=
  c.Posts d ∨ ∃ name, PlainName name ∧ c.Deletes d name

/-- What a request does to the ids of its directory. -/
def CrudCall.idsAfter (c : CrudCall) (ids : List CInt) : List CInt :=
  match c.request.method with
  | .post =>
    if firstGap 1 ids ∈ ids then ids else (ids ++ [firstGap 1 ids]).insertionSort (· ≤ ·)
  | _ => ids.filter fun id => toStr id ≠ possibleId c.request.target

/-- The positive integers that are not ids of entities in `d`. -/
def freeIds (R : List Str) (w : CrudState) (d : Str) : Set Int :=
  {n | 0 < n ∧ ¬ w.fs.tree.IsFile (R ++ [d] ++ [intToStr n])}

variable {R : List Str} {root : Str} {w w' w₀ : CrudState} {d name : Str} {c : CrudCall}

lemma CrudCall.Posts.directory (hd : PlainName d) (hc : c.Posts d) :
    c.request.directory = some d := by
  obtain ⟨-, hmethod, pre, htarget⟩ := hc
  simp only [Request.directory, hmethod, htarget, lastSegment_append pre hd.2.1 hd.1,
    Option.map_some]

lemma CrudCall.Deletes.directory (hd : PlainName d) (hname : PlainName name)
    (hc : c.Deletes d name) : c.request.directory = some d := by
  obtain ⟨-, hmethod, pre, htarget⟩ := hc
  simp only [Request.directory, hmethod, htarget,
    deletionTarget_append pre hd.2.1 hname.2.1 hname.1, Option.map_some]

lemma CrudCall.OnIds.directory (hd : PlainName d) (hc : c.OnIds d) :
    c.request.directory = some d := by
  rcases hc with hpost | ⟨name, hname, hdelete⟩
  · exact hpost.directory hd
  · exact hdelete.directory hd hname

namespace Serving

/-- A `POST` is answered with the available id, which it adds to the ids. -/
lemma posts (h : Serving R root w) (hd : PlainName d) (hc : c.Posts d) :
    ∃ w', CrudHandler.Answers root w c
        ⟨.created, prepareCreatedResponse c.response (getAvailableId w.entityIds d), w'⟩ ∧
      Serving R root w' ∧
      w'.entityIds = addIdToEntity w.entityIds d (getAvailableId w.entityIds d) := by
  obtain ⟨hfaults, hmethod, pre, htarget⟩ := hc
  obtain ⟨reply, hreply, hserved⟩ := @handleCreation_served R root w d c.request c.response pre h
    hd c.request.body hmethod htarget rfl
  have hcreated : reply.status = .created := hserved.answer.1
  have hsegment : lastSegment c.request.target = some (pre.length, d) := by
    rw [htarget, lastSegment_append pre hd.2.1 hd.1]
  have hanswers : CrudHandler.Answers root w c reply := by
    rwa [CrudHandler.Answers, hfaults]
  simp only [CrudHandler.handleRequest, hmethod] at hreply
  obtain ⟨hresponse, hids, -⟩ := handleCreation_created h.agree hd hsegment hreply hcreated
  refine ⟨_, ?_, hserved.serving, hids⟩
  rwa [← hresponse, ← hcreated]

lemma isFile_iff (h : Serving R root w) (hd : PlainName d) :
    w.fs.tree.IsFile (R ++ [d] ++ [name]) ↔ ∃ id ∈ idsOf w.entityIds d, toStr id = name := by
  rw [← stepName_of_plain R hd]
  exact h.agree.file_iff d hd name

/-- A `DELETE` takes the id it names out of the ids, if it names one. -/
lemma deletes (h : Serving R root w) (hd : PlainName d) (hname : PlainName name)
    (hc : c.Deletes d name) :
    ∃ w', CrudHandler.Step root w c w' ∧ Serving R root w' ∧
      (∀ d', d' ≠ d → idsOf w'.entityIds d' = idsOf w.entityIds d') ∧
      idsOf w'.entityIds d = (idsOf w.entityIds d).filter fun id => toStr id ≠ name := by
  obtain ⟨hfaults, hmethod, pre, htarget⟩ := hc
  by_cases hfile : w.fs.tree.IsFile (R ++ [d] ++ [name])
  · obtain ⟨id, hid, rfl⟩ := (h.isFile_iff hd).mp hfile
    obtain ⟨content, hcontent⟩ := FileTree.isFile_iff_content.mp hfile
    obtain ⟨reply, hreply, hserved⟩ := @handleDeletion_served R root w d id c.request c.response pre
      h hd hmethod htarget
    rw [← stepName_of_plain R hd] at hcontent
    obtain ⟨entityIds, fs, hremove, -, hreply'⟩ :=
      handleDeletion_live h.agree hd hcontent hmethod htarget c.response
    rw [hreply', Except.ok.injEq] at hreply
    subst hreply
    obtain ⟨-, hinsert⟩ := removeIdFromEntity_eq_some hremove
    refine ⟨⟨fs, entityIds⟩, ⟨_, by rwa [CrudHandler.Answers, hfaults], rfl⟩, hserved.serving, ?_⟩
    rw [hinsert]
    refine ⟨fun d' hd' => idsOf_insert_ne _ hd', ?_⟩
    rw [idsOf_insert_self, (h.agree.nodup hd).erase_eq_filter]
    refine List.filter_congr fun n _ => ?_
    by_cases hn : n = id <;> simp [hn]
  · -- nothing of this name is an entity: the request is refused
    have hmissing : ¬ (w.fs.pathExists (root ++ '/' :: d ++ '/' :: name) &&
        !w.fs.isDirectory (root ++ '/' :: d ++ '/' :: name)) = true := by
      rw [Bool.and_eq_true, Bool.not_eq_true']
      rintro ⟨hexists, hdir⟩
      obtain ⟨p, hp, hpfile⟩ := FileSystem.isFile_of_exists hexists hdir
      obtain ⟨-, rfl⟩ := h.agree.rootAt.resolve_file hd.2.1 hname hp
      rw [stepName_of_plain R hd] at hpfile
      exact hfile hpfile
    have hreply := handleDeletion_refused c.response hd hname hmethod htarget hmissing
    refine ⟨w, ⟨_, by rwa [CrudHandler.Answers, hfaults], rfl⟩, h, fun _ _ => rfl, ?_⟩
    refine (List.filter_eq_self.mpr fun id hid => ?_).symm
    exact decide_eq_true fun heq => hfile ((h.isFile_iff hd).mpr ⟨id, hid, heq⟩)

/-- A request on the ids of a directory goes through, and leaves the other directories alone. -/
lemma onIds (h : Serving R root w) (hd : PlainName d) (hc : c.OnIds d) :
    ∃ w', CrudHandler.Step root w c w' ∧ Serving R root w' ∧
      (∀ d', d' ≠ d → idsOf w'.entityIds d' = idsOf w.entityIds d') ∧
      idsOf w'.entityIds d = c.idsAfter (idsOf w.entityIds d) := by
  rcases hc with hpost | ⟨name, hname, hdelete⟩
  · obtain ⟨w', hreply, hserving, hids⟩ := h.posts hd hpost
    refine ⟨w', ⟨_, hreply, rfl⟩, hserving, fun d' hd' => ?_, ?_⟩
    · rw [hids, idsOf_addIdToEntity_ne hd']
    · rw [hids, idsOf_addIdToEntity_self, getAvailableId_eq]
      simp only [CrudCall.idsAfter, hpost.2.1]
  · obtain ⟨w', hstep, hserving, hother, hids⟩ := h.deletes hd hname hdelete
    refine ⟨w', hstep, hserving, hother, ?_⟩
    obtain ⟨-, hmethod, pre, htarget⟩ := hdelete
    rw [hids]
    simp only [CrudCall.idsAfter, hmethod, htarget, possibleId_append _ hname.2.1]

end Serving

/-! ### Runs -/

/-- Requests on the ids of directories go through, and each directory sees only its own. -/
lemma Serving.exists_run (h : Serving R root w) {cs : List CrudCall}
    (hcs : ∀ c ∈ cs, ∃ d, PlainName d ∧ c.OnIds d) :
    ∃ w', Run (CrudHandler.Step root) w cs w' ∧ Serving R root w' ∧ ∀ d,
      idsOf w'.entityIds d = (cs.filter fun c => c.request.directory = some d).foldl
        (fun ids c => c.idsAfter ids) (idsOf w.entityIds d) := by
  induction cs generalizing w with
  | nil => exact ⟨w, .nil w, h, fun d => rfl⟩
  | cons c cs ih =>
    obtain ⟨d, hd, hc⟩ := hcs c List.mem_cons_self
    obtain ⟨w₁, hstep, hserving, hother, hids⟩ := h.onIds hd hc
    obtain ⟨w', hrun, hserving', hfold⟩ := ih hserving fun c' hc' =>
      hcs c' (List.mem_cons_of_mem c hc')
    refine ⟨w', .cons hstep hrun, hserving', fun d' => ?_⟩
    rw [hfold d', List.filter_cons, hc.directory hd]
    by_cases hdd : d' = d
    · subst hdd
      rw [if_pos (decide_eq_true rfl), List.foldl_cons, hids]
    · rw [if_neg (by simpa using Ne.symm hdd), hother d' hdd]

lemma CrudHandler.Step.unique {w₁ w₂ : CrudState} (h₁ : CrudHandler.Step root w c w₁)
    (h₂ : CrudHandler.Step root w c w₂) : w₁ = w₂ := by
  obtain ⟨reply₁, hreply₁, rfl⟩ := h₁
  obtain ⟨reply₂, hreply₂, rfl⟩ := h₂
  rw [CrudHandler.Answers, hreply₁, Except.ok.injEq] at hreply₂
  rw [hreply₂]

/-- There is a positive `int` that is not an id of an entity in `d`. -/
def HasRoom (R : List Str) (w : CrudState) (d : Str) : Prop :=
  ∃ n ∈ freeIds R w d, n ≤ 2147483647

namespace Serving

lemma mem_freeIds_iff (h : Serving R root w) (hd : PlainName d) {n : CInt} :
    n.val ∈ freeIds R w d ↔ 1 ≤ n ∧ n ∉ idsOf w.entityIds d := by
  have hfile : w.fs.tree.IsFile (R ++ [d] ++ [intToStr n.val]) ↔ n ∈ idsOf w.entityIds d := by
    rw [← stepName_of_plain R hd]
    exact h.agree.isFile_iff hd
  exact and_congr Iff.rfl (not_congr hfile)

/-- The available id is the smallest free one, where the ids are positive and one is free. -/
lemma getAvailableId_isLeast (h : Serving R root w) (hd : PlainName d)
    (hpos : ∀ n ∈ idsOf w.entityIds d, 1 ≤ n) (hroom : HasRoom R w d) :
    IsLeast (freeIds R w d) (getAvailableId w.entityIds d).val := by
  obtain ⟨n, hn, hle⟩ := hroom
  have hlower : ∀ m ∈ freeIds R w d, -2147483648 ≤ m := fun m hm => by
    have := hm.1
    omega
  have hfree := (h.mem_freeIds_iff hd (n := ⟨n, hlower n hn, hle⟩)).mp hn
  obtain ⟨hmem, hleast⟩ := firstGap_isLeast (h.agree.sorted d hd) hpos ⟨_, hfree⟩
  rw [← getAvailableId_eq] at hmem hleast
  refine ⟨(h.mem_freeIds_iff hd).mpr hmem, fun m hm => ?_⟩
  by_cases hmax : m ≤ 2147483647
  · exact hleast ((h.mem_freeIds_iff hd (n := ⟨m, hlower m hm, hmax⟩)).mp hm)
  · exact le_trans (CInt.upper _) (le_of_not_ge hmax)

/-- The ids stay positive as long as each new one is free. -/
lemma positive_of_run (h : Serving R root w) (hd : PlainName d) {cs : List CrudCall}
    (hcs : ∀ c ∈ cs, ∃ d, PlainName d ∧ c.OnIds d) (hrun : Run (CrudHandler.Step root) w cs w')
    (hroom : ∀ cs₁ c₁ w₁, cs₁ ++ [c₁] <+: cs → c₁.Posts d →
      Run (CrudHandler.Step root) w cs₁ w₁ → HasRoom R w₁ d)
    (hpos : ∀ n ∈ idsOf w.entityIds d, 1 ≤ n) :
    Serving R root w' ∧ ∀ n ∈ idsOf w'.entityIds d, 1 ≤ n := by
  induction hrun with
  | nil => exact ⟨h, hpos⟩
  | @cons w w₁ w' c cs hstep hrest ih =>
    obtain ⟨d', hd', hc⟩ := hcs c List.mem_cons_self
    have hnext : Serving R root w₁ ∧ ∀ n ∈ idsOf w₁.entityIds d, 1 ≤ n := by
      rcases hc with hpost | ⟨name, hname, hdelete⟩
      · obtain ⟨w₂, hreply, hserving, hids⟩ := h.posts hd' hpost
        obtain rfl := CrudHandler.Step.unique hstep ⟨_, hreply, rfl⟩
        refine ⟨hserving, fun n hn => ?_⟩
        rw [hids] at hn
        rcases mem_idsOf_addIdToEntity.mp hn with ⟨rfl, rfl⟩ | hn
        · have hleast := h.getAvailableId_isLeast hd hpos
            (hroom [] c w (by simp) hpost (.nil w))
          exact ((h.mem_freeIds_iff hd).mp hleast.1).1
        · exact hpos n hn
      · obtain ⟨w₂, hstep', hserving, hother, hids⟩ := h.deletes hd' hname hdelete
        obtain rfl := hstep.unique hstep'
        refine ⟨hserving, fun n hn => ?_⟩
        by_cases hdd : d = d'
        · subst hdd
          rw [hids] at hn
          exact hpos n (List.mem_of_mem_filter hn)
        · rw [hother d hdd] at hn
          exact hpos n hn
    refine ih hnext.1 (fun c' hc' => hcs c' (List.mem_cons_of_mem c hc')) ?_ hnext.2
    intro cs₁ c₁ w₂ hpre hpost hrun₁
    exact hroom (c :: cs₁) c₁ w₂ (List.cons_prefix_cons.mpr ⟨rfl, hpre⟩) hpost (.cons hstep hrun₁)

end Serving

/-- On an empty root every directory is ready. -/
lemma serving_of_empty (hroot : w.fs.RootAt root R)
    (hempty : ∀ name, w.fs.tree.node (R ++ [name]) = none) (hids : w.entityIds = ∅) :
    Serving R root w := by
  have hbelow : ∀ d name, w.fs.tree.node (R ++ [d] ++ [name]) = none := by
    intro d name
    by_contra hsome
    obtain ⟨x, hx⟩ := Option.ne_none_iff_exists'.mp hsome
    have hdir := FileTree.isDir_of_node hx
    rw [FileTree.IsDir, hempty d] at hdir
    cases hdir
  refine ⟨⟨⟨hroot, ?_⟩, ?_⟩, ⟨?_, ?_⟩⟩
  · intro d hd name
    rw [hids]
    refine iff_of_false ?_ (by rintro ⟨id, hid, -⟩; cases hid)
    rintro ⟨content, hcontent⟩
    rw [stepName_of_plain R hd, hbelow] at hcontent
    cases hcontent
  · intro d _
    rw [hids]
    exact List.Pairwise.nil
  · rintro d - ⟨content, hcontent⟩
    rw [hempty] at hcontent
    cases hcontent
  · intro d _ id hdir
    rw [FileTree.IsDir, hbelow] at hdir
    cases hdir

/-- From an empty root on, every `POST` to a directory is answered with the smallest positive integer
that is not an id of an entity in it, and with the same one if the other directories are left out,
as long as the `POST`s to the directory find a free `int`. -/
theorem handleCreation_least (hroot : w₀.fs.RootAt root R)
    (hempty : ∀ name, w₀.fs.tree.node (R ++ [name]) = none) (hids : w₀.entityIds = ∅)
    {cs : List CrudCall} (hcs : ∀ c ∈ cs, ∃ d, PlainName d ∧ c.OnIds d) (hd : PlainName d)
    (hc : c.Posts d)
    (hroom : ∀ cs₁ c₁ w₁, cs₁ ++ [c₁] <+: cs ++ [c] → c₁.Posts d →
      Run (CrudHandler.Step root) w₀ cs₁ w₁ → HasRoom R w₁ d) :
    ∃ w reply, ∃ k : CInt, Run (CrudHandler.Step root) w₀ cs w ∧
      CrudHandler.Answers root w c reply ∧ reply.status = .created ∧
      reply.response.body = entityText "Created".toList k ∧ IsLeast (freeIds R w d) k.val ∧
      ∃ w' reply', Run (CrudHandler.Step root) w₀
          (cs.filter fun c => c.request.directory = some d) w' ∧
        CrudHandler.Answers root w' c reply' ∧ reply'.status = .created ∧
        reply'.response.body = entityText "Created".toList k := by
  have hstart := serving_of_empty hroot hempty hids
  obtain ⟨w, hrun, hserving, hfold⟩ := hstart.exists_run hcs
  have hpos : ∀ n ∈ idsOf w₀.entityIds d, 1 ≤ n := by
    rw [hids]
    exact fun n hn => absurd hn List.not_mem_nil
  obtain ⟨-, hpos'⟩ := hstart.positive_of_run hd hcs hrun
    (fun cs₁ c₁ w₁ hpre => hroom cs₁ c₁ w₁ (hpre.trans (List.prefix_append cs [c]))) hpos
  obtain ⟨w₁, hreply, -⟩ := hserving.posts hd hc
  have hleast := hserving.getAvailableId_isLeast hd hpos'
    (hroom cs c w (List.prefix_refl _) hc hrun)
  -- the run without the other directories comes to the same ids
  have hcs' : ∀ c ∈ cs.filter fun c => c.request.directory = some d, ∃ d, PlainName d ∧ c.OnIds d :=
    fun c hc => hcs c (List.mem_of_mem_filter hc)
  obtain ⟨w', hrun', hserving', hfold'⟩ := hstart.exists_run hcs'
  obtain ⟨w₂, hreply', -⟩ := hserving'.posts hd hc
  have hsame : getAvailableId w'.entityIds d = getAvailableId w.entityIds d := by
    rw [getAvailableId_eq, getAvailableId_eq, hfold, hfold', List.filter_filter]
    simp only [Bool.and_self]
  rw [hsame] at hreply'
  exact ⟨w, _, _, hrun, hreply, rfl, rfl, hleast, w', _, hrun', hreply', rfl, rfl⟩

/-- `POST /d`. -/
def postD : CrudCall := ⟨⟨.post, "/d".toList, ['x'], []⟩, {}, {}⟩

lemma posts_postD : postD.Posts ['d'] := ⟨rfl, rfl, [], rfl⟩

theorem handleCreation_least_second :
    ∃ w reply, ∃ k : CInt, Run (CrudHandler.Step ['r']) emptyDisk [postD] w ∧
      CrudHandler.Answers ['r'] w postD reply ∧ reply.status = .created ∧
      reply.response.body = entityText "Created".toList k ∧
      IsLeast (freeIds [['r']] w ['d']) k.val ∧
      ∃ w' reply', Run (CrudHandler.Step ['r']) emptyDisk
          ([postD].filter fun c => c.request.directory = some ['d']) w' ∧
        CrudHandler.Answers ['r'] w' postD reply' ∧ reply'.status = .created ∧
        reply'.response.body = entityText "Created".toList k := by
  refine handleCreation_least agree_emptyDisk.rootAt (fun name => node_emptyDisk (by simp)) rfl ?_
    (by decide) posts_postD ?_
  · intro c hc
    rw [List.mem_singleton.mp hc]
    exact ⟨['d'], by decide, Or.inl posts_postD⟩
  · -- 5 is free before the first request and before the second
    intro cs₁ c₁ w₁ hpre _ hrun
    have hfive : w₁.fs.tree.content [['r'], ['d'], ['5']] = none := by
      cases hrun with
      | nil => rfl
      | @cons _ _ _ a cs₁ hstep hrest =>
        obtain ⟨rfl, hpre'⟩ := List.cons_prefix_cons.mp hpre
        obtain rfl : cs₁ = [] := by simpa using hpre'.length_le
        obtain ⟨reply, hreply, rfl⟩ := hstep
        obtain rfl := Except.ok.inj hreply
        cases hrest
        rfl
    exact ⟨5, ⟨by decide, FileTree.content_eq_none_iff.mp hfive⟩, by decide⟩

/-- As long as there is an `int` for them, `POST`s to one directory take the ids 1, 2, 3 and so
on. -/
lemma Serving.mem_idsOf_replicate (h : Serving R root w) (hd : PlainName d) (hc : c.Posts d)
    (hnone : idsOf w.entityIds d = []) {n : Nat} (hn : n ≤ 2147483647)
    (hrun : Run (CrudHandler.Step root) w (List.replicate n c) w') :
    Serving R root w' ∧ ∀ m, m ∈ idsOf w'.entityIds d ↔ 1 ≤ m ∧ m.val ≤ n := by
  induction n generalizing w' with
  | zero =>
    cases hrun
    refine ⟨h, fun m => ?_⟩
    rw [hnone]
    refine iff_of_false List.not_mem_nil ?_
    rintro ⟨hone, hle⟩
    exact absurd (le_trans (CInt.val_le_iff.mpr hone) hle) (by decide)
  | succ n ih =>
    rw [List.replicate_succ'] at hrun
    obtain ⟨w₁, hrun₁, hlast⟩ := hrun.of_append
    cases hlast with
    | cons hstep hnil =>
      cases hnil
      obtain ⟨hserving, hmem⟩ := ih (by omega) hrun₁
      obtain ⟨w₂, hreply, hserving', hids⟩ := hserving.posts hd hc
      obtain rfl := hstep.unique ⟨_, hreply, rfl⟩
      have hfree : ∀ m : CInt, m.val ∈ freeIds R w₁ d ↔ (n : Int) < m.val := by
        intro m
        rw [hserving.mem_freeIds_iff hd, hmem, ← CInt.val_le_iff, CInt.val_one]
        omega
      have hnext : (n + 1 : Int) ∈ freeIds R w₁ d :=
        (hfree ⟨n + 1, by omega, by omega⟩).mpr (Int.lt_succ n)
      obtain ⟨hgap, hleast⟩ := hserving.getAvailableId_isLeast hd
        (fun m hm => ((hmem m).mp hm).1) ⟨_, hnext, by omega⟩
      have hgap' := (hfree _).mp hgap
      have hleast' := hleast hnext
      refine ⟨hserving', fun m => ?_⟩
      rw [hids, mem_idsOf_addIdToEntity, and_iff_right rfl, hmem, CInt.ext_iff, ← CInt.val_le_iff,
        CInt.val_one]
      omega

/-- The `POST` behind 2^31 - 1 others is answered with an id that is in use or not positive. -/
theorem not_least_full :
    emptyDisk.fs.RootAt ['r'] [['r']] ∧ (∀ name, emptyDisk.fs.tree.node ([['r']] ++ [name]) = none) ∧
    emptyDisk.entityIds = ∅ ∧ PlainName ['d'] ∧ postD.Posts ['d'] ∧
    ∃ w reply, Run (CrudHandler.Step ['r']) emptyDisk (List.replicate 2147483647 postD) w ∧
      CrudHandler.Answers ['r'] w postD reply ∧ reply.status = .created ∧
      ¬ ∃ k : CInt, reply.response.body = entityText "Created".toList k ∧
        IsLeast (freeIds [['r']] w ['d']) k.val := by
  have hempty : ∀ name, emptyDisk.fs.tree.node ([['r']] ++ [name]) = none :=
    fun name => node_emptyDisk (by simp)
  have hd : PlainName ['d'] := by decide
  have hstart := serving_of_empty agree_emptyDisk.rootAt hempty rfl
  have hcs : ∀ c ∈ List.replicate 2147483647 postD, ∃ d, PlainName d ∧ c.OnIds d := by
    intro c hc
    rw [List.eq_of_mem_replicate hc]
    exact ⟨['d'], hd, Or.inl posts_postD⟩
  obtain ⟨w, hrun, -⟩ := hstart.exists_run hcs
  obtain ⟨hserving, hmem⟩ := hstart.mem_idsOf_replicate hd posts_postD rfl le_rfl hrun
  obtain ⟨w', hreply, -⟩ := hserving.posts hd posts_postD
  refine ⟨agree_emptyDisk.rootAt, hempty, rfl, hd, posts_postD, w, _, hrun, hreply, rfl, ?_⟩
  rintro ⟨k, -, hfree, -⟩
  obtain ⟨hone, hnot⟩ := (hserving.mem_freeIds_iff hd).mp hfree
  exact hnot ((hmem k).mpr ⟨hone, k.upper⟩)

end SocialNetworkApp
