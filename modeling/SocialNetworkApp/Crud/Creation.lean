import SocialNetworkApp.Core.Run
import SocialNetworkApp.Crud.Agreement

/-!
# Where a new entity is stored

Along any run of requests on one handler a new entity gets a fresh id, unless its directory holds
both the id 1 and an id below 1: then it is written over entity 1.
-/

namespace SocialNetworkApp

open SocialNetworkApp.Core

/-- A request as it reaches the handler: with the response to fill, and the failures of the file
system it will meet. -/
structure CrudCall where
  request : Request
  response : Response := {}
  faults : Faults := {}

namespace CrudHandler

/-- The handler returns from a call. -/
def Answers (root : Str) (w : CrudState) (c : CrudCall) (reply : Reply CrudState) : Prop :=
  handleRequest root c.faults c.request c.response w = .ok reply

/-- One request on the handler. -/
def Step (root : Str) (w : CrudState) (c : CrudCall) (w' : CrudState) : Prop :=
  ∃ reply, Answers root w c reply ∧ reply.state = w'

end CrudHandler

/-- The file of a deleted entity can be removed, and no directory of `D` is addressed by another
name. -/
def CrudCall.Within {R : List Str} (D : Directories R) (c : CrudCall) : Prop :=
  c.faults.removal = false ∧ ∀ d ∈ c.request.directory, d ∈ D.names ∨ D.Apart d

/-- The plain directories have no other names. -/
lemma CrudCall.within_plain {R : List Str} {c : CrudCall} (h : c.faults.removal = false) :
    c.Within (Directories.plain R) := by
  refine ⟨h, ?_⟩
  intro d hd
  by_cases hplain : PlainName d
  · exact Or.inl hplain
  · exact Or.inr (Directories.apart_plain (Request.slash_not_mem_directory hd) hplain)

variable {R : List Str} {D : Directories R} {root : Str} {w w' : CrudState}

lemma Agree.step (h : Agree D root w) {c : CrudCall} (hc : c.Within D)
    (hstep : CrudHandler.Step root w c w') : Agree D root w' := by
  obtain ⟨reply, hreply, rfl⟩ := hstep
  rcases handleRequest_change hc.1 hreply with hsame | ⟨d, hd, hchange⟩
  · rwa [hsame]
  · rcases hc.2 d hd with hmem | hapart
    · exact h.change hmem hchange
    · exact h.change_apart (Request.slash_not_mem_directory hd) hapart hchange

theorem Agree.run (h : Agree D root w) {cs : List CrudCall} (hcs : ∀ c ∈ cs, c.Within D)
    (hrun : Run (CrudHandler.Step root) w cs w') : Agree D root w' :=
  hrun.invariant (fun h hc hstep => h.step hc hstep) hcs h

lemma entityText_inj {what : Str} {m n : CInt} (h : entityText what m = entityText what n) :
    m = n := by
  simpa [entityText] using h

/-- A `POST` that is answered 201 has written the body under the id it reports, and no other
file. -/
lemma handleCreation_created (h : Agree D root w) {d : Str} (hd : d ∈ D.names) {i : Nat}
    {faults : Faults} {req : Request} {res : Response}
    (hsegment : lastSegment req.target = some (i, d)) {reply : Reply CrudState}
    (hreply : handleCreation root faults req res w = .ok reply)
    (hcreated : reply.status = .created) :
    reply.response = prepareCreatedResponse res (getAvailableId w.entityIds d) ∧
      reply.state.entityIds = addIdToEntity w.entityIds d (getAvailableId w.entityIds d) ∧
      ∀ p, reply.state.fs.tree.content p =
        if p = stepName R d ++ [toStr (getAvailableId w.entityIds d)] then some req.body
        else w.fs.tree.content p := by
  rcases handleCreation_cases hreply with
    ⟨hbad, -⟩ | ⟨i', d', fs, fs', hsegment', hdir, hwrite, rfl⟩
  · rw [hbad] at hcreated
    cases hcreated
  · obtain ⟨rfl, rfl⟩ : i = i' ∧ d = d' := by simpa [hsegment] using hsegment'
    refine ⟨rfl, rfl, ?_⟩
    intro p
    have hslash := D.slash_free d hd
    have hroot : fs.RootAt root R ∧ ∀ q, fs.tree.content q = w.fs.tree.content q := by
      rcases hdir with rfl | hdir
      · exact ⟨h.rootAt, fun q => rfl⟩
      · obtain ⟨hfile, hsets⟩ := h.rootAt.createDirectory hslash hdir
        exact ⟨h.rootAt.sets hsets fun _ => rfl, hsets.content_dir hfile⟩
    obtain ⟨-, hsets⟩ := hroot.1.writeFile hslash hwrite
    rw [hsets.content_file, hroot.2]

/-- A `POST` to a directory is answered with a fresh id, and leaves all files as they were, exactly
when the directory does not hold both 1 and an id below 1. -/
theorem handleCreation_fresh_iff {w₀ : CrudState} (h : Agree D root w₀) {cs : List CrudCall}
    (hcs : ∀ c ∈ cs, c.Within D) (hrun : Run (CrudHandler.Step root) w₀ cs w) {c : CrudCall}
    (hpost : c.request.method = .post) {i : Nat} {d : Str}
    (hsegment : lastSegment c.request.target = some (i, d)) (hd : d ∈ D.names)
    {reply : Reply CrudState} (hreply : CrudHandler.Answers root w c reply)
    (hcreated : reply.status = .created) :
    (∃ k, reply.response.body = entityText "Created".toList k ∧
        ¬ w.fs.tree.IsFile (stepName R d ++ [toStr k]) ∧
        ∀ p content, w.fs.tree.content p = some content →
          reply.state.fs.tree.content p = some content) ↔
      ¬ (1 ∈ idsOf w.entityIds d ∧ ∃ n ∈ idsOf w.entityIds d, n ≤ 0) := by
  have hagree := h.run hcs hrun
  simp only [CrudHandler.Answers, CrudHandler.handleRequest, hpost] at hreply
  obtain ⟨hresponse, -, hcontent⟩ := handleCreation_created hagree hd hsegment hreply hcreated
  rw [hresponse, ← getAvailableId_not_mem_iff (hagree.sorted d hd), ← hagree.isFile_iff hd]
  constructor
  · rintro ⟨k, hk, hfresh, -⟩
    rwa [entityText_inj (show entityText _ _ = entityText _ k from hk)]
  · intro hfresh
    refine ⟨_, rfl, hfresh, ?_⟩
    intro p content hp
    rw [hcontent]
    split_ifs with heq
    · subst heq
      rw [FileTree.content_eq_none_iff.mpr hfresh] at hp
      cases hp
    · exact hp

/-- A `POST` behind a `PUT` of entity 0. -/
theorem handleCreation_fresh_iff_zero :
    ∃ w reply, Run (CrudHandler.Step ['r']) emptyDisk
        [⟨⟨.put, "/d/0".toList, ['x'], []⟩, {}, {}⟩] w ∧
      CrudHandler.Answers ['r'] w ⟨⟨.post, "/d".toList, ['y'], []⟩, {}, {}⟩ reply ∧
      ((∃ k, reply.response.body = entityText "Created".toList k ∧
          ¬ w.fs.tree.IsFile (stepName [['r']] ['d'] ++ [toStr k]) ∧
          ∀ p content, w.fs.tree.content p = some content →
            reply.state.fs.tree.content p = some content) ↔
        ¬ (1 ∈ idsOf w.entityIds ['d'] ∧ ∃ n ∈ idsOf w.entityIds ['d'], n ≤ 0)) := by
  refine ⟨_, _, .cons ⟨_, rfl, rfl⟩ (.nil _), rfl, ?_⟩
  refine handleCreation_fresh_iff agree_emptyDisk
    (show ∀ c ∈ [(⟨⟨.put, "/d/0".toList, ['x'], []⟩, {}, {}⟩ : CrudCall)],
      c.Within (Directories.plain [['r']]) from ?_)
    (.cons ⟨_, rfl, rfl⟩ (.nil _))
    (show Request.method (CrudCall.request ⟨⟨.post, "/d".toList, ['y'], []⟩, {}, {}⟩) = .post from rfl)
    (show _ = some (0, ['d']) from rfl) (show PlainName ['d'] by decide) rfl rfl
  intro c hc
  obtain rfl := List.mem_singleton.mp hc
  exact CrudCall.within_plain rfl

/-- Behind a `PUT` of entity 0 and one of entity 1, a `POST` writes over entity 1. -/
theorem handleCreation_overwrites :
    Agree (Directories.plain [['r']]) ['r'] emptyDisk ∧
    ∃ w reply, Run (CrudHandler.Step ['r']) emptyDisk
        [⟨⟨.put, "/d/0".toList, ['x'], []⟩, {}, {}⟩, ⟨⟨.put, "/d/1".toList, ['y'], []⟩, {}, {}⟩] w ∧
      CrudHandler.Answers ['r'] w ⟨⟨.post, "/d".toList, ['z'], []⟩, {}, {}⟩ reply ∧
      reply.status = .created ∧ reply.response.body = entityText "Created".toList 1 ∧
      w.fs.tree.content [['r'], ['d'], ['1']] = some ['y'] ∧
      reply.state.fs.tree.content [['r'], ['d'], ['1']] = some ['z'] :=
  ⟨agree_emptyDisk, _, _, .cons ⟨_, rfl, rfl⟩ (.cons ⟨_, rfl, rfl⟩ (.nil _)), rfl, rfl, rfl, rfl, rfl⟩

end SocialNetworkApp
