import SocialNetworkApp.Crud.SameEntity
import SocialNetworkApp.Session.Segmentation

/-!
# Bodies on their way to the handler

A session puts new lines behind every body that is not empty, so that a handler stores more than was
sent, and more with every time that what was read is written back.
-/

namespace SocialNetworkApp

open SocialNetworkApp.Core

/-! ### Putting and getting -/

/-- The target ends in a directory and an id as it is printed. -/
def NamesEntity {R : List Str} (D : Directories R) (target : Str) : Prop :=
  ∃ pre dir id, dir ∈ D.names ∧ target = pre ++ '/' :: dir ++ '/' :: toStr id

/-- Behind a `PUT` of an entity that a `CrudHandler` acknowledges, a `GET` returns `content`. -/
def GivesBack (put : Request) (content : Str) : Prop :=
  ∀ {R : List Str} (D : Directories R) (root : Str) (faults : Faults) (res : Response)
    (w : CrudState) (reply : Reply CrudState), Agree D root w → NamesEntity D put.target →
    CrudHandler.handleRequest root faults put res w = .ok reply →
    (reply.status = .ok ∨ reply.status = .created) →
      ∀ get res', get.method = .get → get.target = put.target →
        ∃ reply', CrudHandler.handleRequest root {} get res' reply.state = .ok reply' ∧
          reply'.status = .ok ∧ reply'.response.body = content

/-- What is stored is the body. -/
lemma givesBack_body {put : Request} (hput : put.method = .put) : GivesBack put put.body := by
  intro R D root faults res w reply hagree ⟨pre, dir, id, hdir, htarget⟩ hreply hok get res' hget hsame
  have hslash := D.slash_free dir hdir
  have hupdate : handleUpdate root faults put res w = .ok reply := by
    simpa only [CrudHandler.handleRequest, hput] using hreply
  have hnames : ∀ p ∈ updateTarget put.target, p.1 ∈ D.names := by
    intro p hp
    rw [Option.mem_def, htarget] at hp
    rw [(updateTarget_append pre hslash hp).1]
    exact hdir
  have hgood : reply.status ≠ .bad_request := by
    rcases hok with hok | hok <;> simp [hok]
  obtain ⟨d, id', hcut, hd, hagree', hcontent⟩ := handleUpdate_written hagree hnames hupdate hgood
  rw [htarget] at hcut
  obtain ⟨rfl, rfl⟩ := updateTarget_append pre hslash hcut
  have hlive : reply.state.fs.tree.content (stepName R d ++ [toStr id']) = some put.body := by
    rw [hcontent, if_pos rfl]
  exact ⟨_, handleGet_live hagree' hd hlive hget (hsame.trans htarget) res', rfl, rfl⟩

namespace WireRequest

variable {W : Type} {env : Environment W} {w : W} {r : WireRequest}

/-- However the request and what comes behind it are cut into reads, one request is dispatched, its
body is the one that was sent, and a `PUT` gives it back. -/
def BodyUnchanged (env : Environment W) (w : W) (r : WireRequest) : Prop :=
  ∀ ip chunks rest, IsCut chunks (r.text ++ rest) →
    ∃ request, (Session.run env w (chunks.map (deliver ip))).dispatched = [request] ∧
      request.body = r.body ∧ (r.method = "PUT".toList → GivesBack request r.body)

/-- New lines behind a body that is not empty make it another one. -/
lemma terminated_eq_self_iff (body : Str) : Session.terminated body = body ↔ body = [] := by
  rw [Session.terminated]
  split_ifs with hnil
  · exact iff_of_true hnil.symm hnil
  · refine iff_of_false (fun h => ?_) hnil
    exact List.cons_ne_nil _ _ (List.append_right_eq_self.mp h)

/-- The body reaches the handler as it was sent exactly if it is empty. -/
theorem bodyUnchanged_iff (hparse : r.ParsedBy env) (hbody : Session.hasBody r.method)
    (hspelled : r.Spelled) : BodyUnchanged env w r ↔ r.body = [] := by
  constructor
  · intro hunchanged
    have hcut : IsCut (bytewise r.text) (r.text ++ []) := by
      rw [List.append_nil]
      exact isCut_bytewise r.text
    obtain ⟨request, hrequest, hsame, -⟩ := hunchanged [] _ [] hcut
    by_cases hlen : r.body.length ≤ 2147483647
    · obtain ⟨s, hready, htake, hrun⟩ := @run_spelled W env w r [] hbody hspelled hlen _ _ hcut.bytes
      obtain ⟨fields, hdispatched⟩ := dispatched_respond hparse hready.requestHeader hready.dispatched
      rw [hrun, hdispatched, htake] at hrequest
      obtain rfl := List.singleton_inj.mp hrequest
      exact (terminated_eq_self_iff r.body).mp hsame
    · rw [dispatched_of_long hbody hspelled hlen hcut.bytes] at hrequest
      cases hrequest
  · intro hnil ip chunks rest hcut
    obtain ⟨s, hready, htake, hrun⟩ := @run_spelled W env w r ip hbody hspelled
      (by rw [hnil]; exact Nat.zero_le _) chunks rest hcut.bytes
    obtain ⟨fields, hdispatched⟩ := dispatched_respond hparse hready.requestHeader hready.dispatched
    have hsame : Session.terminated r.body = r.body := (terminated_eq_self_iff r.body).mpr hnil
    rw [htake, hsame] at hdispatched
    refine ⟨_, hrun ▸ hdispatched, rfl, fun hput => givesBack_body ?_⟩
    rw [hput]
    rfl

theorem bodyUnchanged_iff_spelledByte :
    BodyUnchanged (reader spelledByte) () spelledByte ↔ spelledByte.body = [] :=
  bodyUnchanged_iff (parsedBy_reader spelledByte) (Or.inl rfl) ⟨_, List.mem_singleton_self _, rfl⟩

/-- A `PUT` of the text to the entity 1 of the directory `d`. -/
def putText (text : Str) : WireRequest where
  method := "PUT".toList
  target := "/d/1".toList
  headers := [("Content-Length".toList, ' ' :: Nat.toDigits 10 text.length)]
  body := text
  method_word := ⟨by decide, List.forall_iff_forall_mem.mp (by decide)⟩
  target_word := ⟨by decide, List.forall_iff_forall_mem.mp (by decide)⟩
  headers_wf header hheader := by
    have hname : ∀ c ∈ "Content-Length".toList, c ≠ ':' ∧ c ≠ '\r' ∧ c ≠ '\n' :=
      List.forall_iff_forall_mem.mp (by decide)
    obtain rfl := List.mem_singleton.mp hheader
    refine ⟨List.cons_ne_nil _ _, hname, fun c hc => ?_⟩
    rcases List.mem_cons.mp hc with rfl | hc
    · decide
    · constructor <;> rintro rfl <;> exact absurd (isDigit_of_mem_toDigits hc) (by decide)
  length := ⟨_, List.filter_cons_of_pos rfl, [' '], Nat.toDigits 10 text.length, [],
    (List.append_nil _).symm, List.forall_iff_forall_mem.mp (by decide), Nat.toDigits_ne_nil,
    fun _ hc => isDigit_of_mem_toDigits hc, Nat.ofDigitChars_ten_toDigits⟩

/-- The text is put, cut into single bytes, and the entity is got. -/
def putAndGet (w : CrudState) (text : Str) : Except Exception (Str × CrudState) :=
  (Session.run (reader (putText text)) ()
    ((bytewise (putText text).text).map (deliver []))).dispatched.foldlM (fun last put => do
      let stored ← CrudHandler.handleRequest ['r'] {} put {} last.2
      let got ← CrudHandler.handleRequest ['r'] {} ⟨.get, put.target, [], []⟩ {} stored.state
      pure (got.response.body, got.state)) ([], w)

/-- One byte comes back as five, and when these are written back, they come back as nine. -/
theorem not_bodyUnchanged :
    (putAndGet emptyDisk ['x']).map Prod.fst = .ok "x\r\n\r\n".toList ∧
      (putAndGet emptyDisk ['x'] >>= fun got => putAndGet got.2 got.1).map Prod.fst =
        .ok "x\r\n\r\n\r\n\r\n".toList ∧
      (putText ['x']).ParsedBy (reader (putText ['x'])) ∧
      ¬ BodyUnchanged (reader (putText ['x'])) () (putText ['x']) := by
  refine ⟨by decide +kernel, by decide +kernel, parsedBy_reader _, fun hunchanged => ?_⟩
  have hcut : IsCut (bytewise (putText ['x']).text) ((putText ['x']).text ++ []) := by
    rw [List.append_nil]
    exact isCut_bytewise _
  obtain ⟨request, hrequest, hbody, -⟩ := hunchanged [] _ [] hcut
  have hdispatched : (Session.run (reader (putText ['x'])) ()
      ((bytewise (putText ['x']).text).map (deliver []))).dispatched =
        [⟨.put, "/d/1".toList, "x\r\n\r\n".toList, [("Content-Length".toList, ['1'])]⟩] := by
    decide +kernel
  obtain rfl := List.singleton_inj.mp (hdispatched.symm.trans hrequest)
  cases hbody

end WireRequest

end SocialNetworkApp
