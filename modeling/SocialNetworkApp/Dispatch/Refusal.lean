import SocialNetworkApp.Core.Returns
import SocialNetworkApp.Crud.Change
import SocialNetworkApp.Dispatch.Dispatcher

/-!
# Requests that are refused

A CRUD request is granted when its target can be cut, its numbers read, its entity found where it
has to be there, and its files opened. Any other request with one of the four methods is refused,
with a reason longer than the body the dispatcher puts in its place.
-/

namespace SocialNetworkApp

open SocialNetworkApp.Core

/-- What a request needs to be granted. -/
inductive CrudHandler.Grants (root : Str) (faults : Faults) (req : Request) (w : CrudState) : Prop
  | create {i : Nat} {d : Str} {fs fs' : FileSystem} (hmethod : req.method = .post)
      (hsegment : lastSegment req.target = some (i, d))
      (hdir : ensureDirectory faults w.fs (root ++ '/' :: d) = .ok (some fs))
      (hfile : faults.writeFile fs
        (root ++ '/' :: d ++ '/' :: toStr (getAvailableId w.entityIds d)) req.body = some fs')
  | list {ids : List CInt} (hmethod : req.method = .get)
      (hname : stoi (possibleId req.target) = .error .invalidArgument)
      (hids : w.entityIds.lookup (possibleId req.target) = some ids)
  | retrieve {d content : Str} {id : CInt} (hmethod : req.method = .get)
      (hid : stoi (possibleId req.target) = .ok id)
      (hdir : retrievalDir req.target (findLastOf '/' req.target) = d)
      (hentity : entityExists w.entityIds d id = true)
      (hfile : faults.openRead w.fs (root ++ '/' :: d ++ '/' :: possibleId req.target) =
        .contents content)
  | store {d : Str} {id : CInt} {fs fs' : FileSystem} (hmethod : req.method = .put)
      (htarget : updateTarget req.target = some (d, id))
      (hmissing : faults.isMissing w.fs (root ++ '/' :: d ++ '/' :: toStr id) (root ++ '/' :: d) =
        .ok true)
      (hdir : faults.createDirectory w.fs (root ++ '/' :: d) = some fs)
      (hfile : faults.writeFile fs (root ++ '/' :: d ++ '/' :: toStr id) req.body = some fs')
  | overwrite {d : Str} {id : CInt} {fs : FileSystem} (hmethod : req.method = .put)
      (htarget : updateTarget req.target = some (d, id))
      (hthere : faults.isMissing w.fs (root ++ '/' :: d ++ '/' :: toStr id) (root ++ '/' :: d) =
        .ok false)
      (hfile : faults.writeFile w.fs (root ++ '/' :: d ++ '/' :: toStr id) req.body = some fs)
  | delete {d name both : Str} {id : CInt} {entityIds : EntityIds} {fs : FileSystem}
      (hmethod : req.method = .delete_)
      (htarget : deletionTarget req.target = some (d, name, both))
      (hthere : faults.isFile w.fs (root ++ '/' :: both) = .ok true) (hid : stoi name = .ok id)
      (hremove : removeIdFromEntity w.entityIds d id = some entityIds)
      (hfile : faults.remove w.fs (root ++ '/' :: both) = some fs)

/-- The status is that of an error, and the announced length longer than what the dispatcher will
answer. -/
def Reply.Refusal {S : Type} (reply : Reply S) : Prop :=
  ∃ body n, reply.status.errorBody = some body ∧ reply.response.contentLength = some n ∧
    body.length < n

/-- The status is not that of an error, and the announced length is right. -/
def Reply.Success {S : Type} (reply : Reply S) : Prop :=
  reply.status.errorBody = none ∧ reply.response.Framed

lemma Reply.Refusal.not_success {S : Type} {reply : Reply S} (h : reply.Refusal) :
    ¬ reply.Success := by
  rintro ⟨hnone, -⟩
  obtain ⟨body, n, hbody, -⟩ := h
  rw [hnone] at hbody
  cases hbody

section

variable {root : Str} {faults : Faults} {req : Request} {res : Response} {w : CrudState}

lemma refusal_refuse {reason : Str} (h : 19 < reason.length) : (refuse res reason w).Refusal :=
  ⟨_, reason.length, rfl, rfl, h⟩

lemma refusal_refuse_append {reason : Str} (rest : Str) (h : 19 < reason.length) :
    (refuse res (reason ++ rest) w).Refusal := by
  apply refusal_refuse
  rw [List.length_append]
  exact Nat.lt_add_right _ h

/-! ### Granted requests -/

lemma success_of_fill {S : Type} {status : Status} (contentType body : Str) (w : S)
    (hstatus : status.errorBody = none) :
    (⟨status, res.fill contentType body, w⟩ : Reply S).Success :=
  ⟨hstatus, Response.framed_fill _ _ _⟩

/-- A `PUT` whose target can be cut. -/
lemma handleUpdate_of_target {d : Str} {id : CInt} (h : updateTarget req.target = some (d, id)) :
    handleUpdate root faults req res w = (do
      if ← faults.isMissing w.fs (root ++ '/' :: d ++ '/' :: toStr id) (root ++ '/' :: d) then
        match faults.createDirectory w.fs (root ++ '/' :: d) with
        | none => .ok (refuse res "Creation of directory for Entity failed.".toList w)
        | some fs =>
          match faults.writeFile fs (root ++ '/' :: d ++ '/' :: toStr id) req.body with
          | some fs =>
            .ok ⟨.created, prepareCreatedResponse res id, fs, addIdToEntity w.entityIds d id⟩
          | none =>
            .ok (refuse res ("Failed to overwrite the file at : ".toList ++
              (root ++ '/' :: d ++ '/' :: toStr id)) ⟨fs, w.entityIds⟩)
      else
        match faults.writeFile w.fs (root ++ '/' :: d ++ '/' :: toStr id) req.body with
        | some fs => .ok ⟨.ok, prepareUpdateResponse res id, fs, w.entityIds⟩
        | none =>
          .ok (refuse res ("Failed to overwrite the file at : ".toList ++
            (root ++ '/' :: d ++ '/' :: toStr id)) w)) := by
  unfold updateTarget at h
  cases hsegment : lastSegment req.target with
  | none => simp [hsegment] at h
  | some segment =>
    obtain ⟨i, name⟩ := segment
    simp only [hsegment] at h
    cases hid : stoi name with
    | error e => simp [hid] at h
    | ok n =>
      simp only [hid, Option.map_eq_some_iff, Prod.mk.injEq] at h
      obtain ⟨⟨j, d'⟩, hdir, rfl, rfl⟩ := h
      rw [handleUpdate]
      simp only [hsegment, hid]
      exact hdir ▸ rfl

/-- A request that has what it needs succeeds. -/
lemma CrudHandler.Grants.success (h : Grants root faults req w) :
    ∃ reply, handleRequest root faults req res w = .ok reply ∧ reply.Success := by
  cases h with
  | @create i d fs fs' hmethod hsegment hdir hfile =>
    refine ⟨⟨.created, prepareCreatedResponse res (getAvailableId w.entityIds d), fs',
      addIdToEntity w.entityIds d (getAvailableId w.entityIds d)⟩, ?_, success_of_fill _ _ _ rfl⟩
    rw [handleRequest, hmethod]
    simp only [handleCreation, hsegment, hdir, ok_bind, hfile]
  | list hmethod hname hids =>
    have hreply : handleRequest root faults req res w = .ok (listEntities req res w) := by
      rw [handleRequest, hmethod]
      simp only [handleGet, endsWithId, hname]
    refine ⟨_, hreply, ?_⟩
    simp only [listEntities, hids]
    exact success_of_fill _ _ _ rfl
  | @retrieve d content id hmethod hid hdir hentity hfile =>
    refine ⟨⟨.ok, res.fill "application/json".toList content, w⟩, ?_, success_of_fill _ _ _ rfl⟩
    rw [handleRequest, hmethod]
    simp only [handleGet, endsWithId, hid, retrieveEntity, hdir, hentity, hfile, Bool.not_true,
      Bool.false_eq_true, if_false]
  | @store d id fs fs' hmethod htarget hmissing hdir hfile =>
    refine ⟨⟨.created, prepareCreatedResponse res id, fs', addIdToEntity w.entityIds d id⟩, ?_,
      success_of_fill _ _ _ rfl⟩
    rw [handleRequest, hmethod]
    simp only [handleUpdate_of_target htarget, hmissing, ok_bind, hdir, hfile, if_true]
  | @overwrite d id fs hmethod htarget hthere hfile =>
    refine ⟨⟨.ok, prepareUpdateResponse res id, fs, w.entityIds⟩, ?_, success_of_fill _ _ _ rfl⟩
    rw [handleRequest, hmethod]
    simp only [handleUpdate_of_target htarget, hthere, ok_bind, hfile, Bool.false_eq_true,
      if_false]
  | @delete d name both id entityIds fs hmethod htarget hthere hid hremove hfile =>
    refine ⟨⟨.ok, prepareDeletedResponse res id, fs, entityIds⟩, ?_, success_of_fill _ _ _ rfl⟩
    rw [handleRequest, hmethod]
    simp only [handleDeletion, htarget, hthere, ok_bind, hid, hremove, hfile, if_true]

/-! ### All requests -/

/-- What a reply to a request with one of the four methods may be. -/
def Reply.Decides {S : Type} (reply : Reply S) (granted : Prop) : Prop :=
  reply.Refusal ∨ reply.Success ∧ granted

lemma handleCreation_decides (hmethod : req.method = .post) :
    Returns (handleCreation root faults req res w) fun reply =>
      reply.Decides (CrudHandler.Grants root faults req w) := by
  unfold handleCreation
  cases hsegment : lastSegment req.target with
  | none => exact .ok (Or.inl (refusal_refuse (by decide)))
  | some segment =>
    obtain ⟨i, d⟩ := segment
    refine .bind_of_eq ?_
    intro made hdir
    cases made with
    | none => exact .ok (Or.inl (refusal_refuse (by decide)))
    | some fs =>
      simp only
      cases hfile : faults.writeFile fs
          (root ++ '/' :: d ++ '/' :: toStr (getAvailableId w.entityIds d)) req.body with
      | none => exact .ok (Or.inl (refusal_refuse_append _ (by decide)))
      | some fs' =>
        exact .ok (Or.inr ⟨success_of_fill _ _ _ rfl, .create hmethod hsegment hdir hfile⟩)

lemma handleGet_decides (hmethod : req.method = .get) :
    Returns (handleGet root faults req res w) fun reply =>
      reply.Decides (CrudHandler.Grants root faults req w) := by
  unfold handleGet endsWithId
  cases hid : stoi (possibleId req.target) with
  | error e =>
    cases e with
    | outOfRange => exact .error
    | invalidArgument =>
      apply Returns.ok
      cases hids : w.entityIds.lookup (possibleId req.target) with
      | none =>
        simp only [listEntities, hids]
        apply Or.inl
        apply refusal_refuse
        rw [List.length_append, List.length_append]
        have hbefore : "Entity dir: ".toList.length = 12 := rfl
        have hbehind : " does not exist.".toList.length = 16 := rfl
        omega
      | some ids =>
        simp only [listEntities, hids]
        exact Or.inr ⟨success_of_fill _ _ _ rfl, .list hmethod hid hids⟩
  | ok id =>
    simp only [retrieveEntity, hid]
    cases hentity : entityExists w.entityIds
        (retrievalDir req.target (findLastOf '/' req.target)) id with
    | false =>
      apply Returns.ok
      apply Or.inl
      apply refusal_refuse_append
      rw [List.length_append, List.length_append]
      have hbefore : "Entity with id: ".toList.length = 16 := rfl
      have hbehind : " does not exist in dir ".toList.length = 23 := rfl
      omega
    | true =>
      simp only [Bool.not_true, Bool.false_eq_true, if_false]
      cases hfile : faults.openRead w.fs
          (root ++ '/' :: retrievalDir req.target (findLastOf '/' req.target) ++
            '/' :: possibleId req.target) with
      | closed => exact .ok (Or.inl (refusal_refuse_append _ (by decide)))
      | directory => exact .error
      | contents content =>
        exact .ok (Or.inr ⟨success_of_fill _ _ _ rfl, .retrieve hmethod hid rfl hentity hfile⟩)

/-- A `PUT` whose target cannot be cut. -/
lemma handleUpdate_of_no_target (h : updateTarget req.target = none) :
    Returns (handleUpdate root faults req res w) Reply.Refusal := by
  unfold updateTarget at h
  unfold handleUpdate
  cases hsegment : lastSegment req.target with
  | none => exact .ok (refusal_refuse (by decide))
  | some segment =>
    obtain ⟨i, name⟩ := segment
    simp only [hsegment] at h ⊢
    cases hid : stoi name with
    | error e =>
      cases e with
      | invalidArgument => exact .ok (refusal_refuse (by decide))
      | outOfRange => exact .error
    | ok id =>
      simp only [hid, Option.map_eq_none_iff] at h ⊢
      rw [h]
      exact .ok (refusal_refuse (by decide))

lemma handleUpdate_decides (hmethod : req.method = .put) :
    Returns (handleUpdate root faults req res w) fun reply =>
      reply.Decides (CrudHandler.Grants root faults req w) := by
  cases htarget : updateTarget req.target with
  | none => exact (handleUpdate_of_no_target htarget).imp fun _ => Or.inl
  | some target =>
    obtain ⟨d, id⟩ := target
    rw [handleUpdate_of_target htarget]
    refine .bind_of_eq ?_
    intro missing hmissing
    cases missing with
    | true =>
      simp only [if_true]
      cases hdir : faults.createDirectory w.fs (root ++ '/' :: d) with
      | none => exact .ok (Or.inl (refusal_refuse (by decide)))
      | some fs =>
        simp only
        cases hfile : faults.writeFile fs (root ++ '/' :: d ++ '/' :: toStr id) req.body with
        | none => exact .ok (Or.inl (refusal_refuse_append _ (by decide)))
        | some fs' =>
          exact .ok (Or.inr ⟨success_of_fill _ _ _ rfl,
            .store hmethod htarget hmissing hdir hfile⟩)
    | false =>
      simp only [Bool.false_eq_true, if_false]
      cases hfile : faults.writeFile w.fs (root ++ '/' :: d ++ '/' :: toStr id) req.body with
      | none => exact .ok (Or.inl (refusal_refuse_append _ (by decide)))
      | some fs =>
        exact .ok (Or.inr ⟨success_of_fill _ _ _ rfl,
          .overwrite hmethod htarget hmissing hfile⟩)

lemma handleDeletion_decides (hmethod : req.method = .delete_) :
    Returns (handleDeletion root faults req res w) fun reply =>
      reply.Decides (CrudHandler.Grants root faults req w) := by
  unfold handleDeletion
  cases htarget : deletionTarget req.target with
  | none => exact .ok (Or.inl (refusal_refuse (by decide)))
  | some cut =>
    obtain ⟨d, name, both⟩ := cut
    refine .bind_of_eq ?_
    intro there hthere
    cases there with
    | true =>
      simp only [if_true]
      cases hid : stoi name with
      | error e =>
        cases e with
        | invalidArgument => exact .ok (Or.inl (refusal_refuse (by decide)))
        | outOfRange => exact .error
      | ok id =>
        simp only
        cases hremove : removeIdFromEntity w.entityIds d id with
        | none => exact .ok (Or.inl (refusal_refuse_append _ (by decide)))
        | some entityIds =>
          simp only
          cases hfile : faults.remove w.fs (root ++ '/' :: both) with
          | none =>
            exact .ok (Or.inl ⟨_, "Could not delete file assosciated with deleted Entity".toList.length,
              rfl, rfl, by decide⟩)
          | some fs =>
            exact .ok (Or.inr ⟨success_of_fill _ _ _ rfl,
              .delete hmethod htarget hthere hid hremove hfile⟩)
    | false => exact .ok (Or.inl (refusal_refuse_append _ (by decide)))

/-- A reply to one of the four methods is a success exactly when the request had what it needs, and
a refusal otherwise. -/
theorem CrudHandler.handleRequest_decides (hmethod : ∀ name, req.method ≠ .other name) :
    Returns (handleRequest root faults req res w) fun reply =>
      (reply.Success ∧ Grants root faults req w) ∨ (reply.Refusal ∧ ¬ Grants root faults req w) := by
  have hdecides : Returns (handleRequest root faults req res w) fun reply =>
      reply.Decides (Grants root faults req w) := by
    unfold handleRequest
    cases h : req.method with
    | post => exact handleCreation_decides h
    | get => exact handleGet_decides h
    | put => exact handleUpdate_decides h
    | delete_ => exact handleDeletion_decides h
    | other name => exact absurd h (hmethod name)
  intro reply hreply
  rcases hdecides reply hreply with hrefusal | hsuccess
  · refine Or.inr ⟨hrefusal, ?_⟩
    intro hgrants
    obtain ⟨reply', hreply', hsuccess⟩ := hgrants.success
    rw [hreply] at hreply'
    cases hreply'
    exact hrefusal.not_success hsuccess
  · exact Or.inl hsuccess

end

end SocialNetworkApp
