import SocialNetworkApp.Crud.Target

/-!
# What a request changes

A request addresses at most one directory, and does one of a few things to it. What holds along a
run of requests is derived from this list.
-/

namespace SocialNetworkApp

open SocialNetworkApp.Core

/-- The directory and the id of a `PUT`. -/
def updateTarget (target : Str) : Option (Str × CInt) :=
  match lastSegment target with
  | none => none
  | some (_, id) =>
    match stoi id with
    | .error _ => none
    | .ok targetId =>
      (lastSegment (target.take (target.length - (toStr targetId).length - 1))).map
        fun segment => (segment.2, targetId)

lemma updateTarget_eq_some {target d : Str} {id : CInt} (h : updateTarget target = some (d, id)) :
    (∃ i name, lastSegment target = some (i, name) ∧ stoi name = .ok id) ∧ '/' ∉ d := by
  unfold updateTarget at h
  split at h
  · cases h
  · split at h
    · cases h
    · obtain ⟨⟨i, d⟩, hsegment, heq⟩ := Option.map_eq_some_iff.mp h
      obtain ⟨rfl, rfl⟩ := Prod.mk.inj heq
      obtain ⟨-, -, hslash, -, -⟩ := lastSegment_eq_some_iff.mp hsegment
      exact ⟨⟨_, _, ‹_›, ‹_›⟩, hslash⟩

/-- The directory in which a request may change something. -/
def Request.directory (req : Request) : Option Str :=
  match req.method with
  | .post => (lastSegment req.target).map Prod.snd
  | .put => (updateTarget req.target).map Prod.fst
  | .delete_ => (deletionTarget req.target).map Prod.fst
  | _ => none

/-- What a request may do to the directory `d` below `root`. -/
inductive Change (root : Str) (w : CrudState) (d : Str) : CrudState → Prop
  | nothing : Change root w d w
  | directory {fs : FileSystem} (hdir : w.fs.createDirectory (root ++ '/' :: d) = some fs) :
      Change root w d ⟨fs, w.entityIds⟩
  | store {fs fs' : FileSystem} {id : CInt} {content : Str}
      (hdir : fs = w.fs ∨ w.fs.createDirectory (root ++ '/' :: d) = some fs)
      (hfile : fs.writeFile (root ++ '/' :: d ++ '/' :: toStr id) content = some fs') :
      Change root w d ⟨fs', addIdToEntity w.entityIds d id⟩
  | overwrite {fs : FileSystem} {id : CInt} {content : Str}
      (hexists : w.fs.pathExists (root ++ '/' :: d ++ '/' :: toStr id) = true)
      (hfile : w.fs.writeFile (root ++ '/' :: d ++ '/' :: toStr id) content = some fs) :
      Change root w d ⟨fs, w.entityIds⟩
  | delete {name both : Str} {id : CInt} {entityIds : EntityIds} {fs : FileSystem}
      (hboth : both = d ++ '/' :: name ∨ both = name ∧ d = name) (hname : '/' ∉ name)
      (hid : stoi name = .ok id) (hexists : w.fs.pathExists (root ++ '/' :: both) = true)
      (hdir : w.fs.isDirectory (root ++ '/' :: both) = false)
      (hremove : removeIdFromEntity w.entityIds d id = some entityIds)
      (hfile : w.fs.remove (root ++ '/' :: both) = some fs) :
      Change root w d ⟨fs, entityIds⟩

lemma Request.slash_not_mem_directory {req : Request} {d : Str} (h : req.directory = some d) :
    '/' ∉ d := by
  unfold Request.directory at h
  split at h
  · obtain ⟨⟨i, d⟩, hsegment, rfl⟩ := Option.map_eq_some_iff.mp h
    obtain ⟨-, -, hslash, -, -⟩ := lastSegment_eq_some_iff.mp hsegment
    exact hslash
  · obtain ⟨⟨d, id⟩, htarget, rfl⟩ := Option.map_eq_some_iff.mp h
    exact (updateTarget_eq_some htarget).2
  · obtain ⟨⟨d, name, both⟩, htarget, rfl⟩ := Option.map_eq_some_iff.mp h
    exact (deletionTarget_eq_some htarget).1
  · cases h

section

variable {root : Str} {faults : Faults} {req : Request} {res : Response} {w : CrudState}

lemma Faults.createDirectory_eq_some {fs fs' : FileSystem} {path : Str}
    (h : faults.createDirectory fs path = some fs') : fs.createDirectory path = some fs' := by
  simp only [Faults.createDirectory] at h
  split_ifs at h
  exact h

lemma Faults.writeFile_eq_some {fs fs' : FileSystem} {path content : Str}
    (h : faults.writeFile fs path content = some fs') : fs.writeFile path content = some fs' := by
  simp only [Faults.writeFile] at h
  split_ifs at h
  exact h

lemma ensureDirectory_eq_ok {fs : FileSystem} {made : Option FileSystem} {path : Str}
    (h : ensureDirectory faults fs path = .ok made) :
    faults.Tells fs path ∧ ∀ fs' ∈ made, fs' = fs ∨ fs.createDirectory path = some fs' := by
  obtain ⟨missing, hmissing, h⟩ := exists_of_bind_eq_ok h
  refine ⟨(Faults.isNoDirectory_eq_ok_iff.mp hmissing).1, ?_⟩
  rintro fs' rfl
  split_ifs at h
  · exact Or.inr (Faults.createDirectory_eq_some (Except.ok.inj h))
  · exact Or.inl (Option.some.inj (Except.ok.inj h)).symm

/-- A `POST` is refused, perhaps with a new directory left behind, or it stores the body under the
id it answers with. -/
lemma handleCreation_cases {reply : Reply CrudState}
    (h : handleCreation root faults req res w = .ok reply) :
    (reply.status = .bad_request ∧
      (reply.state = w ∨ ∃ i d fs, lastSegment req.target = some (i, d) ∧
        w.fs.createDirectory (root ++ '/' :: d) = some fs ∧ reply.state = ⟨fs, w.entityIds⟩)) ∨
    ∃ i d fs fs', lastSegment req.target = some (i, d) ∧
      (fs = w.fs ∨ w.fs.createDirectory (root ++ '/' :: d) = some fs) ∧
      fs.writeFile (root ++ '/' :: d ++ '/' :: toStr (getAvailableId w.entityIds d)) req.body =
        some fs' ∧
      reply = ⟨.created, prepareCreatedResponse res (getAvailableId w.entityIds d), fs',
        addIdToEntity w.entityIds d (getAvailableId w.entityIds d)⟩ := by
  unfold handleCreation at h
  cases hsegment : lastSegment req.target with
  | none =>
    simp only [hsegment, Except.ok.injEq] at h
    subst h
    exact Or.inl ⟨rfl, Or.inl rfl⟩
  | some segment =>
    obtain ⟨i, d⟩ := segment
    simp only [hsegment] at h
    obtain ⟨made, hensure, h⟩ := exists_of_bind_eq_ok h
    cases made with
    | none =>
      cases h
      exact Or.inl ⟨rfl, Or.inl rfl⟩
    | some fs =>
      have hdir := (ensureDirectory_eq_ok hensure).2 fs rfl
      simp only at h
      cases hwrite : faults.writeFile fs
          (root ++ '/' :: d ++ '/' :: toStr (getAvailableId w.entityIds d)) req.body with
      | none =>
        simp only [hwrite, Except.ok.injEq] at h
        subst h
        refine Or.inl ⟨rfl, ?_⟩
        rcases hdir with rfl | hdir
        · exact Or.inl rfl
        · exact Or.inr ⟨i, d, fs, rfl, hdir, rfl⟩
      | some fs' =>
        simp only [hwrite, Except.ok.injEq] at h
        exact Or.inr ⟨i, d, fs, fs', rfl, hdir, Faults.writeFile_eq_some hwrite, h.symm⟩

/-- A `PUT` is refused, perhaps with a new directory left behind, or it stores the body. -/
lemma handleUpdate_cases {reply : Reply CrudState}
    (h : handleUpdate root faults req res w = .ok reply) :
    (reply.status = .bad_request ∧
      (reply.state = w ∨ ∃ d id fs, updateTarget req.target = some (d, id) ∧
        w.fs.createDirectory (root ++ '/' :: d) = some fs ∧ reply.state = ⟨fs, w.entityIds⟩)) ∨
    ∃ d id, updateTarget req.target = some (d, id) ∧
      ((∃ fs fs', w.fs.createDirectory (root ++ '/' :: d) = some fs ∧
        fs.writeFile (root ++ '/' :: d ++ '/' :: toStr id) req.body = some fs' ∧
        reply = ⟨.created, prepareCreatedResponse res id, fs',
          addIdToEntity w.entityIds d id⟩) ∨
      ∃ fs, w.fs.pathExists (root ++ '/' :: d ++ '/' :: toStr id) = true ∧
        w.fs.writeFile (root ++ '/' :: d ++ '/' :: toStr id) req.body = some fs ∧
        reply = ⟨.ok, prepareUpdateResponse res id, fs, w.entityIds⟩) := by
  unfold handleUpdate at h
  unfold updateTarget
  cases hsegment : lastSegment req.target with
  | none =>
    simp only [hsegment, Except.ok.injEq] at h
    subst h
    exact Or.inl ⟨rfl, Or.inl rfl⟩
  | some segment =>
    obtain ⟨i, name⟩ := segment
    simp only [hsegment] at h ⊢
    cases hid : stoi name with
    | error e =>
      cases e with
      | invalidArgument =>
        simp only [hid, Except.ok.injEq] at h
        subst h
        exact Or.inl ⟨rfl, Or.inl rfl⟩
      | outOfRange => simp [hid] at h
    | ok id =>
      simp only [hid] at h ⊢
      cases hdir : lastSegment (req.target.take (req.target.length - (toStr id).length - 1)) with
      | none =>
        simp only [hdir, Except.ok.injEq] at h
        subst h
        exact Or.inl ⟨rfl, Or.inl rfl⟩
      | some segment =>
        obtain ⟨j, d⟩ := segment
        simp only [hdir] at h ⊢
        obtain ⟨missing, hask, h⟩ := exists_of_bind_eq_ok h
        obtain ⟨-, rfl⟩ := Faults.isMissing_eq_ok_iff.mp hask
        split_ifs at h with hmissing
        · cases hcreate : faults.createDirectory w.fs (root ++ '/' :: d) with
          | none =>
            simp only [hcreate, Except.ok.injEq] at h
            subst h
            exact Or.inl ⟨rfl, Or.inl rfl⟩
          | some fs =>
            have hcreate' := Faults.createDirectory_eq_some hcreate
            simp only [hcreate] at h
            cases hwrite : faults.writeFile fs (root ++ '/' :: d ++ '/' :: toStr id) req.body with
            | none =>
              simp only [hwrite, Except.ok.injEq] at h
              subst h
              exact Or.inl ⟨rfl, Or.inr ⟨d, id, fs, rfl, hcreate', rfl⟩⟩
            | some fs' =>
              simp only [hwrite, Except.ok.injEq] at h
              exact Or.inr ⟨d, id, rfl, Or.inl ⟨fs, fs', hcreate',
                Faults.writeFile_eq_some hwrite, h.symm⟩⟩
        · simp only [Bool.or_eq_true, Bool.not_eq_true', not_or, Bool.not_eq_false] at hmissing
          cases hwrite : faults.writeFile w.fs (root ++ '/' :: d ++ '/' :: toStr id) req.body with
          | none =>
            simp only [hwrite, Except.ok.injEq] at h
            subst h
            exact Or.inl ⟨rfl, Or.inl rfl⟩
          | some fs =>
            simp only [hwrite, Except.ok.injEq] at h
            exact Or.inr ⟨d, id, rfl, Or.inr ⟨fs, hmissing.1.1,
              Faults.writeFile_eq_some hwrite, h.symm⟩⟩

/-- A `DELETE` is refused, or it removes the file and the id; where the file could not be removed,
the id is gone all the same. -/
lemma handleDeletion_cases {reply : Reply CrudState}
    (h : handleDeletion root faults req res w = .ok reply) :
    (reply.status = .bad_request ∧ reply.state = w) ∨
    ∃ d name both id entityIds, deletionTarget req.target = some (d, name, both) ∧
      stoi name = .ok id ∧ faults.Tells w.fs (root ++ '/' :: both) ∧ w.fs.pathExists (root ++ '/' :: both) = true ∧
      w.fs.isDirectory (root ++ '/' :: both) = false ∧
      removeIdFromEntity w.entityIds d id = some entityIds ∧
      ((∃ fs, w.fs.remove (root ++ '/' :: both) = some fs ∧ faults.removal = false ∧
        reply = ⟨.ok, prepareDeletedResponse res id, fs, entityIds⟩) ∨
      faults.remove w.fs (root ++ '/' :: both) = none ∧ reply.status = .internal_server_error ∧
        reply.state = ⟨w.fs, entityIds⟩) := by
  unfold handleDeletion at h
  cases htarget : deletionTarget req.target with
  | none =>
    simp only [htarget, Except.ok.injEq] at h
    subst h
    exact Or.inl ⟨rfl, rfl⟩
  | some cut =>
    obtain ⟨d, name, both⟩ := cut
    simp only [htarget] at h
    obtain ⟨isFile, hask, h⟩ := exists_of_bind_eq_ok h
    obtain ⟨htells, rfl⟩ := Faults.isFile_eq_ok_iff.mp hask
    split_ifs at h with hfile
    · simp only [Bool.and_eq_true, Bool.not_eq_true'] at hfile
      cases hid : stoi name with
      | error e =>
        cases e with
        | invalidArgument =>
          simp only [hid, Except.ok.injEq] at h
          subst h
          exact Or.inl ⟨rfl, rfl⟩
        | outOfRange => simp [hid] at h
      | ok id =>
        simp only [hid] at h
        cases hremove : removeIdFromEntity w.entityIds d id with
        | none =>
          simp only [hremove, Except.ok.injEq] at h
          subst h
          exact Or.inl ⟨rfl, rfl⟩
        | some entityIds =>
          simp only [hremove] at h
          refine Or.inr
            ⟨d, name, both, id, entityIds, rfl, hid, htells, hfile.1, hfile.2, hremove, ?_⟩
          cases hdelete : faults.remove w.fs (root ++ '/' :: both) with
          | none =>
            simp only [hdelete, Except.ok.injEq] at h
            subst h
            exact Or.inr ⟨rfl, rfl, rfl⟩
          | some fs =>
            simp only [hdelete, Except.ok.injEq] at h
            simp only [Faults.remove] at hdelete
            split_ifs at hdelete with hfault
            exact Or.inl ⟨fs, hdelete, by simpa using hfault, h.symm⟩
    · simp only [Except.ok.injEq] at h
      subst h
      exact Or.inl ⟨rfl, rfl⟩

lemma handleGet_state {reply : Reply CrudState} (h : handleGet root faults req res w = .ok reply) :
    reply.state = w := by
  unfold handleGet at h
  split at h
  · cases h
  · cases h
    simp only [listEntities]
    split <;> rfl
  · unfold retrieveEntity at h
    simp only at h
    split at h
    · cases h
    · split_ifs at h
      · cases h
        rfl
      · split at h <;> cases h <;> rfl

/-- A request whose `remove` does not fail does nothing, or a change to the directory it
addresses. -/
lemma handleRequest_change (hfault : faults.removal = false) {reply : Reply CrudState}
    (h : CrudHandler.handleRequest root faults req res w = .ok reply) :
    reply.state = w ∨ ∃ d, req.directory = some d ∧ Change root w d reply.state := by
  unfold CrudHandler.handleRequest at h
  unfold Request.directory
  cases hmethod : req.method with
  | post =>
    simp only [hmethod] at h
    rcases handleCreation_cases h with ⟨-, hsame | ⟨i, d, fs, hsegment, hdir, hstate⟩⟩ |
      ⟨i, d, fs, fs', hsegment, hdir, hwrite, hreply⟩
    · exact Or.inl hsame
    · exact Or.inr ⟨d, by rw [hsegment]; rfl, hstate ▸ .directory hdir⟩
    · exact Or.inr ⟨d, by rw [hsegment]; rfl, hreply ▸ .store hdir hwrite⟩
  | get =>
    simp only [hmethod] at h
    exact Or.inl (handleGet_state h)
  | put =>
    simp only [hmethod] at h
    rcases handleUpdate_cases h with ⟨-, hsame | ⟨d, id, fs, htarget, hdir, hstate⟩⟩ |
      ⟨d, id, htarget, ⟨fs, fs', hdir, hwrite, rfl⟩ | ⟨fs, hexists, hwrite, rfl⟩⟩
    · exact Or.inl hsame
    · exact Or.inr ⟨d, by rw [htarget]; rfl, hstate ▸ .directory hdir⟩
    · exact Or.inr ⟨d, by rw [htarget]; rfl, .store (Or.inr hdir) hwrite⟩
    · exact Or.inr ⟨d, by rw [htarget]; rfl, .overwrite hexists hwrite⟩
  | delete_ =>
    simp only [hmethod] at h
    rcases handleDeletion_cases h with ⟨-, hsame⟩ |
      ⟨d, name, both, id, entityIds, htarget, hid, -, hexists, hdir, hremove,
        ⟨fs, hfile, -, rfl⟩ | ⟨hfail, -⟩⟩
    · exact Or.inl hsame
    · obtain ⟨-, hname, -, hboth⟩ := deletionTarget_eq_some htarget
      exact Or.inr ⟨d, by rw [htarget]; rfl, .delete hboth hname hid hexists hdir hremove hfile⟩
    · obtain ⟨fs, hfs⟩ := FileSystem.remove_isSome hexists hdir
      simp [Faults.remove, hfault, hfs] at hfail
  | other name =>
    simp only [hmethod, Except.ok.injEq] at h
    subst h
    exact Or.inl rfl

end

end SocialNetworkApp
