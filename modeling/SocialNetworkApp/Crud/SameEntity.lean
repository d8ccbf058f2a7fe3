import SocialNetworkApp.Crud.Refinement

/-!
# Which entity a target names

A `PUT` cuts the id off a target by the length of its decimal form, a `GET` and a `DELETE` take the
text behind the last slash as it stands. They mean the same entity exactly when the target spells
the id as it is printed.
-/

namespace SocialNetworkApp

open SocialNetworkApp.Core

/-! ### Putting -/

section

variable {R : List Str} {D : Directories R} {root : Str} {faults : Faults} {req : Request}
  {res : Response} {w : CrudState}

lemma updateTarget_append (pre : Str) {d d' : Str} {id id' : CInt} (hd : '/' ∉ d)
    (h : updateTarget (pre ++ '/' :: d ++ '/' :: toStr id) = some (d', id')) : d' = d ∧ id' = id := by
  have hname := plainName_toStr id
  have hcut : (pre ++ '/' :: d ++ '/' :: toStr id).take
      ((pre ++ '/' :: d ++ '/' :: toStr id).length - (toStr id).length - 1) = pre ++ '/' :: d :=
    List.take_left' (by simp only [List.length_append, List.length_cons]; omega)
  simp only [updateTarget, lastSegment_append _ hname.2.1 hname.1, stoi_toStr, hcut] at h
  obtain ⟨⟨i, segment⟩, hsegment, heq⟩ := Option.map_eq_some_iff.mp h
  obtain ⟨rfl, rfl⟩ := Prod.mk.inj heq
  obtain ⟨a, htarget, hslash, hne, rfl⟩ := lastSegment_eq_some_iff.mp hsegment
  have hsame := possibleId_append pre hd
  rw [htarget, possibleId_append a hslash] at hsame
  exact ⟨hsame, rfl⟩

/-- A `PUT` that succeeds leaves the ids in agreement, and writes the body to the file of the entity
it addresses, and to no other. -/
lemma handleUpdate_written (h : Agree D root w) (hd : ∀ p ∈ updateTarget req.target, p.1 ∈ D.names)
    {reply : Reply CrudState} (hreply : handleUpdate root faults req res w = .ok reply)
    (hok : reply.status ≠ .bad_request) :
    ∃ d id, updateTarget req.target = some (d, id) ∧ d ∈ D.names ∧ Agree D root reply.state ∧
      ∀ p, reply.state.fs.tree.content p =
        if p = stepName R d ++ [toStr id] then some req.body else w.fs.tree.content p := by
  rcases handleUpdate_cases hreply with ⟨hbad, -⟩ |
    ⟨d, id, htarget, ⟨fs, fs', hcreate, hwrite, rfl⟩ | ⟨fs, hexists, hwrite, rfl⟩⟩
  · exact absurd hbad hok
  · have hmem : d ∈ D.names := hd _ htarget
    obtain ⟨hfile, hmade⟩ := h.rootAt.createDirectory (D.slash_free d hmem) hcreate
    have hroot := h.rootAt.sets hmade fun _ => rfl
    obtain ⟨-, hsets⟩ := hroot.writeFile (D.slash_free d hmem) hwrite
    refine ⟨d, id, htarget, hmem, h.change hmem (.store (Or.inr hcreate) hwrite), ?_⟩
    intro p
    rw [hsets.content_file, hmade.content_dir hfile]
  · have hmem : d ∈ D.names := hd _ htarget
    obtain ⟨-, hsets⟩ := h.rootAt.writeFile (D.slash_free d hmem) hwrite
    exact ⟨d, id, htarget, hmem, h.change hmem (.overwrite hexists hwrite), hsets.content_file⟩

end

/-! ### Putting, getting and deleting -/

/-- Behind a `PUT` that led from `w` to `w'`, the target means one entity: it is named by the last
two segments, the `PUT` wrote it and nothing else, a `GET` reads it, a `DELETE` removes it. -/
def MeansOneEntity (R : List Str) (root : Str) (w w' : CrudState) (put : Request) : Prop :=
  ∃ pre dir segment id, put.target = pre ++ '/' :: dir ++ '/' :: segment ∧ '/' ∉ dir ∧
    '/' ∉ segment ∧ stoi segment = .ok id ∧
    (∀ p, w'.fs.tree.content p =
      if p = stepName R dir ++ [toStr id] then some put.body else w.fs.tree.content p) ∧
    ∀ get res, get.method = .get → get.target = put.target →
      ∃ reply, CrudHandler.handleRequest root {} get res w' = .ok reply ∧ reply.status = .ok ∧
        reply.response.body = put.body ∧
        ∀ del res, del.method = .delete_ → del.target = put.target →
          ∃ reply', CrudHandler.handleRequest root {} del res reply.state = .ok reply' ∧
            reply'.status = .ok ∧ id ∉ idsOf reply'.state.entityIds dir ∧
            ∀ p, reply'.state.fs.tree.content p =
              if p = stepName R dir ++ [toStr id] then none else w'.fs.tree.content p

section

variable {R : List Str} {D : Directories R} {root : Str} {faults : Faults} {req : Request}
  {res : Response} {w : CrudState}

/-- A `DELETE` that succeeds leaves every file but the one its target spells out. -/
lemma handleDeletion_content (hroot : w.fs.RootAt root R) {pre dir segment : Str} {id : CInt}
    (hdir : '/' ∉ dir) (hsegment : '/' ∉ segment) (hid : stoi segment = .ok id)
    (htarget : req.target = pre ++ '/' :: dir ++ '/' :: segment) {reply : Reply CrudState}
    (hreply : handleDeletion root faults req res w = .ok reply) (hok : reply.status = .ok)
    {p : List Str} (hp : p ≠ stepName R dir ++ [segment]) :
    reply.state.fs.tree.content p = w.fs.tree.content p := by
  have hname := plainName_of_stoi hsegment hid
  have hcut : deletionTarget req.target = some (dir, segment, dir ++ '/' :: segment) := by
    rw [htarget, deletionTarget_append pre hdir hsegment hname.1]
  rcases handleDeletion_cases hreply with ⟨hbad, -⟩ |
    ⟨d, name, both, id', entityIds, hcut', -, -, hexists, hnot, -,
      ⟨fs, hfile, -, rfl⟩ | ⟨-, hfail, -⟩⟩
  · rw [hbad] at hok
    cases hok
  · obtain rfl : dir ++ '/' :: segment = both := by
      rw [hcut, Option.some.injEq, Prod.mk.injEq, Prod.mk.injEq] at hcut'
      exact hcut'.2.2
    obtain ⟨q, hq, -⟩ := FileSystem.isFile_of_exists hexists hnot
    have hsets := FileSystem.remove_eq_some hfile hq
    rw [← List.cons_append, ← List.append_assoc] at hq
    obtain ⟨-, rfl⟩ := hroot.resolve_file hdir hname hq
    exact hsets.content_ne hp
  · rw [hfail] at hok
    cases hok

/-- A `PUT` that succeeds and a `GET` and a `DELETE` behind it mean the same entity exactly when the
target ends in a directory and an id as it is printed. -/
theorem update_meansOneEntity_iff (h : Agree D root w) (hput : req.method = .put)
    (hd : ∀ d ∈ req.directory, d ∈ D.names) {reply : Reply CrudState}
    (hreply : CrudHandler.handleRequest root faults req res w = .ok reply)
    (hok : reply.status = .ok ∨ reply.status = .created) :
    MeansOneEntity R root w reply.state req ↔
      ∃ pre dir id, '/' ∉ dir ∧ req.target = pre ++ '/' :: dir ++ '/' :: toStr id := by
  have hupdate : handleUpdate root faults req res w = .ok reply := by
    simpa only [CrudHandler.handleRequest, hput] using hreply
  have hnames : ∀ p ∈ updateTarget req.target, p.1 ∈ D.names := by
    intro p hp
    refine hd p.1 ?_
    simp only [Request.directory, hput, Option.mem_def.mp hp, Option.map_some, Option.mem_def]
  have hgood : reply.status ≠ .bad_request := by
    rcases hok with hok | hok <;> simp [hok]
  obtain ⟨d, id, htarget, hmem, hagree, hcontent⟩ := handleUpdate_written h hnames hupdate hgood
  constructor
  · rintro ⟨pre, dir, segment, id', hcut, hdir, hsegment, hid, hwritten, hserved⟩
    obtain ⟨got, hget, -, -, hdelete⟩ := hserved ⟨.get, req.target, [], []⟩ {} rfl rfl
    obtain ⟨deleted, hdel, hdelok, -, hgone⟩ := hdelete ⟨.delete_, req.target, [], []⟩ {} rfl rfl
    obtain hstate : got.state = reply.state := handleGet_state hget
    refine ⟨pre, dir, id', hdir, ?_⟩
    -- the file of the entity is removed, and only the file the target spells out can be
    have hpath : stepName R dir ++ [toStr id'] = stepName R dir ++ [segment] := by
      by_contra hne
      have hkept := handleDeletion_content (hstate ▸ hagree.rootAt) hdir hsegment hid hcut hdel
        hdelok hne
      rw [hgone, if_pos rfl, hstate, hwritten, if_pos rfl] at hkept
      cases hkept
    rw [hcut, List.singleton_inj.mp (List.append_cancel_left hpath)]
  · rintro ⟨pre, dir, id', hdir, hcut⟩
    obtain ⟨rfl, rfl⟩ : d = dir ∧ id = id' := updateTarget_append pre hdir (hcut ▸ htarget)
    have hlive : reply.state.fs.tree.content (stepName R d ++ [toStr id]) = some req.body := by
      rw [hcontent, if_pos rfl]
    refine ⟨pre, d, toStr id, id, hcut, hdir, (plainName_toStr id).2.1, stoi_toStr id, hcontent, ?_⟩
    intro get res' hget htarget'
    refine ⟨_, handleGet_live hagree hmem hlive hget (htarget'.trans hcut) res', rfl, rfl, ?_⟩
    intro del res'' hdel htarget''
    obtain ⟨entityIds, fs, hremove, hsets, hdeleted⟩ :=
      handleDeletion_live hagree hmem hlive hdel (htarget''.trans hcut) res''
    refine ⟨_, hdeleted, rfl, ?_, hsets.content_none⟩
    intro hin
    exact ((mem_idsOf_remove (hagree.nodup hmem) hremove).mp hin).2 ⟨rfl, rfl⟩

end

/-- A `PUT` of entity 1. -/
theorem update_meansOneEntity_iff_one :
    ∃ reply, CrudHandler.handleRequest ['r'] {} ⟨.put, "/d/1".toList, ['x'], []⟩ {} emptyDisk =
        .ok reply ∧
      (MeansOneEntity [['r']] ['r'] emptyDisk reply.state ⟨.put, "/d/1".toList, ['x'], []⟩ ↔
        ∃ pre dir id, '/' ∉ dir ∧ "/d/1".toList = pre ++ '/' :: dir ++ '/' :: toStr id) := by
  refine ⟨_, rfl, ?_⟩
  refine @update_meansOneEntity_iff [['r']] (Directories.plain [['r']]) ['r'] {}
    ⟨.put, "/d/1".toList, ['x'], []⟩ {} emptyDisk agree_emptyDisk rfl ?_ _ rfl (Or.inr rfl)
  intro d hd
  obtain rfl : ['d'] = d := Option.some.inj hd
  exact (by decide : PlainName ['d'])

/-- Leading zeros: a `PUT` of `/a/d/007` writes entity 7 of the directory `0`, which a `GET` of the
same target does not find. -/
theorem update_not_meansOneEntity :
    Agree (Directories.plain [['r']]) ['r'] emptyDisk ∧
    ∃ reply, CrudHandler.handleRequest ['r'] {} ⟨.put, "/a/d/007".toList, ['x'], []⟩ {} emptyDisk =
        .ok reply ∧ reply.status = .created ∧
      reply.state.fs.tree.content [['r'], ['0'], ['7']] = some ['x'] ∧
      (∃ reply', CrudHandler.handleRequest ['r'] {} ⟨.get, "/a/d/007".toList, [], []⟩ {}
        reply.state = .ok reply' ∧ reply'.status = .bad_request) ∧
      ¬ MeansOneEntity [['r']] ['r'] emptyDisk reply.state ⟨.put, "/a/d/007".toList, ['x'], []⟩ := by
  refine ⟨agree_emptyDisk, _, rfl, rfl, rfl, ⟨_, rfl, rfl⟩, ?_⟩
  rintro ⟨_, _, _, _, -, -, -, -, -, hserved⟩
  obtain ⟨reply, hreply, hok, -⟩ := hserved ⟨.get, "/a/d/007".toList, [], []⟩ {} rfl rfl
  obtain rfl := Except.ok.inj hreply
  cases hok

end SocialNetworkApp
