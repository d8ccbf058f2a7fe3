import SocialNetworkApp.Meme.Refinement

/-!
# Posting a comment

A comment goes to its meme in two calls of the module: one counts its rating, the other stores its
text. Only the second looks whether the meme is there.
-/

namespace SocialNetworkApp

open SocialNetworkApp.Core

variable {F : Type} {float : FloatArith F} {tree : PropertyTree F} {p : List Str} {root : Str}
  {w w' : MemeState F} {s s' : MemeStore} {id : MemeId} {m : MemeRecord}

/-! ### Calls that return -/

namespace MemeOp

variable {result : Option MemeId} {op : MemeOp} {ops : List MemeOp}

lemma exists_of_run_cons (h : run float tree (op :: ops) w s = .ok (w', s')) :
    ∃ result w₁, op.perform float tree w = .ok (result, w₁) ∧
      run float tree ops w₁ (op.record s result) = .ok (w', s') := by
  rw [run, List.foldlM_cons] at h
  obtain ⟨⟨w₁, s₁⟩, hfirst, hrest⟩ := exists_of_bind_eq_ok h
  obtain ⟨⟨result, w₂⟩, hperform, heq⟩ := exists_of_map_eq_ok hfirst
  cases heq
  exact ⟨result, w₁, hperform, hrest⟩

lemma exists_of_perform_get (h : (MemeOp.get id).perform float tree w = .ok (result, w')) :
    ∃ found, MemeModule.get float tree {} id w = .ok (found, w') := by
  obtain ⟨⟨found, w₁⟩, hget, heq⟩ := exists_of_map_eq_ok h
  cases heq
  exact ⟨found, hget⟩

lemma exists_of_perform_restart {uninit : MemeModule.Uninit}
    (h : (MemeOp.restart uninit).perform float tree w = .ok (result, w')) :
    ∃ memes, MemeModule.load float {} uninit w.fs w.memes.root = .ok memes ∧
      { w with memes } = w' := by
  obtain ⟨memes, hload, heq⟩ := exists_of_map_eq_ok h
  cases heq
  exact ⟨memes, hload, rfl⟩

end MemeOp

/-! ### Stores and modules, whatever the last id is -/

/-- The disk holds the store, and the module counts its views. -/
structure Kept (float : FloatArith F) (p : List Str) (root : Str) (w : MemeState F)
    (s : MemeStore) : Prop where
  disk : OnDisk float p root w.fs s
  root_eq : w.memes.root = root
  viewCounts : ∀ id, w.memes.viewCounts.lookup id = (s id).bind MemeRecord.count

/-- The same state with the largest id as the last one. -/
def MemeState.raised (w : MemeState F) : MemeState F :=
  ⟨w.fs, { w.memes with idCount := 4294967295 }⟩

namespace Kept

lemma of_raised (h : Stored float p root w.raised s) : Kept float p root w s :=
  ⟨h.disk, h.memory.root_eq, h.memory.viewCounts⟩

variable (h : Kept float p root w s)

include h

/-- No id exceeds the largest one. -/
lemma raised : Stored float p root w.raised s := by
  refine ⟨h.disk, h.root_eq, fun {id m} _ => ?_, h.viewCounts⟩
  have hlt : id.toNat < 4294967296 := id.toNat_lt
  rw [UInt32.le_iff_toNat_le, show w.raised.memes.idCount.toNat = 4294967295 from rfl]
  omega

lemma memeExists_iff : MemeExists w.fs root id ↔ ∃ m, s id = some m := by
  rw [MemeExists, h.disk.isDirectory_meme, Option.isSome_iff_exists]

lemma addRating (id : MemeId) (rating : CInt) :
    Kept float p root (MemeModule.addRating float {} id rating w) s := by
  have hstored := h.raised.addRating id rating
  rw [MemeModule.addRating_eq] at hstored ⊢
  exact of_raised hstored

lemma addComment {uuid : Str} (hplain : PlainName uuid)
    (hnew : ∀ m, s id = some m → uuid ∉ m.comments.map Prod.fst) (comment : Comment) :
    Kept float p root (MemeModule.addComment {} uuid id comment w) (s.comment id uuid comment) := by
  have hstored := h.raised.addComment hplain hnew comment
  have hraised : MemeModule.addComment {} uuid id comment w.raised =
      (MemeModule.addComment {} uuid id comment w).raised := by
    simp only [MemeModule.addComment, MemeState.raised, MemeModule.memePath]
    by_cases hexist : BoostFileSystem.exist w.fs (w.memes.root ++ '/' :: id.toStr) = true
    · simp only [hexist, Bool.not_true, Bool.false_eq_true, if_false]
      rfl
    · simp only [hexist, Bool.not_false, if_true]
  rw [hraised] at hstored
  exact of_raised hstored

/-- A call that returns does to the store what it means. -/
lemma perform {op : MemeOp} (hroot : root.getLast? ≠ some '/')
    (hdrawn : ∀ n, op.drawn = some n → ¬ s.Names n) {result : Option MemeId}
    (hperform : op.perform float tree w = .ok (result, w')) :
    Kept float p root w' (op.record s result) := by
  cases op with
  | create content =>
    cases hm : s (w.memes.idCount + 1) with
    | none =>
      obtain ⟨fs', hcreate, hdisk⟩ := h.disk.module_create h.root_eq hm content
      rw [MemeOp.perform, hcreate] at hperform
      cases hperform
      refine ⟨hdisk, h.root_eq, fun id => ?_⟩
      rw [MemeOp.record, MemeStore.create, Function.update_apply]
      split_ifs with hid
      · rw [show _ = w.memes.viewCounts.lookup id from rfl, h.viewCounts, hid, hm]
        rfl
      · exact h.viewCounts id
    | some m =>
      rw [MemeOp.perform, h.disk.module_create_of_some h.root_eq hm content] at hperform
      cases hperform
      exact ⟨h.disk, h.root_eq, h.viewCounts⟩
  | get id =>
    cases hm : s id with
    | none =>
      rw [MemeOp.perform, h.disk.module_get_of_none h.root_eq hm] at hperform
      cases hperform
      rw [MemeOp.record, MemeStore.view_of_none hm]
      exact h
    | some m =>
      have hexist : BoostFileSystem.exist w.fs (root ++ '/' :: id.toStr) = _ := h.disk.exist_meme
      have hdir : w.fs.isDirectory (root ++ '/' :: id.toStr) = _ := h.disk.isDirectory_meme
      rw [hm, Option.isSome_some, ← h.root_eq] at hexist hdir
      obtain ⟨found, hget⟩ := MemeOp.exists_of_perform_get hperform
      obtain rfl := MemeModule.get_eq_ok hexist hdir hget
      have hstored := h.raised.incrementViewCount hm
      rw [MemeModule.incrementViewCount_eq] at hstored ⊢
      exact of_raised hstored
  | addComment uuid id comment =>
    cases hperform
    exact h.addComment uuid.2 (fun m hm hmem => hdrawn _ rfl ⟨id, m, hm, hmem⟩) comment
  | addRating id rating =>
    cases hperform
    exact h.addRating id rating
  | remove id =>
    cases hperform
    exact of_raised (h.raised.remove id)
  | restart uninit =>
    obtain ⟨memes, hload, rfl⟩ := MemeOp.exists_of_perform_restart hperform
    rw [h.root_eq] at hload
    obtain ⟨hmemory, -⟩ := h.disk.inMemory_of_load hroot hload
    exact ⟨h.disk, hmemory.root_eq, hmemory.viewCounts⟩

lemma getComments (hm : s id = some m) (hmade : m.Commented tree) :
    ∃ comments, MemeModule.getComments tree {} id w = .ok comments ∧
      comments.Perm (m.comments.map Prod.snd) :=
  h.raised.getComments hm hmade

/-- Runs keep the store on the disk, what every call keeps, and that the comments of its memes are
comments. -/
lemma run {I : MemeState F → Prop} {ops : List MemeOp} (hroot : root.getLast? ≠ some '/')
    (hI : ∀ {w w' : MemeState F} {s : MemeStore} {op : MemeOp} {result : Option MemeId},
      Kept float p root w s → I w → op.perform float tree w = .ok (result, w') → I w')
    (hw : I w) (hnodup : (ops.filterMap MemeOp.drawn).Nodup)
    (hfresh : ∀ n ∈ ops.filterMap MemeOp.drawn, ¬ s.Names n)
    (hrun : MemeOp.run float tree ops w s = .ok (w', s')) :
    Kept float p root w' s' ∧ I w' ∧
      (s.Commented tree → (∀ op ∈ ops, op.Comments tree) → s'.Commented tree) ∧
      ∀ n, s'.Names n → s.Names n ∨ n ∈ ops.filterMap MemeOp.drawn := by
  induction ops generalizing w s with
  | nil =>
    cases hrun
    exact ⟨h, hw, fun hs _ => hs, fun n hn => Or.inl hn⟩
  | cons op ops ih =>
    have hdrawn : ∀ n, op.drawn = some n → ¬ s.Names n := fun n hn =>
      hfresh n (List.mem_filterMap.mpr ⟨op, List.mem_cons_self, hn⟩)
    have hsub := (List.sublist_cons_self op ops).filterMap MemeOp.drawn
    obtain ⟨result, w₁, hperform, hrest⟩ := MemeOp.exists_of_run_cons hrun
    have hfresh₁ : ∀ n ∈ ops.filterMap MemeOp.drawn, ¬ (op.record s result).Names n :=
      fun n hn => MemeOp.not_names_record hnodup hfresh hn
    obtain ⟨hkept, hw', hcommented, hnames⟩ := ih (h.perform hroot hdrawn hperform)
      (hI h hw hperform) (hnodup.sublist hsub) hfresh₁ hrest
    refine ⟨hkept, hw', fun hs hops => ?_, fun n hn => ?_⟩
    · exact hcommented (MemeOp.commented_record hs (hops op List.mem_cons_self) hdrawn result)
        fun op' hop' => hops op' (List.mem_cons_of_mem _ hop')
    · rcases hnames n hn with hn | hn
      · refine (MemeOp.names_record hn).imp_right fun hdrawn => ?_
        exact List.mem_filterMap.mpr ⟨op, List.mem_cons_self, hdrawn⟩
      · exact Or.inr (hsub.subset hn)

end Kept

/-- A run on an empty root. -/
lemma Kept.runFrom {I : List Str → MemeState F → Prop} {uninit : MemeModule.Uninit} {fs : FileSystem}
    {ops : List MemeOp} (hroot : root.getLast? ≠ some '/')
    (hI : ∀ {p : List Str} {w w' : MemeState F} {s : MemeStore} {op : MemeOp}
      {result : Option MemeId},
      Kept float p root w s → I p w → op.perform float tree w = .ok (result, w') → I p w')
    (hstart : ∀ {p : List Str} {w : MemeState F}, Kept float p root w (fun _ => none) → I p w)
    (hdir : fs.isDirectory root = true) (hempty : fs.entries root = [])
    (hnodup : (ops.filterMap MemeOp.drawn).Nodup)
    (hrun : MemeOp.runFrom float tree uninit fs root ops = .ok (w, s)) :
    ∃ p, Kept float p root w s ∧ I p w ∧ ((∀ op ∈ ops, op.Comments tree) → s.Commented tree) ∧
      ∀ n, s.Names n → n ∈ ops.filterMap MemeOp.drawn := by
  obtain ⟨p, hname, hp⟩ := FileSystem.isDirectory_eq_true hdir
  rw [FileSystem.entries, hname] at hempty
  have hdisk := @OnDisk.of_empty _ float _ _ _ hname hp hempty
  obtain ⟨memes, hload, hrest⟩ := exists_of_bind_eq_ok hrun
  obtain ⟨hmemory, -⟩ := hdisk.inMemory_of_load hroot hload
  have hnew : Kept float p root ⟨fs, memes⟩ fun _ => none :=
    ⟨hdisk, hmemory.root_eq, hmemory.viewCounts⟩
  have hunnamed : ∀ n, ¬ MemeStore.Names (fun _ => none) n := by
    rintro n ⟨id, m, hm, -⟩
    cases hm
  obtain ⟨hkept, hw, hs, hnames⟩ := hnew.run hroot hI (hstart hnew) hnodup
    (fun n _ => hunnamed n) hrest
  refine ⟨p, hkept, hw, hs ?_, fun n hn => (hnames n hn).resolve_left (hunnamed n)⟩
  intro id m hm
  cases hm

/-! ### What is promised -/

/-- What can be seen of a meme after the calls `ops`: its views, its rating and its comments. -/
def MemeOp.observe (float : FloatArith F) (tree : PropertyTree F) (ops : List MemeOp) (id : MemeId)
    (w : MemeState F) : Except Exception (CInt × F × Except Exception (List Comment)) :=
  (ops.foldlM (fun w op => (perform float tree w op).map Prod.snd) w).map fun w =>
    (w.memes.getViewCount id, w.memes.getRating float id, MemeModule.getComments tree {} id w)

section

variable (float : FloatArith F) (tree : PropertyTree F) (chance : MemeChance) (req : Request)
  (res : Response) (w : MemeState F) (comment : Comment)

/-- The comment is for a meme that is there. -/
def Comment.Addressed : Prop :=
  ∃ n, stoi comment.id = .ok n ∧ MemeExists w.fs w.memes.root (MemeId.ofCInt n)

/-- The comment is acknowledged, its meme has it once more, and its rating is counted. -/
def CommentStored : Prop :=
  ∃ n rating reply before after, stoi comment.id = .ok n ∧ stoi comment.rating = .ok rating ∧
    MemeHandler.handlePostComment float tree chance req res w = .ok reply ∧
    reply.status = .created ∧
    MemeModule.getComments tree {} (MemeId.ofCInt n) w = .ok before ∧
    MemeModule.getComments tree {} (MemeId.ofCInt n) reply.state = .ok after ∧
    after.Perm (comment :: before) ∧
    reply.state.memes.ratings.lookup (MemeId.ofCInt n) =
      some (MemeModule.rated float (w.memes.ratings.lookup (MemeId.ofCInt n)) rating)

/-- The request is answered, but not acknowledged, and nothing will ever be seen of it. -/
def CommentRefused : Prop :=
  ∃ reply, MemeHandler.handlePostComment float tree chance req res w = .ok reply ∧
    reply.status ≠ .created ∧
    ∀ ops id, MemeOp.observe float tree ops id reply.state = MemeOp.observe float tree ops id w

/-- A comment is stored if its meme is there, and refused otherwise. -/
def StoresOrRefuses : Prop :=
  (comment.Addressed w → CommentStored float tree chance req res w comment) ∧
    (¬ comment.Addressed w → CommentRefused float tree chance req res w)

end

variable {chance : MemeChance} {req : Request} {res : Response} {comment : Comment}

/-- What the handler does with a comment whose id is a number. -/
lemma handlePostComment_of_ok (hcomment : Comment.make tree req.body = .ok comment) {n rating : CInt}
    (hid : stoi comment.id = .ok n) (hrating : stoi comment.rating = .ok rating) :
    MemeHandler.handlePostComment float tree chance req res w =
      MemeHandler.answer res .created "text/plain".toList "Successfully posted comment.".toList
        (MemeModule.addComment chance.faults chance.uuid (MemeId.ofCInt n) comment
          (MemeModule.addRating float chance.faults (MemeId.ofCInt n) rating w)) := by
  simp only [MemeHandler.handlePostComment, hcomment, ok_bind, hid, hrating]

/-- Where `stoi` finds nothing to read, the request is refused at once. -/
lemma handlePostComment_of_missing (hcomment : Comment.make tree req.body = .ok comment)
    (hmissing : stoi comment.id = .error .invalidArgument ∨
      Succeeds (stoi comment.id) ∧ stoi comment.rating = .error .invalidArgument) :
    MemeHandler.handlePostComment float tree chance req res w = .ok ⟨.not_found, res, w⟩ := by
  rcases hmissing with hid | ⟨⟨n, hid⟩, hrating⟩
  · simp only [MemeHandler.handlePostComment, hcomment, ok_bind, hid]
    rfl
  · simp only [MemeHandler.handlePostComment, hcomment, ok_bind, hid, hrating]
    rfl

/-- A request that is answered without two numbers has no number to read in the place of one. -/
lemma missing_of_handlePostComment {reply : Reply (MemeState F)}
    (hcomment : Comment.make tree req.body = .ok comment)
    (hnumbers : ¬ ∃ n rating, stoi comment.id = .ok n ∧ stoi comment.rating = .ok rating)
    (hreply : MemeHandler.handlePostComment float tree chance req res w = .ok reply) :
    stoi comment.id = .error .invalidArgument ∨
      Succeeds (stoi comment.id) ∧ stoi comment.rating = .error .invalidArgument := by
  simp only [MemeHandler.handlePostComment, hcomment, ok_bind] at hreply
  cases hid : stoi comment.id with
  | error e =>
    rw [hid] at hreply
    cases e with
    | invalidArgument => exact Or.inl rfl
    | outOfRange => cases hreply
  | ok n =>
    rw [hid] at hreply
    cases hrating : stoi comment.rating with
    | error e =>
      rw [hrating] at hreply
      cases e with
      | invalidArgument => exact Or.inr ⟨succeeds_ok n, rfl⟩
      | outOfRange => cases hreply
    | ok rating => exact absurd ⟨n, rating, hid, hrating⟩ hnumbers

/-- A comment is refused exactly where there is no number to read in the place of one. -/
lemma commentRefused_iff (hcomment : Comment.make tree req.body = .ok comment) :
    CommentRefused float tree chance req res w ↔
      stoi comment.id = .error .invalidArgument ∨
        Succeeds (stoi comment.id) ∧ stoi comment.rating = .error .invalidArgument := by
  constructor
  · rintro ⟨reply, hreply, hstatus, -⟩
    refine missing_of_handlePostComment hcomment ?_ hreply
    rintro ⟨n, rating, hid, hrating⟩
    rw [handlePostComment_of_ok hcomment hid hrating] at hreply
    cases hreply
    exact hstatus rfl
  · intro hmissing
    exact ⟨_, handlePostComment_of_missing hcomment hmissing, Status.noConfusion, fun _ _ => rfl⟩

/-- The comment of a meme that is there is stored. -/
lemma Kept.commentStored (h : Kept float p root w s) (hs : s.Commented tree)
    (hfaults : chance.faults = {}) (hplain : PlainName chance.uuid) (hnew : ¬ s.Names chance.uuid)
    (hcomment : Comment.make tree req.body = .ok comment) {n rating : CInt}
    (hid : stoi comment.id = .ok n) (hrating : stoi comment.rating = .ok rating)
    (hm : s (MemeId.ofCInt n) = some m) : CommentStored float tree chance req res w comment := by
  have hmade : Comment.make tree comment.content = .ok comment := by
    rwa [Comment.content_of_make hcomment]
  have hfresh : ∀ m, s (MemeId.ofCInt n) = some m → chance.uuid ∉ m.comments.map Prod.fst :=
    fun m hm hmem => hnew ⟨_, m, hm, hmem⟩
  have hkept := (h.addRating (MemeId.ofCInt n) rating).addComment hplain hfresh comment
  have hm' : s.comment (MemeId.ofCInt n) chance.uuid comment (MemeId.ofCInt n) =
      some { m with comments := m.comments ++ [(chance.uuid, comment)] } := by
    rw [MemeStore.comment, Function.update_self, hm]
    rfl
  have hs' : (s.comment (MemeId.ofCInt n) chance.uuid comment).Commented tree :=
    @MemeOp.commented_record _ tree s (.addComment ⟨chance.uuid, hplain⟩ (MemeId.ofCInt n) comment)
      hs hmade (fun name hname => Option.some.inj hname ▸ hnew) none
  obtain ⟨before, hbefore, hperm⟩ := h.getComments hm (hs _ m hm)
  obtain ⟨after, hafter, hperm'⟩ := hkept.getComments hm' (hs' _ _ hm')
  have hreply := @handlePostComment_of_ok _ float tree w chance req res comment hcomment n rating hid
    hrating
  rw [hfaults] at hreply
  refine ⟨n, rating, _, before, after, hid, hrating, hreply, rfl, hbefore, hafter, ?_, ?_⟩
  · rw [List.map_append] at hperm'
    exact hperm'.trans ((List.perm_append_singleton comment _).trans (hperm.symm.cons comment))
  · rw [MemeModule.memes_addComment, MemeModule.addRating_eq]
    exact AList.lookup_insert _

/-- In any run, a comment that is posted is stored if its meme is there and refused otherwise,
exactly if there is no number in the place of its id, or its meme is there and its rating a number,
or its meme is not there and there is no number in the place of its rating. A number that is too
large for an `int` is never refused. -/
theorem storesOrRefuses_iff {uninit : MemeModule.Uninit} {fs : FileSystem} {ops : List MemeOp}
    (hroot : root.getLast? ≠ some '/') (hdir : fs.isDirectory root = true)
    (hempty : fs.entries root = []) (hops : ∀ op ∈ ops, op.Comments tree)
    (hdrawn : (ops.filterMap MemeOp.drawn).Nodup)
    (hrun : MemeOp.runFrom float tree uninit fs root ops = .ok (w, s))
    (hfaults : chance.faults = {}) (hplain : PlainName chance.uuid)
    (hnew : chance.uuid ∉ ops.filterMap MemeOp.drawn)
    (hcomment : Comment.make tree req.body = .ok comment) :
    StoresOrRefuses float tree chance req res w comment ↔
      stoi comment.id = .error .invalidArgument ∨
        ∃ n, stoi comment.id = .ok n ∧
          (MemeExists w.fs w.memes.root (MemeId.ofCInt n) ∧
              (∃ rating, stoi comment.rating = .ok rating) ∨
            ¬ MemeExists w.fs w.memes.root (MemeId.ofCInt n) ∧
              stoi comment.rating = .error .invalidArgument) := by
  obtain ⟨p, hkept, hs, hnames⟩ : ∃ p, Kept float p root w s ∧ s.Commented tree ∧
      ¬ s.Names chance.uuid := by
    obtain ⟨p, hkept, -, hs, hnames⟩ :=
      Kept.runFrom (I := fun _ _ => True) hroot (fun _ _ _ => trivial) (fun _ => trivial) hdir hempty
        hdrawn hrun
    exact ⟨p, hkept, hs hops, fun hmem => hnew (hnames _ hmem)⟩
  constructor
  · intro hstores
    by_cases haddressed : comment.Addressed w
    · obtain ⟨n, hid, hexists⟩ := haddressed
      obtain ⟨-, rating, -, -, -, -, hrating, -⟩ := hstores.1 ⟨n, hid, hexists⟩
      exact Or.inr ⟨n, hid, Or.inl ⟨hexists, rating, hrating⟩⟩
    · rcases (commentRefused_iff hcomment).mp (hstores.2 haddressed) with hid | ⟨⟨n, hid⟩, hrating⟩
      · exact Or.inl hid
      · exact Or.inr ⟨n, hid, Or.inr ⟨fun hexists => haddressed ⟨n, hid, hexists⟩, hrating⟩⟩
  · intro hnumbers
    constructor
    · rintro ⟨n, hid, hexists⟩
      obtain ⟨m, hm⟩ := hkept.memeExists_iff.mp (hkept.root_eq ▸ hexists)
      rcases hnumbers with hnone | ⟨n', hid', ⟨-, rating, hrating⟩ | ⟨hmissing, -⟩⟩
      · rw [hid] at hnone
        cases hnone
      · exact hkept.commentStored hs hfaults hplain hnames hcomment hid hrating hm
      · obtain rfl := Except.ok.inj (hid.symm.trans hid')
        exact absurd hexists hmissing
    · intro hmissing
      refine (commentRefused_iff hcomment).mpr (hnumbers.imp_right ?_)
      rintro ⟨n, hid, ⟨hexists, -⟩ | ⟨-, hrating⟩⟩
      · exact absurd ⟨n, hid, hexists⟩ hmissing
      · exact ⟨⟨n, hid⟩, hrating⟩

/-- A `POST` of the comment to the location `/m`. -/
def commentRequest : Request := ⟨.post, "/m/comment".toList, sampleComment.content, []⟩

theorem storesOrRefuses_iff_commentRequest :
    ∃ w s, MemeOp.runFrom wholeFloat sampleTree ⟨fun _ => 0, fun _ => 0⟩ sampleDisk ['m']
        [.create sampleMeme] = .ok (w, s) ∧
      (StoresOrRefuses wholeFloat sampleTree { uuid := ['u'] } commentRequest {} w sampleComment ↔
        stoi sampleComment.id = .error .invalidArgument ∨
          ∃ n, stoi sampleComment.id = .ok n ∧
            (MemeExists w.fs w.memes.root (MemeId.ofCInt n) ∧
                (∃ rating, stoi sampleComment.rating = .ok rating) ∨
              ¬ MemeExists w.fs w.memes.root (MemeId.ofCInt n) ∧
                stoi sampleComment.rating = .error .invalidArgument)) := by
  obtain ⟨w, s, hrun⟩ : ∃ w s, MemeOp.runFrom wholeFloat sampleTree ⟨fun _ => 0, fun _ => 0⟩
      sampleDisk ['m'] [.create sampleMeme] = .ok (w, s) := ⟨_, _, rfl⟩
  have hops : ∀ op ∈ [MemeOp.create sampleMeme], op.Comments (sampleTree (F := CInt)) :=
    List.forall_mem_singleton.mpr trivial
  exact ⟨w, s, hrun, storesOrRefuses_iff (by decide) rfl rfl hops List.nodup_nil hrun rfl
    (by decide) List.not_mem_nil rfl⟩

/-- Without any meme a comment is acknowledged. Its rating shows when a meme is created. -/
theorem not_storesOrRefuses :
    ∃ w s reply, MemeOp.runFrom wholeFloat sampleTree ⟨fun _ => 0, fun _ => 0⟩ sampleDisk ['m'] [] =
        .ok (w, s) ∧
      MemeHandler.handleRequest wholeFloat sampleTree { uuid := ['u'] } "/m".toList commentRequest {}
        w = .ok reply ∧ reply.status = .created ∧
      MemeOp.observe wholeFloat sampleTree [.create sampleMeme] 1 reply.state =
        .ok (CInt.wrap (-1), CInt.wrap 5, .ok []) ∧
      MemeOp.observe wholeFloat sampleTree [.create sampleMeme] 1 w =
        .ok (CInt.wrap (-1), CInt.wrap (-1), .ok []) ∧
      ¬ StoresOrRefuses wholeFloat sampleTree { uuid := ['u'] } commentRequest {} w
        sampleComment := by
  refine ⟨_, _, _, rfl, rfl, rfl, rfl, rfl, ?_⟩
  intro hstores
  have haddressed : ¬ sampleComment.Addressed
      (⟨sampleDisk, ⟨['m'], 0, ∅, ∅⟩⟩ : MemeState CInt) := by
    rintro ⟨n, hid, hexists⟩
    obtain rfl := Except.ok.inj (show Except.ok (1 : CInt) = .ok n from hid)
    exact absurd hexists (by decide)
  obtain ⟨reply, hreply, hstatus, -⟩ := hstores.2 haddressed
  cases hreply
  exact hstatus rfl

end SocialNetworkApp
