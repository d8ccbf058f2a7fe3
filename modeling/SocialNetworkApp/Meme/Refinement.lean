import SocialNetworkApp.Meme.Restart

/-!
# The memes over whole runs

Calls of a module are made one after another, and at any point the module may be replaced by a new
one on the same root. What it answers is what a store of the calls made so far says.
-/

namespace SocialNetworkApp

open SocialNetworkApp.Core

/-- A call of a module, or a restart; what a call draws at random is part of it. -/
inductive MemeOp where
  | create (content : Str)
  | get (id : MemeId)
  | addComment (uuid : FileName) (id : MemeId) (comment : Comment)
  | addRating (id : MemeId) (rating : CInt)
  | remove (id : MemeId)
  | restart (uninit : MemeModule.Uninit)

namespace MemeOp

variable {F : Type} (float : FloatArith F) (tree : PropertyTree F)

/-- Make the call; it returns the id of a new meme. -/
def perform (w : MemeState F) : MemeOp → Except Exception (Option MemeId × MemeState F)
  | create content => .ok (MemeModule.create {} content w)
  | get id => (MemeModule.get float tree {} id w).map fun (_, w) => (none, w)
  | addComment uuid id comment => .ok (none, MemeModule.addComment {} uuid.val id comment w)
  | addRating id rating => .ok (none, MemeModule.addRating float {} id rating w)
  | remove id => .ok (none, MemeModule.remove {} id w)
  | restart uninit =>
    (MemeModule.load float {} uninit w.fs w.memes.root).map fun memes => (none, { w with memes })

/-- What the call means for the store, when it returned `result`. -/
def record (s : MemeStore) (result : Option MemeId) : MemeOp → MemeStore
  | create content =>
    match result with
    | some id => s.create id content
    | none => s
  | get id => s.view id
  | addComment uuid id comment => s.comment id uuid.val comment
  | addRating _ _ => s
  | remove id => s.remove id
  | restart _ => s

/-- The name drawn for a comment. -/
def drawn : MemeOp → Option Str
  | addComment uuid _ _ => some uuid.val
  | _ => none

/-- What is created has a content that is not empty, and is a meme; comments are what the
constructor of `Comment` makes. -/
def Valid : MemeOp → Prop
  | create content =>
    content ≠ [] ∧ ∀ count rating, ∃ meme, Meme.make tree content count rating = .ok meme
  | addComment _ _ comment => Comment.make tree comment.content = .ok comment
  | _ => True

/-- The part of it that is about comments. -/
def Comments : MemeOp → Prop
  | addComment _ _ comment => Comment.make tree comment.content = .ok comment
  | _ => True

/-- One call after another, with the store they mean. -/
def run (ops : List MemeOp) (w : MemeState F) (s : MemeStore) :
    Except Exception (MemeState F × MemeStore) :=
  ops.foldlM (fun (w, s) op => (op.perform float tree w).map fun (result, w) =>
    (w, op.record s result)) (w, s)

/-- A new module on the root, and then one call after another. -/
def runFrom (uninit : MemeModule.Uninit) (fs : FileSystem) (root : Str) (ops : List MemeOp) :
    Except Exception (MemeState F × MemeStore) := do
  let memes ← MemeModule.load float {} uninit fs root
  run float tree ops ⟨fs, memes⟩ fun _ => none

end MemeOp

/-- The counters of ids and views stay below `2 ^ 31`. -/
def CountersFit {F : Type} (w : MemeState F) (s : MemeStore) : Prop :=
  w.memes.idCount.toNat < 2 ^ 31 ∧ ∀ id m, s id = some m → m.views < 2 ^ 31

/-- What the module answers is what the store says. -/
def Answers {F : Type} (float : FloatArith F) (tree : PropertyTree F) (w : MemeState F)
    (s : MemeStore) (id : MemeId) : Prop :=
  match s id with
  | some m =>
    (∃ meme w', MemeModule.get float tree {} id w = .ok (some meme, w') ∧
      meme.content = m.content) ∧
    (w.memes.getViewCount id).val = (if m.views = 0 then -1 else (m.views : Int)) ∧
    ∃ comments, MemeModule.getComments tree {} id w = .ok comments ∧
      comments.Perm (m.comments.map Prod.snd)
  | none =>
    (∃ w', MemeModule.get float tree {} id w = .ok (none, w')) ∧
    MemeModule.getComments tree {} id w = .ok []

variable {F : Type} {float : FloatArith F} {tree : PropertyTree F} {p : List Str} {root : Str}
  {w : MemeState F} {s : MemeStore} {id : MemeId} {m : MemeRecord}

/-! ### Calls -/

/-- All memes are valid. -/
def MemeStore.Valid (tree : PropertyTree F) (s : MemeStore) : Prop :=
  ∀ id m, s id = some m → m.Valid tree

/-- The names of the comments. -/
def MemeStore.Names (s : MemeStore) (n : Str) : Prop :=
  ∃ id m, s id = some m ∧ n ∈ m.comments.map Prod.fst

/-- The comments of all memes are comments, in files of their own. -/
def MemeStore.Commented (tree : PropertyTree F) (s : MemeStore) : Prop :=
  ∀ id m, s id = some m → m.Commented tree

namespace MemeStore

/-- A change of one meme. -/
lemma Commented.update {r : Option MemeRecord} (h : s.Commented tree)
    (hr : ∀ m, r = some m → m.Commented tree) : Commented tree (Function.update s id r) := by
  intro id' m hm
  by_cases hid : id' = id
  · subst hid
    rw [Function.update_self] at hm
    exact hr m hm
  · rw [Function.update_of_ne hid] at hm
    exact h id' m hm

lemma Names.of_update {r : Option MemeRecord} {n : Str} (h : Names (Function.update s id r) n) :
    s.Names n ∨ ∃ m, r = some m ∧ n ∈ m.comments.map Prod.fst := by
  obtain ⟨id', m, hm, hn⟩ := h
  by_cases hid : id' = id
  · subst hid
    rw [Function.update_self] at hm
    exact Or.inr ⟨m, hm, hn⟩
  · rw [Function.update_of_ne hid] at hm
    exact Or.inl ⟨id', m, hm, hn⟩

end MemeStore

namespace MemeOp

/-- A comment that was made stands with the others, under a new name. -/
lemma commented_record {op : MemeOp} (hs : s.Commented tree) (hop : op.Comments tree)
    (hdrawn : ∀ n, op.drawn = some n → ¬ s.Names n) (result : Option MemeId) :
    (op.record s result).Commented tree := by
  cases op with
  | create content =>
    cases result with
    | none => exact hs
    | some id =>
      refine hs.update fun m hm => ?_
      obtain rfl := Option.some.inj hm
      exact ⟨fun hc => absurd hc List.not_mem_nil, fun hc => absurd hc List.not_mem_nil,
        List.nodup_nil⟩
  | get id =>
    refine hs.update fun m hm => ?_
    obtain ⟨m₀, hm₀, rfl⟩ := Option.map_eq_some_iff.mp hm
    have hcommented := hs id m₀ hm₀
    exact ⟨hcommented.plain, hcommented.made, hcommented.nodup⟩
  | addComment uuid id comment =>
    refine hs.update fun m hm => ?_
    obtain ⟨m₀, hm₀, rfl⟩ := Option.map_eq_some_iff.mp hm
    have hcommented := hs id m₀ hm₀
    refine ⟨fun {n c} hc => ?_, fun {n c} hc => ?_, ?_⟩
    · rcases List.mem_append.mp hc with hc | hc
      · exact hcommented.plain hc
      · obtain ⟨rfl, -⟩ := Prod.mk.inj (List.mem_singleton.mp hc)
        exact uuid.2
    · rcases List.mem_append.mp hc with hc | hc
      · exact hcommented.made hc
      · obtain ⟨-, rfl⟩ := Prod.mk.inj (List.mem_singleton.mp hc)
        exact hop
    · rw [List.map_append, List.nodup_append_comm]
      exact List.nodup_cons.mpr ⟨fun hmem => hdrawn _ rfl ⟨id, m₀, hm₀, hmem⟩, hcommented.nodup⟩
  | addRating id rating => exact hs
  | remove id => exact hs.update fun m hm => by cases hm
  | restart uninit => exact hs

/-- The contents of the memes are those of the store, or that of a new meme. -/
lemma content_record {op : MemeOp} {result : Option MemeId} (h : op.record s result id = some m) :
    (∃ m₀, s id = some m₀ ∧ m₀.content = m.content) ∨ op = .create m.content := by
  have hupdate : ∀ {id' : MemeId} {r : Option MemeRecord}, Function.update s id' r id = some m →
      (∃ m₀, s id = some m₀ ∧ m₀.content = m.content) ∨ id = id' ∧ r = some m := by
    intro id' r h
    rw [Function.update_apply] at h
    split_ifs at h with hid
    · exact Or.inr ⟨hid, h⟩
    · exact Or.inl ⟨m, h, rfl⟩
  cases op with
  | create content =>
    cases result with
    | none => exact Or.inl ⟨m, h, rfl⟩
    | some id' =>
      refine (hupdate h).imp_right fun hm => ?_
      rw [← Option.some.inj hm.2]
  | get id' =>
    rcases hupdate h with hm | ⟨rfl, hm⟩
    · exact Or.inl hm
    · obtain ⟨m₀, hm₀, rfl⟩ := Option.map_eq_some_iff.mp hm
      exact Or.inl ⟨m₀, hm₀, rfl⟩
  | addComment uuid id' comment =>
    rcases hupdate h with hm | ⟨rfl, hm⟩
    · exact Or.inl hm
    · obtain ⟨m₀, hm₀, rfl⟩ := Option.map_eq_some_iff.mp hm
      exact Or.inl ⟨m₀, hm₀, rfl⟩
  | addRating id' rating => exact Or.inl ⟨m, h, rfl⟩
  | remove id' =>
    rcases hupdate h with hm | ⟨-, hm⟩
    · exact Or.inl hm
    · cases hm
  | restart uninit => exact Or.inl ⟨m, h, rfl⟩

lemma comments_of_valid {op : MemeOp} (hop : op.Valid tree) : op.Comments tree := by
  cases op with
  | addComment uuid id comment => exact hop
  | create | get | addRating | remove | restart => trivial

/-- The store of valid memes stays one. -/
lemma valid_record {op : MemeOp} (hs : s.Valid tree) (hop : op.Valid tree)
    (hdrawn : ∀ n, op.drawn = some n → ¬ s.Names n) (result : Option MemeId) :
    (op.record s result).Valid tree := by
  intro id m hm
  obtain ⟨hplain, hmade, hnodup⟩ :=
    commented_record (fun id m hm => (hs id m hm).commented) (comments_of_valid hop) hdrawn result
      id m hm
  rcases content_record hm with ⟨m₀, hm₀, hcontent⟩ | rfl
  · have hvalid := hs id m₀ hm₀
    exact ⟨hcontent ▸ hvalid.content_ne_nil, hcontent ▸ hvalid.parses, hplain, hmade, hnodup⟩
  · exact ⟨hop.1, hop.2, hplain, hmade, hnodup⟩

/-- Only the name that is drawn is new. -/
lemma names_record {op : MemeOp} {result : Option MemeId} {n : Str}
    (h : (op.record s result).Names n) : s.Names n ∨ op.drawn = some n := by
  cases op with
  | create content =>
    cases result with
    | none => exact Or.inl h
    | some id =>
      rcases h.of_update with h | ⟨m, hm, hn⟩
      · exact Or.inl h
      · obtain rfl := Option.some.inj hm
        exact absurd hn List.not_mem_nil
  | get id =>
    rcases h.of_update with h | ⟨m, hm, hn⟩
    · exact Or.inl h
    · obtain ⟨m₀, hm₀, rfl⟩ := Option.map_eq_some_iff.mp hm
      exact Or.inl ⟨id, m₀, hm₀, hn⟩
  | addComment uuid id comment =>
    rcases h.of_update with h | ⟨m, hm, hn⟩
    · exact Or.inl h
    · obtain ⟨m₀, hm₀, rfl⟩ := Option.map_eq_some_iff.mp hm
      rw [List.map_append, List.mem_append] at hn
      rcases hn with hn | hn
      · exact Or.inl ⟨id, m₀, hm₀, hn⟩
      · exact Or.inr (congrArg some (List.mem_singleton.mp hn).symm)
  | addRating id rating => exact Or.inl h
  | remove id =>
    rcases h.of_update with h | ⟨m, hm, -⟩
    · exact Or.inl h
    · cases hm
  | restart uninit => exact Or.inl h

/-- The names drawn by later calls stay new. -/
lemma not_names_record {op : MemeOp} {ops : List MemeOp} {result : Option MemeId}
    (hnodup : ((op :: ops).filterMap drawn).Nodup)
    (hfresh : ∀ n ∈ (op :: ops).filterMap drawn, ¬ s.Names n) {n : Str}
    (hn : n ∈ ops.filterMap drawn) : ¬ (op.record s result).Names n := by
  intro hnames
  rcases names_record hnames with hnames | hdrawn
  · exact hfresh n (((List.sublist_cons_self op ops).filterMap drawn).subset hn) hnames
  · rw [List.filterMap_cons_some hdrawn] at hnodup
    exact (List.nodup_cons.mp hnodup).1 hn

/-- A call returns and does to the store what it means. -/
lemma perform_stored {op : MemeOp} (h : Stored float p root w s) (hs : s.Valid tree)
    (hfloat : float.Reads) (hroot : root.getLast? ≠ some '/')
    (hdrawn : ∀ n, op.drawn = some n → ¬ s.Names n) (hcount : w.memes.idCount.toNat < 2 ^ 31) :
    ∃ result w', op.perform float tree w = .ok (result, w') ∧
      Stored float p root w' (op.record s result) := by
  cases op with
  | create content =>
    obtain ⟨w', hcreate, -, hstored⟩ := h.create content hcount
    exact ⟨_, w', congrArg Except.ok hcreate, hstored⟩
  | get id =>
    cases hm : s id with
    | none =>
      refine ⟨none, w, ?_, ?_⟩
      · rw [perform, h.get_of_none hm]
        rfl
      · rw [record, MemeStore.view_of_none hm]
        exact h
    | some m =>
      obtain ⟨meme, hget, -⟩ := h.get hm (hs id m hm)
      refine ⟨none, _, ?_, h.incrementViewCount hm⟩
      rw [perform, hget]
      rfl
  | addComment uuid id comment =>
    refine ⟨none, _, rfl, h.addComment uuid.2 (fun m hm hmem => ?_) comment⟩
    exact hdrawn _ rfl ⟨id, m, hm, hmem⟩
  | addRating id rating => exact ⟨none, _, rfl, h.addRating id rating⟩
  | remove id => exact ⟨none, _, rfl, h.remove id⟩
  | restart uninit =>
    obtain ⟨memes, hload, hmemory, -⟩ := h.disk.load hfloat hroot uninit
    refine ⟨none, { w with memes }, ?_, ⟨h.disk, hmemory⟩⟩
    rw [perform, h.memory.root_eq, hload]
    rfl

end MemeOp

/-! ### Counters -/

/-- No counter exceeds `k`. -/
structure CountersWithin (k : Nat) (w : MemeState F) (s : MemeStore) : Prop where
  idCount : w.memes.idCount.toNat ≤ k
  views : ∀ {id : MemeId} {m : MemeRecord}, s id = some m → m.views ≤ k

namespace CountersWithin

variable {k : Nat}

lemma fit (h : CountersWithin k w s) (hk : k < 2 ^ 31) : CountersFit w s :=
  ⟨Nat.lt_of_le_of_lt h.idCount hk, fun _ _ hm => Nat.lt_of_le_of_lt (h.views hm) hk⟩

lemma update {w' : MemeState F} {r : Option MemeRecord} (h : CountersWithin k w s)
    (hcount : w'.memes.idCount.toNat ≤ k + 1) (hr : ∀ m, r = some m → m.views ≤ k + 1) :
    CountersWithin (k + 1) w' (Function.update s id r) := by
  refine ⟨hcount, fun {id' m} hm => ?_⟩
  by_cases hid : id' = id
  · subst hid
    rw [Function.update_self] at hm
    exact hr m hm
  · rw [Function.update_of_ne hid] at hm
    exact Nat.le_succ_of_le (h.views hm)

/-- A call counts by one at most. -/
lemma perform {op : MemeOp} {result : Option MemeId} {w' : MemeState F}
    (h : CountersWithin k w s) (hk : k < 2 ^ 31) (hstored : Stored float p root w s)
    (hs : s.Valid tree) (hfloat : float.Reads) (hroot : root.getLast? ≠ some '/')
    (hperform : op.perform float tree w = .ok (result, w')) :
    CountersWithin (k + 1) w' (op.record s result) := by
  have hle := Nat.le_succ_of_le h.idCount
  cases op with
  | create content =>
    obtain ⟨w'', hcreate, hcount, -⟩ :=
      hstored.create content (Nat.lt_of_le_of_lt h.idCount hk)
    rw [MemeOp.perform, hcreate] at hperform
    cases hperform
    refine h.update ?_ fun m hm => ?_
    · rw [hcount, UInt32.toNat_add]
      exact (Nat.mod_le _ _).trans (Nat.succ_le_succ h.idCount)
    · obtain rfl := Option.some.inj hm
      exact Nat.zero_le _
  | get id =>
    have hcount : w'.memes.idCount = w.memes.idCount := by
      cases hm : s id with
      | none =>
        rw [MemeOp.perform, hstored.get_of_none hm] at hperform
        cases hperform
        rfl
      | some m =>
        obtain ⟨meme, hget, -⟩ := hstored.get hm (hs id m hm)
        rw [MemeOp.perform, hget] at hperform
        cases hperform
        rfl
    refine h.update (hcount ▸ hle) fun m hm => ?_
    obtain ⟨m₀, hm₀, rfl⟩ := Option.map_eq_some_iff.mp hm
    exact Nat.succ_le_succ (h.views hm₀)
  | addComment uuid id comment =>
    cases hperform
    refine h.update ?_ fun m hm => ?_
    · rw [MemeModule.addComment]
      split_ifs <;> exact hle
    · obtain ⟨m₀, hm₀, rfl⟩ := Option.map_eq_some_iff.mp hm
      exact Nat.le_succ_of_le (show m₀.views ≤ k from h.views hm₀)
  | addRating id rating =>
    cases hperform
    exact ⟨hle, fun hm => Nat.le_succ_of_le (h.views hm)⟩
  | remove id =>
    cases hperform
    exact h.update hle fun m hm => by cases hm
  | restart uninit =>
    obtain ⟨memes, hload, -, hlast⟩ := hstored.disk.load hfloat hroot uninit
    rw [MemeOp.perform, hstored.memory.root_eq, hload] at hperform
    cases hperform
    refine ⟨?_, fun hm => Nat.le_succ_of_le (h.views hm)⟩
    rcases hlast with hzero | ⟨m, hm⟩
    · rw [show memes.idCount = 0 from hzero]
      exact Nat.zero_le _
    · exact (UInt32.le_iff_toNat_le.mp (hstored.memory.counted hm)).trans hle

end CountersWithin

/-! ### Runs -/

/-- The calls can be made: the disk and the module hold a store of valid memes, and the names drawn
for comments are new. -/
structure Ready (float : FloatArith F) (tree : PropertyTree F) (p : List Str) (root : Str)
    (ops : List MemeOp) (w : MemeState F) (s : MemeStore) : Prop where
  stored : Stored float p root w s
  valid : s.Valid tree
  ops_valid : ∀ op ∈ ops, op.Valid tree
  nodup : (ops.filterMap MemeOp.drawn).Nodup
  fresh : ∀ n ∈ ops.filterMap MemeOp.drawn, ¬ s.Names n

namespace Ready

variable {op : MemeOp} {ops : List MemeOp}

lemma perform (h : Ready float tree p root (op :: ops) w s) (hfloat : float.Reads)
    (hroot : root.getLast? ≠ some '/') (hcount : w.memes.idCount.toNat < 2 ^ 31) :
    ∃ result w', op.perform float tree w = .ok (result, w') ∧
      Ready float tree p root ops w' (op.record s result) := by
  have hnew : ∀ n, op.drawn = some n → ¬ s.Names n := fun n hn =>
    h.fresh n (List.mem_filterMap.mpr ⟨op, List.mem_cons_self, hn⟩)
  obtain ⟨result, w', hperform, hstored⟩ :=
    MemeOp.perform_stored h.stored h.valid hfloat hroot hnew hcount
  have hsub := (List.sublist_cons_self op ops).filterMap MemeOp.drawn
  refine ⟨result, w', hperform, hstored, ?_, ?_, h.nodup.sublist hsub, fun n hn => ?_⟩
  · exact MemeOp.valid_record h.valid (h.ops_valid op List.mem_cons_self) hnew result
  · exact fun op' hop' => h.ops_valid op' (List.mem_cons_of_mem _ hop')
  · exact MemeOp.not_names_record h.nodup h.fresh hn

end Ready

namespace MemeOp

variable {op : MemeOp} {ops : List MemeOp}

lemma run_cons {result : Option MemeId} {w' : MemeState F}
    (h : op.perform float tree w = .ok (result, w')) :
    run float tree (op :: ops) w s = run float tree ops w' (op.record s result) := by
  simp only [run, List.foldlM_cons, h]
  rfl

/-- While the counters fit, every run goes through and ends with a store. -/
lemma run_stored (h : Ready float tree p root ops w s) (hfloat : float.Reads)
    (hroot : root.getLast? ≠ some '/')
    (hfit : ∀ pre, pre <+: ops → ∀ w' s', run float tree pre w s = .ok (w', s') →
      CountersFit w' s') :
    ∃ w' s', run float tree ops w s = .ok (w', s') ∧ Stored float p root w' s' ∧ s'.Valid tree := by
  induction ops generalizing w s with
  | nil => exact ⟨w, s, rfl, h.stored, h.valid⟩
  | cons op ops ih =>
    obtain ⟨result, w', hperform, hready⟩ :=
      h.perform hfloat hroot (hfit [] List.nil_prefix w s rfl).1
    rw [run_cons hperform]
    refine ih hready fun pre hpre w'' s'' hrun => ?_
    rw [← run_cons hperform] at hrun
    exact hfit (op :: pre) (List.cons_prefix_cons.mpr ⟨rfl, hpre⟩) w'' s'' hrun

/-- A run counts by its length at most. -/
lemma run_countersWithin {k : Nat} {w' : MemeState F} {s' : MemeStore}
    (h : Ready float tree p root ops w s) (hfloat : float.Reads) (hroot : root.getLast? ≠ some '/')
    (hcounters : CountersWithin k w s) (hk : k + ops.length < 2 ^ 31)
    (hrun : run float tree ops w s = .ok (w', s')) : CountersWithin (k + ops.length) w' s' := by
  induction ops generalizing w s k with
  | nil =>
    cases hrun
    exact hcounters
  | cons op ops ih =>
    rw [List.length_cons] at hk ⊢
    have hlt : k < 2 ^ 31 := by omega
    obtain ⟨result, w₁, hperform, hready⟩ :=
      h.perform hfloat hroot (Nat.lt_of_le_of_lt hcounters.idCount hlt)
    rw [run_cons hperform] at hrun
    have hrest := ih hready (hcounters.perform hlt h.stored h.valid hfloat hroot hperform)
      (by omega) hrun
    rwa [Nat.add_assoc, Nat.add_comm 1] at hrest

end MemeOp

/-- What is stored is what is answered. -/
lemma Stored.answers (h : Stored float p root w s) (hs : s.Valid tree) (hfit : CountersFit w s)
    (id : MemeId) : Answers float tree w s id := by
  rw [Answers]
  cases hm : s id with
  | none => exact ⟨⟨w, h.get_of_none hm⟩, h.getComments_of_none hm⟩
  | some m =>
    obtain ⟨meme, hget, hcontent⟩ := h.get hm (hs id m hm)
    refine ⟨⟨meme, _, hget, hcontent⟩, ?_, h.getComments hm (hs id m hm).commented⟩
    have hviews := h.memory.viewCounts id
    rw [hm, Option.bind_some, MemeRecord.count] at hviews
    have hlt := hfit.2 id m hm
    split_ifs with hzero
    · rw [if_pos hzero] at hviews
      rw [MemeModule.getViewCount, hviews]
      rfl
    · rw [if_neg hzero] at hviews
      rw [MemeModule.getViewCount, hviews]
      simp only [CInt.wrap]
      omega

/-- Calls can be made on a new module on an empty root. -/
lemma MemeOp.runFrom_empty {uninit : MemeModule.Uninit} {fs : FileSystem} {ops : List MemeOp}
    (hfloat : float.Reads) (hroot : root.getLast? ≠ some '/') (hdir : fs.isDirectory root = true)
    (hempty : fs.entries root = []) (hops : ∀ op ∈ ops, op.Valid tree)
    (hdrawn : (ops.filterMap drawn).Nodup) :
    ∃ p memes, (∀ ops, runFrom float tree uninit fs root ops =
        run float tree ops ⟨fs, memes⟩ fun _ => none) ∧ memes.idCount = 0 ∧
      Ready float tree p root ops ⟨fs, memes⟩ fun _ => none := by
  obtain ⟨p, hname, hp⟩ := FileSystem.isDirectory_eq_true hdir
  rw [FileSystem.entries, hname] at hempty
  have hdisk := @OnDisk.of_empty _ float _ _ _ hname hp hempty
  obtain ⟨memes, hload, hmemory, hlast⟩ := hdisk.load hfloat hroot uninit
  refine ⟨p, memes, fun ops => ?_, ?_, ⟨⟨hdisk, hmemory⟩, ?_, hops, hdrawn, ?_⟩⟩
  · rw [runFrom, hload]
    rfl
  · rcases hlast with hzero | ⟨m, hm⟩
    · exact hzero
    · cases hm
  · intro id m hm
    cases hm
  · rintro n - ⟨id, m, hm, -⟩
    cases hm

/-- Runs that are short enough keep the counters in bounds. -/
lemma MemeOp.runFrom_countersFit {uninit : MemeModule.Uninit} {fs : FileSystem}
    {pre ops : List MemeOp} (hfloat : float.Reads) (hroot : root.getLast? ≠ some '/')
    (hdir : fs.isDirectory root = true) (hempty : fs.entries root = [])
    (hops : ∀ op ∈ ops, op.Valid tree) (hdrawn : (ops.filterMap drawn).Nodup)
    (hlength : ops.length < 2 ^ 31) (hpre : pre <+: ops)
    (hrun : runFrom float tree uninit fs root pre = .ok (w, s)) : CountersFit w s := by
  obtain ⟨p, memes, hfrom, hzero, hready⟩ := @runFrom_empty _ float tree _ uninit _ _ hfloat hroot
    hdir hempty (fun op hop => hops op (hpre.subset hop))
    (hdrawn.sublist (hpre.sublist.filterMap drawn))
  have hlength := Nat.lt_of_le_of_lt hpre.length_le hlength
  rw [hfrom] at hrun
  have hcounters : CountersWithin 0 (⟨fs, memes⟩ : MemeState F) fun _ => none :=
    ⟨by rw [hzero]; rfl, fun hm => by cases hm⟩
  rw [← Nat.zero_add pre.length] at hlength
  exact (run_countersWithin hready hfloat hroot hcounters hlength hrun).fit hlength

/-- On a root that is empty at first, a module answers through all calls and restarts what the
calls have made of the memes, and every meme that is created has an id that no meme has. -/
theorem MemeOp.run_answers {F : Type} (float : FloatArith F) (tree : PropertyTree F)
    (uninit : MemeModule.Uninit) (fs : FileSystem) (root : Str) (ops : List MemeOp)
    (hfloat : float.Reads) (hroot : root.getLast? ≠ some '/') (hdir : fs.isDirectory root = true)
    (hempty : fs.entries root = []) (hops : ∀ op ∈ ops, op.Valid tree)
    (hdrawn : (ops.filterMap drawn).Nodup)
    (hfit : ∀ pre, pre <+: ops → ∀ w s, runFrom float tree uninit fs root pre = .ok (w, s) →
      CountersFit w s) :
    ∃ w s, runFrom float tree uninit fs root ops = .ok (w, s) ∧
      (∀ id, Answers float tree w s id) ∧
      ∀ content, ∃ id w', MemeModule.create {} content w = (some id, w') ∧ s id = none := by
  obtain ⟨p, memes, hfrom, -, hready⟩ :=
    @runFrom_empty _ _ _ _ uninit _ _ hfloat hroot hdir hempty hops hdrawn
  simp only [hfrom] at hfit ⊢
  obtain ⟨w, s, hrun, hstored, hvalid⟩ := run_stored hready hfloat hroot hfit
  have hlast := hfit ops (List.prefix_refl ops) w s hrun
  refine ⟨w, s, hrun, hstored.answers hvalid hlast, fun content => ?_⟩
  obtain ⟨w', hcreate, -, -⟩ := hstored.create content hlast.1
  exact ⟨_, w', hcreate, hstored.next_none hlast.1⟩

/-- A meme and a comment, as they are posted. -/
def sampleMeme : Str := "\x7b\"top\":\"a\",\"bottom\":\"b\",\"template\":\"c\"\x7d".toList

def sampleComment : Comment :=
  ⟨"\x7b\"comment\":\"d\",\"id\":\"1\",\"rating\":\"5\"\x7d".toList, ['d'], ['1'], ['5']⟩

/-- Trees of these two texts. -/
def sampleTree {F : Type} : PropertyTree F where
  readJson content :=
    if content = sampleMeme then some fun key =>
      if key = "top".toList then some ['a']
      else if key = "bottom".toList then some ['b']
      else if key = "template".toList then some ['c']
      else none
    else if content = sampleComment.content then some fun key =>
      if key = "comment".toList then some ['d']
      else if key = "id".toList then some ['1']
      else if key = "rating".toList then some ['5']
      else none
    else none
  writeInfo _ _ comments := comments.flatten

/-- A disk on which the directory `m` is all there is. -/
def sampleDisk : FileSystem :=
  ⟨FileTree.bare.insert [['m']] .dir (List.cons_ne_nil _ _) FileTree.bare.root_dir fun _ => rfl, []⟩

/-- A meme is created, asked for, commented and rated before a restart. -/
def sampleOps : List MemeOp :=
  [.create sampleMeme, .get 1, .addComment ⟨"6ba7b810".toList, by decide⟩ 1 sampleComment,
    .addRating 1 1, .restart ⟨fun _ => 0, fun _ => 0⟩]

theorem MemeOp.run_answers_sampleOps :
    ∃ w s, runFrom wholeFloat sampleTree ⟨fun _ => 0, fun _ => 0⟩ sampleDisk ['m'] sampleOps =
        .ok (w, s) ∧
      (∀ id, Answers wholeFloat sampleTree w s id) ∧
      ∀ content, ∃ id w', MemeModule.create {} content w = (some id, w') ∧ s id = none := by
  have hroot : ['m'].getLast? ≠ some '/' := by decide
  have hdir : sampleDisk.isDirectory ['m'] = true := rfl
  have hempty : sampleDisk.entries ['m'] = [] := rfl
  have hdrawn : (sampleOps.filterMap drawn).Nodup := List.nodup_singleton "6ba7b810".toList
  have hlength : sampleOps.length < 2 ^ 31 := by decide
  have hops : ∀ op ∈ sampleOps, op.Valid (sampleTree (F := CInt)) := by
    have hmeme : (create sampleMeme).Valid (sampleTree (F := CInt)) :=
      ⟨List.cons_ne_nil _ _, fun _ _ => ⟨_, rfl⟩⟩
    refine List.forall_mem_cons.mpr ⟨hmeme, List.forall_mem_cons.mpr ⟨trivial, ?_⟩⟩
    refine List.forall_mem_cons.mpr ⟨rfl, List.forall_mem_cons.mpr ⟨trivial, ?_⟩⟩
    exact List.forall_mem_singleton.mpr trivial
  exact run_answers wholeFloat sampleTree _ sampleDisk ['m'] sampleOps wholeFloat_reads hroot hdir
    hempty hops hdrawn fun pre hpre w s => runFrom_countersFit wholeFloat_reads hroot hdir hempty
      hops hdrawn hlength hpre

end SocialNetworkApp
