import Mathlib.Algebra.BigOperators.Group.Finset.Piecewise
import Mathlib.Data.Fintype.Basic
import SocialNetworkApp.Meme.Concurrent
import SocialNetworkApp.Meme.Ratings

/-!
# No update is lost

Of the steps of a call only one changes the tables of the module, if any, and that step is done
under a mutex. So the tables are those that the updates lead to one after another, in the order of
their steps, and every call has made its update once.
-/

namespace SocialNetworkApp

open SocialNetworkApp.Core

deriving instance DecidableEq for MemeCall

/-- The rating a call gives to a meme. -/
def MemeCall.ratingOf (id : MemeId) : MemeCall → Option CInt
  | addRating id' rating => if id' = id then some rating else none
  | _ => none

/-- What a step does to the tables of a module. -/
inductive MemeUpdate where
  | numbered
  | viewed (id : MemeId)
  | rated (id : MemeId) (rating : CInt)
deriving DecidableEq

namespace MemeUpdate

variable {F : Type} (float : FloatArith F)

/-- One more view. -/
def countView (count : Option CInt) : Option CInt := some (count.elim 1 CInt.succ)

/-- One more rating, as `add_rating` reckons with it. -/
def countRating (old : Option (CInt × F)) (rating : CInt) : Option (CInt × F) :=
  some (MemeModule.rated float old rating)

/-- The tables after an update. -/
def apply (memes : MemeModule F) : MemeUpdate → MemeModule F
  | numbered => { memes with idCount := memes.idCount + 1 }
  | viewed id =>
    let viewCount := (memes.viewCounts.lookup id).elim 1 CInt.succ
    { memes with viewCounts := memes.viewCounts.insert id viewCount }
  | rated id rating =>
    let newRating := MemeModule.rated float (memes.ratings.lookup id) rating
    { memes with ratings := memes.ratings.insert id newRating }

/-- How many views of a meme an update is. -/
def views (id : MemeId) (u : MemeUpdate) : Nat := if u = viewed id then 1 else 0

/-- The rating of a meme that an update is. -/
def ratingOf (id : MemeId) : MemeUpdate → Option CInt
  | rated id' rating => if id' = id then some rating else none
  | _ => none

variable {float} {memes : MemeModule F} {id : MemeId}

lemma lookup_viewCounts_apply (u : MemeUpdate) :
    (apply float memes u).viewCounts.lookup id =
      if u = viewed id then countView (memes.viewCounts.lookup id)
      else memes.viewCounts.lookup id := by
  cases u with
  | viewed id' =>
    by_cases hid : id' = id
    · rw [hid, if_pos rfl]
      exact AList.lookup_insert _
    · rw [if_neg (by simpa using hid)]
      exact AList.lookup_insert_ne (Ne.symm hid)
  | _ => rfl

/-- The views of a meme are counted from the updates that view it. -/
lemma lookup_viewCounts_foldl (log : List MemeUpdate) :
    (log.foldl (apply float) memes).viewCounts.lookup id =
      countView^[(log.map (views id)).sum] (memes.viewCounts.lookup id) := by
  induction log generalizing memes with
  | nil => rfl
  | cons u log ih =>
    rw [List.foldl_cons, ih, lookup_viewCounts_apply, List.map_cons, List.sum_cons, views]
    by_cases hu : u = viewed id
    · rw [if_pos hu, if_pos hu, Nat.add_comm, Function.iterate_succ_apply]
    · rw [if_neg hu, if_neg hu, Nat.zero_add]

lemma lookup_ratings_apply (u : MemeUpdate) :
    (apply float memes u).ratings.lookup id =
      (u.ratingOf id).elim (memes.ratings.lookup id)
        (countRating float (memes.ratings.lookup id)) := by
  cases u with
  | rated id' rating =>
    rw [ratingOf]
    by_cases hid : id' = id
    · rw [hid, if_pos rfl]
      exact AList.lookup_insert _
    · rw [if_neg hid]
      exact AList.lookup_insert_ne (Ne.symm hid)
  | _ => rfl

/-- The rating of a meme comes from the updates that rate it, in their order. -/
lemma lookup_ratings_foldl (log : List MemeUpdate) :
    (log.foldl (apply float) memes).ratings.lookup id =
      (log.filterMap (ratingOf id)).foldl (countRating float) (memes.ratings.lookup id) := by
  induction log generalizing memes with
  | nil => rfl
  | cons u log ih =>
    rw [List.foldl_cons, ih, lookup_ratings_apply, List.filterMap_cons]
    cases u.ratingOf id <;> rfl

/-- A sum over the ratings of a meme. -/
lemma sum_ratings {M : Type*} [AddCommMonoid M] (f : CInt → M) (log : List MemeUpdate) :
    ((log.filterMap (ratingOf id)).map f).sum =
      (log.map fun u => (u.ratingOf id).elim 0 f).sum := by
  induction log with
  | nil => rfl
  | cons u log ih =>
    rw [List.filterMap_cons, List.map_cons, List.sum_cons, ← ih]
    cases u.ratingOf id with
    | none => exact (zero_add _).symm
    | some rating => rfl

end MemeUpdate

/-! ### One step -/

namespace CallState

variable {F : Type} {float : FloatArith F} {tree : PropertyTree F} {faults : StorageFaults}

/-- The update the next step makes. -/
def update? : CallState F → Option MemeUpdate
  | generateId _ => some .numbered
  | incrementViewCount id => some (.viewed id)
  | addRating id rating => some (.rated id rating)
  | _ => none

/-- The update that is to come, if the meme is found. -/
def todo : CallState F → List MemeUpdate
  | generateId _ => [.numbered]
  | findMeme id | findDirectory id | incrementViewCount id => [.viewed id]
  | addRating id rating => [.rated id rating]
  | _ => []

/-- The steps up to that update. -/
def toGo : CallState F → Nat
  | findMeme _ => 3
  | findDirectory _ => 2
  | generateId _ | incrementViewCount _ | addRating _ _ => 1
  | _ => 0

lemma todo_eq_nil_iff (c : CallState F) : c.todo = [] ↔ c.toGo = 0 := by
  cases c <;> simp [todo, toGo]

lemma update?_eq_none {c : CallState F} (h : 1 < c.toGo) : c.update? = none := by
  cases c <;> simp_all [update?, toGo]

/-- The tables change by updates only. -/
lemma memes_advance (c : CallState F) (w : MemeState F) :
    (advance float tree faults c w).2.memes =
      c.update?.elim w.memes (MemeUpdate.apply float w.memes) := by
  cases c with
  | generateId content => rfl
  | createDirectory content newId =>
    rw [advance]
    split <;> rfl
  | writeContent content newId =>
    rw [advance]
    split <;> rfl
  | findMeme id =>
    rw [advance]
    split_ifs <;> rfl
  | findDirectory id =>
    rw [advance]
    split_ifs <;> rfl
  | incrementViewCount id =>
    rw [advance, MemeModule.incrementViewCount_eq]
    rfl
  | getContent id =>
    rw [advance]
    split <;> rfl
  | findCommented uuid id comment =>
    rw [advance]
    split_ifs <;> rfl
  | findComments uuid id comment =>
    rw [advance]
    split_ifs <;> rfl
  | addRating id rating =>
    rw [advance, MemeModule.addRating_eq]
    rfl
  | _ => rfl

/-- A step makes the update that is to come, leaves it to come, or has found no meme. -/
lemma todo_advance (c : CallState F) (w : MemeState F) :
    (c.update?.toList ++ (advance float tree faults c w).1.todo).Sublist c.todo := by
  cases c with
  | createDirectory content newId =>
    rw [advance]
    split <;> exact List.Sublist.refl _
  | writeContent content newId =>
    rw [advance]
    split <;> exact List.Sublist.refl _
  | findMeme id =>
    rw [advance]
    split_ifs
    · exact List.nil_sublist _
    · exact List.Sublist.refl _
  | findDirectory id =>
    rw [advance]
    split_ifs
    · exact List.nil_sublist _
    · exact List.Sublist.refl _
  | getContent id =>
    rw [advance]
    split <;> exact List.Sublist.refl _
  | findCommented uuid id comment =>
    rw [advance]
    split_ifs <;> exact List.Sublist.refl _
  | findComments uuid id comment =>
    rw [advance]
    split_ifs <;> exact List.Sublist.refl _
  | _ => exact List.Sublist.refl _

/-- The meme of the update that is to come is there. -/
def Found (c : CallState F) (w : MemeState F) : Prop :=
  ∀ id, .viewed id ∈ c.todo → w.fs.isDirectory (w.memes.memePath id) = true

/-- Where the meme is there, every step is one towards the update. -/
lemma todo_advance_of_found {c : CallState F} {w : MemeState F} (h : c.Found w) :
    c.update?.toList ++ (advance float tree faults c w).1.todo = c.todo ∧
      (advance float tree faults c w).1.toGo = c.toGo - 1 := by
  cases c with
  | createDirectory content newId =>
    rw [advance]
    split <;> exact ⟨rfl, rfl⟩
  | writeContent content newId =>
    rw [advance]
    split <;> exact ⟨rfl, rfl⟩
  | findMeme id =>
    have hdir := h id (List.mem_singleton_self _)
    have hexist : BoostFileSystem.exist w.fs (w.memes.memePath id) = true :=
      FileSystem.pathExists_of_isDirectory hdir
    rw [advance, hexist]
    exact ⟨rfl, rfl⟩
  | findDirectory id =>
    have hdir := h id (List.mem_singleton_self _)
    rw [advance, hdir]
    exact ⟨rfl, rfl⟩
  | getContent id =>
    rw [advance]
    split <;> exact ⟨rfl, rfl⟩
  | findCommented uuid id comment =>
    rw [advance]
    split_ifs <;> exact ⟨rfl, rfl⟩
  | findComments uuid id comment =>
    rw [advance]
    split_ifs <;> exact ⟨rfl, rfl⟩
  | _ => exact ⟨rfl, rfl⟩

/-- No step removes a directory. -/
lemma isDirectory_advance {c : CallState F} {w : MemeState F} {name : Str}
    (h : w.fs.isDirectory name = true) :
    (advance float tree faults c w).2.fs.isDirectory name = true := by
  have heffect := (@advances F float tree faults c w).effect
  generalize (advance float tree faults c w).2.fs = fs at heffect ⊢
  cases heffect with
  | none h' => rw [h', h]
  | directory hp hsets => exact hsets.isDirectory_mono (fun _ => rfl) h
  | file hwrites hname hp hsets => exact hsets.isDirectory_mono (fun hdir => absurd hdir hp) h

lemma memePath_advance (c : CallState F) (w : MemeState F) (id : MemeId) :
    (advance float tree faults c w).2.memes.memePath id = w.memes.memePath id := by
  rw [MemeModule.memePath, (@advances F float tree faults c w).root_eq, MemeModule.memePath]

/-- A meme that is there stays there, whichever call takes a step. -/
lemma Found.step {c c' d : CallState F} {w : MemeState F} (h : c.Found w)
    (hc : c'.todo.Sublist c.todo) : c'.Found (advance float tree faults d w).2 := by
  intro id hid
  rw [memePath_advance]
  exact isDirectory_advance (h id (hc.subset hid))

end CallState

namespace ConcurrentCalls

variable {I F : Type} [DecidableEq I] {float : FloatArith F} {tree : PropertyTree F}
  {s : ConcurrentCalls I F}

/-! ### The log of the updates -/

/-- The update that a step makes, with its call. -/
def updateOf (s : ConcurrentCalls I F) (i : I) : List (I × MemeUpdate) :=
  (s.call i).update?.toList.map fun u => (i, u)

/-- The updates of a run, in the order of their steps. -/
def updates (float : FloatArith F) (tree : PropertyTree F) (s : ConcurrentCalls I F) :
    List (I × StorageFaults) → List (I × MemeUpdate)
  | [] => []
  | e :: es => s.updateOf e.1 ++ updates float tree (step float tree s e) es

/-- The updates of one call. -/
def updatesOf (i : I) (log : List (I × MemeUpdate)) : List MemeUpdate :=
  (log.filter fun u => u.1 = i).map Prod.snd

lemma updatesOf_append (i : I) (log log' : List (I × MemeUpdate)) :
    updatesOf i (log ++ log') = updatesOf i log ++ updatesOf i log' := by
  simp [updatesOf]

lemma updatesOf_updateOf (s : ConcurrentCalls I F) (i j : I) :
    updatesOf j (s.updateOf i) = if i = j then (s.call i).update?.toList else [] := by
  rw [updatesOf, updateOf]
  cases (s.call i).update? with
  | none => simp
  | some u => by_cases hi : i = j <;> simp [hi]

/-- The tables are those that the updates lead to, one after another. -/
lemma memes_run (s : ConcurrentCalls I F) (es : List (I × StorageFaults)) :
    (es.foldl (step float tree) s).world.memes =
      ((updates float tree s es).map Prod.snd).foldl (MemeUpdate.apply float) s.world.memes := by
  induction es generalizing s with
  | nil => rfl
  | cons e es ih =>
    have hstep : (step float tree s e).world.memes =
        ((s.updateOf e.1).map Prod.snd).foldl (MemeUpdate.apply float) s.world.memes := by
      refine (CallState.memes_advance (s.call e.1) s.world).trans ?_
      rw [updateOf]
      cases (s.call e.1).update? <;> rfl
    rw [List.foldl_cons, ih, hstep, updates, List.map_append, List.foldl_append]

lemma call_step_self (s : ConcurrentCalls I F) (e : I × StorageFaults) :
    (step float tree s e).call e.1 =
      (CallState.advance float tree e.2 (s.call e.1) s.world).1 := Function.update_self ..

lemma call_step_of_ne {e : I × StorageFaults} {i : I} (h : i ≠ e.1) :
    (step float tree s e).call i = s.call i := Function.update_of_ne h ..

/-- A call makes no update but the one that is to come. -/
lemma updatesOf_step (s : ConcurrentCalls I F) (e : I × StorageFaults) (i : I) :
    (updatesOf i (s.updateOf e.1) ++ ((step float tree s e).call i).todo).Sublist
      (s.call i).todo := by
  rw [updatesOf_updateOf]
  by_cases hi : e.1 = i
  · subst hi
    rw [if_pos rfl, call_step_self]
    exact CallState.todo_advance _ _
  · rw [if_neg hi, call_step_of_ne (Ne.symm hi)]
    exact List.Sublist.refl _

lemma updatesOf_updates (s : ConcurrentCalls I F) (es : List (I × StorageFaults)) (i : I) :
    (updatesOf i (updates float tree s es)).Sublist (s.call i).todo := by
  induction es generalizing s with
  | nil => exact List.nil_sublist _
  | cons e es ih =>
    rw [updates, updatesOf_append]
    exact ((ih _).append_left _).trans (updatesOf_step s e i)

/-- A call whose meme is there has made its update after as many of its own steps as it takes. -/
lemma updatesOf_updates_of_found (es : List (I × StorageFaults)) {i : I}
    (h : (s.call i).Found s.world) :
    updatesOf i (updates float tree s es) =
      if (s.call i).toGo ≤ (es.map Prod.fst).count i then (s.call i).todo else [] := by
  induction es generalizing s with
  | nil =>
    by_cases hgo : (s.call i).toGo = 0
    · rw [if_pos (by simp [hgo]), (CallState.todo_eq_nil_iff _).mpr hgo]
      rfl
    · rw [if_neg (by simpa using hgo)]
      rfl
  | cons e es ih =>
    by_cases hi : e.1 = i
    · subst hi
      obtain ⟨htodo, hgo⟩ := @CallState.todo_advance_of_found F float tree e.2 _ _ h
      rw [← call_step_self] at htodo hgo
      have hfound : ((step float tree s e).call e.1).Found (step float tree s e).world :=
        h.step (htodo ▸ List.sublist_append_right _ _)
      rw [updates, updatesOf_append, updatesOf_updateOf, if_pos rfl, ih hfound, hgo, List.map_cons,
        List.count_cons_self]
      by_cases hle : (s.call e.1).toGo ≤ (es.map Prod.fst).count e.1 + 1
      · rw [if_pos hle, if_pos (Nat.sub_le_of_le_add hle), htodo]
      · have hnone : (s.call e.1).update? = none := CallState.update?_eq_none (by omega)
        rw [if_neg hle, if_neg (by omega), hnone]
        rfl
    · have hcall : (step float tree s e).call i = s.call i := call_step_of_ne (Ne.symm hi)
      have hfound : ((step float tree s e).call i).Found (step float tree s e).world :=
        h.step (hcall ▸ List.Sublist.refl _)
      rw [updates, updatesOf_append, updatesOf_updateOf, if_neg hi, List.nil_append, ih hfound,
        hcall, List.map_cons, List.count_cons_of_ne hi]

/-- The updates of all calls, call by call. -/
lemma sum_updates [Fintype I] {M : Type*} [AddCommMonoid M] (f : MemeUpdate → M)
    (log : List (I × MemeUpdate)) :
    ((log.map Prod.snd).map f).sum = ∑ i, ((updatesOf i log).map f).sum := by
  induction log with
  | nil => simp [updatesOf]
  | cons u log ih =>
    have hcons : ∀ i, ((updatesOf i (u :: log)).map f).sum =
        (if u.1 = i then f u.2 else 0) + ((updatesOf i log).map f).sum := by
      intro i
      by_cases hi : u.1 = i <;> simp [updatesOf, hi]
    rw [Finset.sum_congr rfl fun i _ => hcons i, Finset.sum_add_distrib, Finset.sum_ite_eq,
      if_pos (Finset.mem_univ _), ← ih]
    rfl

omit [DecidableEq I] in
/-- Only `get` is to count a view. -/
lemma ne_viewed_of_mem_todo {c : MemeCall} {id : MemeId} (h : c ≠ .get id) {u : MemeUpdate}
    (hu : u ∈ (c.start : CallState F).todo) : u ≠ .viewed id := by
  rintro rfl
  cases c with
  | get id' =>
    cases List.mem_singleton.mp hu
    exact h rfl
  | addComment uuid id' comment => cases hu
  | _ => cases List.mem_singleton.mp hu

/-- What a call does to the views of a meme that is there. -/
lemma sum_views {w : MemeState F} {id : MemeId}
    (hdir : w.fs.isDirectory (w.memes.memePath id) = true) (calls : I → MemeCall)
    (es : List (I × StorageFaults)) (i : I) :
    ((updatesOf i (updates float tree (start w calls) es)).map (MemeUpdate.views id)).sum =
      if calls i = .get id ∧ 3 ≤ (es.map Prod.fst).count i then 1 else 0 := by
  by_cases hcall : calls i = .get id
  · have hstart : (start w calls).call i = .findMeme id := congrArg MemeCall.start hcall
    have hfound : ((start w calls).call i).Found (start w calls).world := by
      rw [hstart]
      intro id' hid
      cases List.mem_singleton.mp hid
      exact hdir
    have hgo : (CallState.findMeme id : CallState F).toGo = 3 := rfl
    have htodo : (CallState.findMeme id : CallState F).todo = [.viewed id] := rfl
    rw [updatesOf_updates_of_found es hfound, hstart, hgo, htodo]
    by_cases hsteps : 3 ≤ (es.map Prod.fst).count i
    · simp [hcall, hsteps, MemeUpdate.views]
    · simp [hsteps]
  · have hnone : ∀ u ∈ updatesOf i (updates float tree (start w calls) es),
        MemeUpdate.views id u = 0 := fun u hu =>
      if_neg (ne_viewed_of_mem_todo hcall ((updatesOf_updates _ es i).subset hu))
    rw [if_neg fun h => hcall h.1, List.map_congr_left hnone]
    simp

/-- The views of a meme that is there are exactly those of the calls that have come to the end of
their third step, whatever the others do meanwhile and whatever fails. -/
theorem run_counts_views [Fintype I] {w : MemeState F} {id : MemeId}
    (hdir : w.fs.isDirectory (w.memes.memePath id) = true) (calls : I → MemeCall)
    (es : List (I × StorageFaults)) :
    (es.foldl (step float tree) (start w calls)).world.memes.viewCounts.lookup id =
      MemeUpdate.countView^[(Finset.univ.filter fun i =>
          calls i = .get id ∧ 3 ≤ (es.map Prod.fst).count i).card]
        (w.memes.viewCounts.lookup id) := by
  rw [memes_run, MemeUpdate.lookup_viewCounts_foldl, sum_updates, Finset.card_filter]
  rw [Finset.sum_congr rfl fun i _ => sum_views hdir calls es i]
  rfl

/-- The disk with one meme. -/
def oneMeme {F : Type} : MemeState F :=
  (MemeModule.create {} sampleMeme ⟨sampleDisk, ⟨['m'], 0, ∅, ∅⟩⟩).2

/-- Two calls that see the meme one after the other and count it one after the other. -/
theorem run_counts_views_oneMeme :
    ([(true, {}), (false, {}), (true, {}), (false, {}), (true, {}), (false, {})].foldl
      (step wholeFloat sampleTree)
        (start oneMeme fun _ : Bool => .get 1)).world.memes.viewCounts.lookup 1 =
      some (CInt.succ 1) := by
  refine (run_counts_views (by decide) _ _).trans ?_
  rfl

/-! ### Ratings -/

/-- The calls that have given their rating to a meme. -/
def given [Fintype I] (calls : I → MemeCall) (es : List (I × StorageFaults)) (id : MemeId) :
    Finset I :=
  Finset.univ.filter fun i => ((calls i).ratingOf id).isSome ∧ i ∈ es.map Prod.fst

omit [DecidableEq I] in
/-- Only `addRating` is to rate. -/
lemma ratingOf_of_mem_todo {c : MemeCall} {id : MemeId} {u : MemeUpdate}
    (hu : u ∈ (c.start : CallState F).todo) : u.ratingOf id = c.ratingOf id := by
  cases c with
  | addComment uuid id' comment => cases hu
  | _ =>
    cases List.mem_singleton.mp hu
    rfl

/-- What a call does to the ratings of a meme. -/
lemma sum_ratings_call {M : Type*} [AddCommMonoid M] (f : CInt → M) (w : MemeState F)
    (id : MemeId) (calls : I → MemeCall) (es : List (I × StorageFaults)) (i : I) :
    ((updatesOf i (updates float tree (start w calls) es)).map
        fun u => (u.ratingOf id).elim 0 f).sum =
      if ((calls i).ratingOf id).isSome ∧ i ∈ es.map Prod.fst then
        ((calls i).ratingOf id).elim 0 f
      else 0 := by
  cases hrating : (calls i).ratingOf id with
  | none =>
    have hnone : ∀ u ∈ updatesOf i (updates float tree (start w calls) es),
        (u.ratingOf id).elim 0 f = 0 := by
      intro u hu
      have hmem := (updatesOf_updates _ es i).subset hu
      rw [ratingOf_of_mem_todo hmem, hrating]
      rfl
    rw [List.map_congr_left hnone]
    simp
  | some rating =>
    obtain ⟨id', r, hcall⟩ : ∃ id' r, calls i = .addRating id' r := by
      cases hcall : calls i with
      | addRating id' r => exact ⟨id', r, rfl⟩
      | _ =>
        rw [hcall] at hrating
        cases hrating
    have hstart : (start w calls).call i = .addRating id' r := congrArg MemeCall.start hcall
    have hfound : ((start w calls).call i).Found (start w calls).world := by
      rw [hstart]
      intro id'' hid
      cases List.mem_singleton.mp hid
    have hgo : (CallState.addRating id' r : CallState F).toGo = 1 := rfl
    have htodo : (CallState.addRating id' r : CallState F).todo = [.rated id' r] := rfl
    have hrated : (MemeUpdate.rated id' r).ratingOf id = some rating :=
      (congrArg (MemeCall.ratingOf id) hcall).symm.trans hrating
    rw [updatesOf_updates_of_found es hfound, hstart, hgo, htodo]
    by_cases hi : i ∈ es.map Prod.fst
    · rw [if_pos (List.one_le_count_iff.mpr hi), if_pos ⟨rfl, hi⟩, List.map_singleton, hrated,
        List.sum_singleton]
    · rw [if_neg fun h => hi (List.one_le_count_iff.mp h), if_neg fun h => hi h.2]
      rfl

/-- A sum over the ratings that a meme was given. -/
lemma sum_given [Fintype I] {M : Type*} [AddCommMonoid M] (f : CInt → M) (w : MemeState F)
    (id : MemeId) (calls : I → MemeCall) (es : List (I × StorageFaults)) :
    (((((updates float tree (start w calls) es).map Prod.snd).filterMap
        (MemeUpdate.ratingOf id)).map f).sum) =
      ∑ i ∈ given calls es id, ((calls i).ratingOf id).elim 0 f := by
  rw [MemeUpdate.sum_ratings, sum_updates, given, Finset.sum_filter]
  exact Finset.sum_congr rfl fun i _ => sum_ratings_call f w id calls es i

lemma length_given [Fintype I] (w : MemeState F) (id : MemeId) (calls : I → MemeCall)
    (es : List (I × StorageFaults)) :
    (((updates float tree (start w calls) es).map Prod.snd).filterMap
        (MemeUpdate.ratingOf id)).length = (given calls es id).card := by
  have hsum := @sum_given I F _ float tree _ Nat _ (fun _ => 1) w id calls es
  have hone : ∀ i ∈ given calls es id, ((calls i).ratingOf id).elim 0 (fun _ => 1) = 1 := by
    intro i hi
    rw [given, Finset.mem_filter] at hi
    obtain ⟨r, hr⟩ := Option.isSome_iff_exists.mp hi.2.1
    rw [hr]
    rfl
  rw [Finset.sum_congr rfl hone] at hsum
  simpa using hsum

/-- The ratings of a meme without any go into a pair of their number and their mean, whatever the
order in which the calls come to give them. -/
theorem run_mean_ratings [Fintype I] {tree : PropertyTree ℚ} {w : MemeState ℚ} {id : MemeId}
    (hnone : w.memes.ratings.lookup id = none) (calls : I → MemeCall)
    (es : List (I × StorageFaults)) (hne : (given calls es id).Nonempty)
    (hlt : (given calls es id).card < 2 ^ 31) :
    ∃ count : CInt, count.val = (given calls es id).card ∧
      (es.foldl (step exactFloat tree) (start w calls)).world.memes.ratings.lookup id =
        some (count,
          (∑ i ∈ given calls es id, ((calls i).ratingOf id).elim 0 fun r => (r.val : ℚ)) /
            (given calls es id).card) := by
  have hlength := @length_given I ℚ _ exactFloat tree _ w id calls es
  have hlist : ((updates exactFloat tree (start w calls) es).map Prod.snd).filterMap
      (MemeUpdate.ratingOf id) ≠ [] := by
    rw [Ne, ← List.length_eq_zero_iff, hlength]
    exact Finset.card_ne_zero.mpr hne
  obtain ⟨count, hcount, hfold⟩ := MemeModule.foldl_rated_none hlist (hlength ▸ hlt)
  refine ⟨count, hcount.trans (congrArg Nat.cast hlength), ?_⟩
  rw [memes_run, MemeUpdate.lookup_ratings_foldl, start, hnone]
  refine hfold.trans ?_
  rw [hlength, ratingSum, sum_given]

/-- Of three calls two have given their rating. -/
theorem run_mean_ratings_oneMeme :
    ∃ count : CInt, count.val = 2 ∧
      ([(1, {}), (0, {})].foldl (step exactFloat sampleTree)
        (start oneMeme fun i : Fin 3 =>
          .addRating 1 (CInt.wrap (i.val + 1)))).world.memes.ratings.lookup 1 =
        some (count, 3 / 2) := by
  obtain ⟨count, hcount, hlookup⟩ := @run_mean_ratings (Fin 3) _ _ sampleTree oneMeme 1 rfl
    (fun i => .addRating 1 (CInt.wrap (i.val + 1))) [(1, {}), (0, {})] (by decide) (by decide)
  have hgiven : given (fun i : Fin 3 => .addRating 1 (CInt.wrap (i.val + 1)))
      [(1, {}), (0, {})] 1 = {0, 1} := by decide
  rw [hgiven] at hcount hlookup
  refine ⟨count, hcount, hlookup.trans ?_⟩
  rw [Finset.sum_pair (by decide), Finset.card_pair (by decide)]
  norm_num [MemeCall.ratingOf, CInt.wrap]

end ConcurrentCalls

end SocialNetworkApp
