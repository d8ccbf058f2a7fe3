import SocialNetworkApp.Crud.Handler

/-!
# The ids of a directory

The vectors are kept strictly increasing. `get_available_id` walks along a vector as long as it
finds 1, 2, 3 and so on; where it stops is free unless the vector begins below 1.
-/

namespace SocialNetworkApp

open SocialNetworkApp.Core

/-- The ids entered for a directory. -/
def idsOf (entityIds : EntityIds) (dir : Str) : List CInt := (entityIds.lookup dir).getD []

variable {entityIds entityIds' : EntityIds} {dir d : Str} {id n : CInt}

lemma entityExists_iff : entityExists entityIds dir id = true ↔ id ∈ idsOf entityIds dir := by
  simp only [entityExists, idsOf]
  cases entityIds.lookup dir <;> simp

lemma idsOf_insert_self (ids : List CInt) : idsOf (entityIds.insert dir ids) dir = ids := by
  rw [idsOf, AList.lookup_insert]
  rfl

lemma idsOf_insert_ne (ids : List CInt) (h : d ≠ dir) :
    idsOf (entityIds.insert dir ids) d = idsOf entityIds d := by
  rw [idsOf, AList.lookup_insert_ne h, ← idsOf]

/-! ### Adding and removing -/

lemma idsOf_addIdToEntity_ne (h : d ≠ dir) :
    idsOf (addIdToEntity entityIds dir id) d = idsOf entityIds d := by
  unfold addIdToEntity
  split
  · exact idsOf_insert_ne _ h
  · split_ifs
    · rfl
    · exact idsOf_insert_ne _ h

/-- The vector after an addition: an id that is there already is not added again. -/
lemma idsOf_addIdToEntity_self :
    idsOf (addIdToEntity entityIds dir id) dir =
      if id ∈ idsOf entityIds dir then idsOf entityIds dir
      else (idsOf entityIds dir ++ [id]).insertionSort (· ≤ ·) := by
  unfold addIdToEntity
  cases hlookup : entityIds.lookup dir with
  | none => simp [idsOf, hlookup]
  | some ids =>
    have hids : idsOf entityIds dir = ids := by rw [idsOf, hlookup]; rfl
    rw [hids]
    simp only
    split_ifs with hmem
    · exact hids
    · exact idsOf_insert_self _

lemma addIdToEntity_of_mem (h : id ∈ idsOf entityIds dir) :
    addIdToEntity entityIds dir id = entityIds := by
  unfold addIdToEntity
  cases hlookup : entityIds.lookup dir with
  | none => simp [idsOf, hlookup] at h
  | some ids =>
    rw [idsOf, hlookup, Option.getD_some] at h
    exact if_pos h

lemma mem_idsOf_addIdToEntity :
    n ∈ idsOf (addIdToEntity entityIds dir id) d ↔ (d = dir ∧ n = id) ∨ n ∈ idsOf entityIds d := by
  by_cases hd : d = dir
  · subst hd
    rw [idsOf_addIdToEntity_self]
    split_ifs with hmem
    · constructor
      · exact Or.inr
      · rintro (⟨-, rfl⟩ | h)
        · exact hmem
        · exact h
    · simp [List.mem_insertionSort, or_comm]
  · rw [idsOf_addIdToEntity_ne hd]
    simp [hd]

lemma pairwise_lt_of_sorted {ids : List CInt} (hsorted : ids.Pairwise (· ≤ ·)) (hnodup : ids.Nodup) :
    ids.Pairwise (· < ·) :=
  hsorted.imp₂ (fun _ _ hle hne => lt_of_le_of_ne hle hne) hnodup

lemma pairwise_addIdToEntity (h : (idsOf entityIds d).Pairwise (· < ·)) :
    (idsOf (addIdToEntity entityIds dir id) d).Pairwise (· < ·) := by
  by_cases hd : d = dir
  · subst hd
    rw [idsOf_addIdToEntity_self]
    split_ifs with hmem
    · exact h
    · refine pairwise_lt_of_sorted (List.pairwise_insertionSort _ _) ?_
      rw [(List.perm_insertionSort _ _).nodup_iff, List.nodup_append]
      refine ⟨h.imp ne_of_lt, by simp, ?_⟩
      intro a ha b hb hab
      obtain rfl : b = id := by simpa using hb
      exact hmem (hab ▸ ha)
  · rwa [idsOf_addIdToEntity_ne hd]

lemma count_le_addIdToEntity :
    (idsOf entityIds d).count n ≤ (idsOf (addIdToEntity entityIds dir id) d).count n := by
  by_cases hd : d = dir
  · subst hd
    rw [idsOf_addIdToEntity_self]
    split_ifs with hmem
    · exact le_rfl
    · rw [(List.perm_insertionSort _ _).count_eq, List.count_append]
      exact Nat.le_add_right _ _
  · rw [idsOf_addIdToEntity_ne hd]

lemma removeIdFromEntity_eq_some (h : removeIdFromEntity entityIds dir id = some entityIds') :
    id ∈ idsOf entityIds dir ∧
      entityIds' = entityIds.insert dir ((idsOf entityIds dir).erase id) := by
  unfold removeIdFromEntity at h
  cases hlookup : entityIds.lookup dir with
  | none => simp [hlookup] at h
  | some ids =>
    have hids : idsOf entityIds dir = ids := by rw [idsOf, hlookup]; rfl
    rw [hids]
    simp only [hlookup] at h
    split_ifs at h with hmem
    exact ⟨hmem, (Option.some.inj h).symm⟩

lemma removeIdFromEntity_of_mem (h : id ∈ idsOf entityIds dir) :
    ∃ entityIds', removeIdFromEntity entityIds dir id = some entityIds' := by
  unfold removeIdFromEntity
  cases hlookup : entityIds.lookup dir with
  | none => simp [idsOf, hlookup] at h
  | some ids =>
    rw [idsOf, hlookup, Option.getD_some] at h
    exact ⟨_, if_pos h⟩

lemma mem_idsOf_remove (hnodup : (idsOf entityIds dir).Nodup)
    (h : removeIdFromEntity entityIds dir id = some entityIds') :
    n ∈ idsOf entityIds' d ↔ n ∈ idsOf entityIds d ∧ ¬ (d = dir ∧ n = id) := by
  obtain ⟨-, rfl⟩ := removeIdFromEntity_eq_some h
  by_cases hd : d = dir
  · subst hd
    rw [idsOf_insert_self, hnodup.mem_erase_iff]
    simp [and_comm]
  · rw [idsOf_insert_ne _ hd]
    simp [hd]

lemma pairwise_remove (h : removeIdFromEntity entityIds dir id = some entityIds')
    (hsorted : (idsOf entityIds d).Pairwise (· < ·)) : (idsOf entityIds' d).Pairwise (· < ·) := by
  obtain ⟨-, rfl⟩ := removeIdFromEntity_eq_some h
  by_cases hd : d = dir
  · subst hd
    rw [idsOf_insert_self]
    exact hsorted.sublist List.erase_sublist
  · rwa [idsOf_insert_ne _ hd]

/-! ### The available id -/

/-- From a positive id on, the walk ends at an id that is not in the vector; when it runs over the
largest `int`, at the smallest. -/
lemma firstGap_spec {current : CInt} {ids : List CInt} (hpos : 0 < current)
    (hsorted : ids.Pairwise (· < ·)) (hge : ∀ m ∈ ids, current ≤ m) :
    firstGap current ids ∉ ids ∧ (current ≤ firstGap current ids ∨ firstGap current ids < 0) := by
  induction ids generalizing current with
  | nil => exact ⟨by simp, Or.inl le_rfl⟩
  | cons m ms ih =>
    obtain ⟨hm, hms⟩ := List.pairwise_cons.mp hsorted
    have hle : current ≤ m := hge m (by simp)
    rw [firstGap]
    split_ifs with heq
    · subst heq
      by_cases hmax : m.val = 2147483647
      · -- nothing stands behind the largest `int`
        have hnil : ms = [] := by
          refine List.eq_nil_iff_forall_not_mem.mpr ?_
          intro k hk
          have := hm k hk
          have := k.upper
          rw [← CInt.val_lt_iff] at *
          omega
        subst hnil
        have hsucc := CInt.val_succ_of_eq hmax
        have hneg : m.succ < 0 := by
          rw [← CInt.val_lt_iff, hsucc]
          decide
        refine ⟨?_, Or.inr hneg⟩
        simp only [firstGap, List.mem_singleton]
        rintro h
        rw [h] at hneg
        exact absurd hneg (not_lt_of_gt hpos)
      · have hsucc := CInt.val_succ_of_lt (lt_of_le_of_ne m.upper hmax)
        have hlt : m < m.succ := by
          rw [← CInt.val_lt_iff]
          omega
        obtain ⟨hnot, hbound⟩ := ih (lt_trans hpos hlt) hms (by
          intro k hk
          have := hm k hk
          rw [← CInt.val_lt_iff] at this
          rw [← CInt.val_le_iff]
          omega)
        refine ⟨?_, ?_⟩
        · simp only [List.mem_cons, not_or]
          refine ⟨?_, hnot⟩
          rcases hbound with h | h
          · exact (lt_of_lt_of_le hlt h).ne'
          · exact (lt_trans h hpos).ne
        · exact hbound.imp_left (le_of_lt hlt).trans
    · refine ⟨?_, Or.inl le_rfl⟩
      have hlt : current < m := lt_of_le_of_ne hle (Ne.symm heq)
      simp only [List.mem_cons, not_or]
      exact ⟨hlt.ne, fun hmem => absurd (hm _ hmem) (not_lt_of_gt hlt)⟩

lemma getAvailableId_eq : getAvailableId entityIds dir = firstGap 1 (idsOf entityIds dir) := by
  unfold getAvailableId idsOf
  cases entityIds.lookup dir <;> rfl

lemma CInt.one_le_iff {n : CInt} : 1 ≤ n ↔ ¬ n ≤ 0 := by
  rw [← CInt.val_le_iff, ← CInt.val_le_iff, CInt.val_one, CInt.val_zero]
  omega

/-- The id is free unless the directory holds both 1 and an id below it. -/
lemma getAvailableId_not_mem_iff (hsorted : (idsOf entityIds dir).Pairwise (· < ·)) :
    getAvailableId entityIds dir ∉ idsOf entityIds dir ↔
      ¬ (1 ∈ idsOf entityIds dir ∧ ∃ n ∈ idsOf entityIds dir, n ≤ 0) := by
  rw [getAvailableId_eq]
  by_cases hlow : ∃ n ∈ idsOf entityIds dir, n ≤ 0
  · suffices hfirst : firstGap 1 (idsOf entityIds dir) = 1 by simp [hfirst, hlow]
    generalize idsOf entityIds dir = ids at hsorted hlow
    obtain ⟨n, hn, hle⟩ := hlow
    cases ids with
    | nil => cases hn
    | cons m ms =>
      have hm : m ≤ 0 := by
        rcases List.mem_cons.mp hn with rfl | hn
        · exact hle
        · exact le_of_lt (lt_of_lt_of_le ((List.pairwise_cons.mp hsorted).1 n hn) hle)
      have hne : m ≠ 1 := by
        rintro rfl
        exact CInt.one_le_iff.mp le_rfl hm
      rw [firstGap, if_neg hne]
  · have hge : ∀ m ∈ idsOf entityIds dir, 1 ≤ m := by
      intro m hm
      exact CInt.one_le_iff.mpr fun hle => hlow ⟨m, hm, hle⟩
    simp only [hlow, and_false, not_false_eq_true, iff_true]
    exact (firstGap_spec (by decide) hsorted hge).1

end SocialNetworkApp
