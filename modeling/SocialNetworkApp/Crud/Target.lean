import SocialNetworkApp.Crud.Handler

/-!
# Targets

The handlers cut a target at its last slashes, each in its own way. A target that ends in a
directory and an id is cut in the same place by all of them.
-/

namespace SocialNetworkApp

open SocialNetworkApp.Core

lemma lastSegment_append (a : Str) {segment : Str} (hslash : '/' ∉ segment) (hne : segment ≠ []) :
    lastSegment (a ++ '/' :: segment) = some (a.length, segment) := by
  have hlength : 0 < segment.length := List.length_pos_iff.mpr hne
  simp only [lastSegment, findLastOf_append_cons a hslash]
  rw [if_pos (by simp; omega)]
  simp

/-- What `lastSegment` finds is the text behind the last slash. -/
lemma lastSegment_eq_some_iff {target segment : Str} {i : Nat} :
    lastSegment target = some (i, segment) ↔
      ∃ a, target = a ++ '/' :: segment ∧ '/' ∉ segment ∧ segment ≠ [] ∧ a.length = i := by
  constructor
  · intro h
    rcases not_mem_or_split '/' target with hmem | ⟨a, b, rfl, hb⟩
    · simp [lastSegment, (findLastOf_eq_none_iff '/' target).mpr hmem] at h
    · by_cases hne : b = []
      · subst hne
        simp [lastSegment, findLastOf_append_cons a hb] at h
      · rw [lastSegment_append a hb hne] at h
        obtain ⟨rfl, rfl⟩ : a.length = i ∧ b = segment := by simpa using h
        exact ⟨a, rfl, hb, hne, rfl⟩
  · rintro ⟨a, rfl, hslash, hne, rfl⟩
    exact lastSegment_append a hslash hne

lemma slash_not_mem_possibleId (target : Str) : '/' ∉ possibleId target := by
  rcases not_mem_or_split '/' target with hmem | ⟨a, b, rfl, hb⟩
  · rwa [possibleId, (findLastOf_eq_none_iff '/' target).mpr hmem]
  · rwa [possibleId_append a hb]

/-- What is cut out between the last two slashes. -/
lemma substr_between (a b c : Str) :
    substr (a ++ '/' :: b ++ '/' :: c) (a.length + 1) b.length = b := by
  have hdrop : (a ++ '/' :: b ++ '/' :: c).drop (a.length + 1) = b ++ '/' :: c := by
    rw [List.append_assoc, List.cons_append, List.append_cons a '/',
      List.drop_left' (by simp)]
  rw [substr, hdrop, List.take_left]

/-- The search for the slash before the last one. -/
lemma findLastOfUpTo_directory (a : Str) {b : Str} (c : Str) (hb : '/' ∉ b) :
    findLastOfUpTo '/' (a ++ '/' :: b ++ '/' :: c) (a.length + b.length) = some a.length := by
  have htake : (a ++ '/' :: b ++ '/' :: c).take (a.length + b.length + 1) = a ++ '/' :: b :=
    List.take_left' (by simp; omega)
  rw [findLastOfUpTo, htake, findLastOf_append_cons a hb]

lemma retrievalDir_append (a : Str) {b c : Str} (hb : '/' ∉ b) (hc : '/' ∉ c) :
    retrievalDir (a ++ '/' :: b ++ '/' :: c) (findLastOf '/' (a ++ '/' :: b ++ '/' :: c)) = b := by
  have hlength : (a ++ '/' :: b).length = a.length + b.length + 1 := by simp; omega
  rw [findLastOf_append_cons _ hc, hlength]
  simp only [retrievalDir, findLastOfUpTo_directory a c hb]
  rw [show a.length + b.length + 1 - a.length - 1 = b.length by omega, substr_between]

lemma slash_not_mem_retrievalDir (target : Str) :
    '/' ∉ retrievalDir target (findLastOf '/' target) := by
  rcases not_mem_or_split '/' target with hmem | ⟨front, c, rfl, hc⟩
  · rw [(findLastOf_eq_none_iff '/' target).mpr hmem]
    exact List.not_mem_nil
  · rcases not_mem_or_split '/' front with hmem | ⟨a, b, rfl, hb⟩
    · rw [findLastOf_append_cons front hc]
      cases hlength : front.length with
      | zero => exact List.not_mem_nil
      | succ k =>
        have hne : front ≠ [] := List.ne_nil_of_length_eq_add_one hlength
        have hnone : findLastOfUpTo '/' (front ++ '/' :: c) k = none := by
          rw [show k = predSize front.length by rw [hlength, predSize_succ],
            findLastOfUpTo_append _ _ _ hne]
          exact (findLastOf_eq_none_iff '/' front).mpr hmem
        simp only [retrievalDir, hnone]
        exact List.not_mem_nil
    · rwa [retrievalDir_append a hb hc]

lemma deletionTarget_append (a : Str) {b c : Str} (hb : '/' ∉ b) (hc : '/' ∉ c) (hne : c ≠ []) :
    deletionTarget (a ++ '/' :: b ++ '/' :: c) = some (b, c, b ++ '/' :: c) := by
  have hlength : (a ++ '/' :: b).length = a.length + b.length + 1 := by simp; omega
  simp only [deletionTarget, lastSegment_append _ hc hne, hlength, predSize_succ,
    findLastOfUpTo_directory a c hb]
  have hlt : a.length + 1 < (a ++ '/' :: b ++ '/' :: c).length := by
    simp only [List.length_append, List.length_cons]
    omega
  rw [if_pos hlt, if_neg (by omega),
    show a.length + b.length + 1 - a.length - 1 = b.length by omega, substr_between,
    List.append_assoc, List.cons_append, List.append_cons a '/', List.drop_left' (by simp)]

/-- A deletion names a directory and an id, or one segment which is taken for both. -/
lemma deletionTarget_eq_some {target targetEntity targetId both : Str}
    (h : deletionTarget target = some (targetEntity, targetId, both)) :
    '/' ∉ targetEntity ∧ '/' ∉ targetId ∧ targetId ≠ [] ∧
      (both = targetEntity ++ '/' :: targetId ∨ both = targetId ∧ targetEntity = targetId) := by
  simp only [deletionTarget] at h
  cases hlast : lastSegment target with
  | none => simp [hlast] at h
  | some found =>
    obtain ⟨i, segment⟩ := found
    obtain ⟨front, rfl, hsegment, hne, rfl⟩ := lastSegment_eq_some_iff.mp hlast
    by_cases hfront : front = []
    · subst hfront
      -- the search starts at the end of the target again
      have hfound : findLastOfUpTo '/' ([] ++ '/' :: segment) npos = some 0 := by
        have htake : ([] ++ '/' :: segment).take (npos + 1) = [] ++ '/' :: segment.take npos := rfl
        rw [findLastOfUpTo, htake, findLastOf_append_cons []
          (fun hmem => hsegment (List.mem_of_mem_take hmem))]
        rfl
      simp only [hlast, List.length_nil, predSize_zero, hfound] at h
      split_ifs at h
      obtain ⟨rfl, rfl, rfl⟩ : segment = targetEntity ∧ segment = targetId ∧ segment = both := by
        simpa using h
      exact ⟨hsegment, hsegment, hne, Or.inr ⟨rfl, rfl⟩⟩
    · rcases not_mem_or_split '/' front with hmem | ⟨a, b, rfl, hb⟩
      · have hnone : findLastOfUpTo '/' (front ++ '/' :: segment) (predSize front.length) = none := by
          rw [findLastOfUpTo_append _ _ _ hfront]
          exact (findLastOf_eq_none_iff '/' front).mpr hmem
        simp [hlast, hnone] at h
      · change deletionTarget _ = _ at h
        rw [deletionTarget_append a hb hsegment hne] at h
        obtain ⟨rfl, rfl, rfl⟩ : b = targetEntity ∧ segment = targetId ∧
            b ++ '/' :: segment = both := by simpa using h
        exact ⟨hb, hsegment, hne, Or.inl rfl⟩

end SocialNetworkApp
