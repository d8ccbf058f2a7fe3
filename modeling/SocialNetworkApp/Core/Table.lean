import Mathlib.Data.List.AList

/-!
# Tables filled by a loop

A loop over a list may write to a table for each element it visits. The last writer of a key wins.
-/

namespace SocialNetworkApp
namespace Core

/-- A finite map. -/
abbrev Table (K V : Type*) := AList fun _ : K => V

namespace Table

variable {K V A : Type*} [DecidableEq K]

/-! ### Entries -/

/-- What is found behind an insertion was inserted, or was there under another key. -/
lemma lookup_insert_cases {t : Table K V} {k k' : K} {v v' : V}
    (h : (t.insert k v).lookup k' = some v') : k' = k ∧ v' = v ∨ k' ≠ k ∧ t.lookup k' = some v' := by
  by_cases hk : k' = k
  · subst hk
    rw [AList.lookup_insert, Option.some.injEq] at h
    exact Or.inl ⟨rfl, h.symm⟩
  · rw [AList.lookup_insert_ne hk] at h
    exact Or.inr ⟨hk, h⟩

lemma lookup_of_erase {t : Table K V} {k k' : K} {v : V}
    (h : (t.erase k).lookup k' = some v) : t.lookup k' = some v := by
  by_cases hk : k' = k
  · subst hk
    rw [AList.lookup_erase] at h
    cases h
  · rwa [AList.lookup_erase_ne hk] at h

/-- The entries whose keys satisfy `p`. -/
def restrict (t : Table K V) (p : K → Bool) : Table K V :=
  ⟨t.entries.filter fun e => p e.1, t.nodupKeys.sublist List.filter_sublist⟩

lemma lookup_restrict (t : Table K V) (p : K → Bool) (k : K) :
    (t.restrict p).lookup k = if p k = true then t.lookup k else none := by
  ext v
  rw [← Option.mem_def, AList.mem_lookup_iff, restrict, List.mem_filter, ← AList.mem_lookup_iff]
  simp only [Option.mem_def, Option.ite_none_right_eq_some, and_comm]

lemma countP_pos {t : Table K V} {k : K} {v : V} {p : V → Bool} (h : t.lookup k = some v)
    (hp : p v = true) : 0 < t.entries.countP fun entry => p entry.2 := by
  rw [List.countP_pos_iff]
  exact ⟨⟨k, v⟩, AList.mem_lookup_iff.mp h, hp⟩

/-! ### Loops -/

/-- What the loop does for the element `a`: write `value a`, if there is one, under `key a`. -/
def writeOf (key : A → K) (value : A → Option V) (t : Table K V) (a : A) : Table K V :=
  match value a with
  | none => t
  | some v => t.insert (key a) v

/-- The table behind the loop. -/
def writeAll (key : A → K) (value : A → Option V) (t : Table K V) (l : List A) : Table K V :=
  l.foldl (writeOf key value) t

variable {key : A → K} {value : A → Option V} {t : Table K V}

lemma lookup_writeOf (a : A) (k : K) :
    (writeOf key value t a).lookup k =
      if key a = k then (value a).or (t.lookup k) else t.lookup k := by
  rw [writeOf]
  cases value a with
  | none => simp
  | some v =>
    split_ifs with hk
    · subst hk
      rw [AList.lookup_insert, Option.some_or]
    · rw [AList.lookup_insert_ne (Ne.symm hk)]

/-- The last of the values written under a key is found there. -/
lemma lookup_writeAll (l : List A) (k : K) :
    (writeAll key value t l).lookup k =
      ((l.filter fun a => key a = k).filterMap value).getLast?.or (t.lookup k) := by
  induction l generalizing t with
  | nil => rfl
  | cons a l ih =>
    rw [writeAll, List.foldl_cons, ← writeAll, ih, lookup_writeOf]
    by_cases hk : key a = k
    · rw [if_pos hk, List.filter_cons_of_pos (by simpa using hk)]
      cases hv : value a with
      | none => rw [Option.none_or, List.filterMap_cons_none hv]
      | some v =>
        rw [List.filterMap_cons_some hv, List.getLast?_cons, Option.some_or]
        cases ((l.filter fun a => key a = k).filterMap value).getLast? <;> rfl
    · rw [if_neg hk, List.filter_cons_of_neg (by simpa using hk)]

/-- A key is found if something was written under it. -/
lemma lookup_writeAll_empty_isSome {l : List A} {k : K} :
    (∃ v, (writeAll key value ∅ l).lookup k = some v) ↔
      ∃ a ∈ l, key a = k ∧ ∃ v, value a = some v := by
  rw [lookup_writeAll, AList.lookup_empty, Option.or_none]
  constructor
  · rintro ⟨v, hv⟩
    obtain ⟨a, ha, hvalue⟩ := List.mem_filterMap.mp (List.mem_of_getLast? hv)
    obtain ⟨hmem, hk⟩ := List.mem_filter.mp ha
    exact ⟨a, hmem, by simpa using hk, v, hvalue⟩
  · rintro ⟨a, ha, hk, v, hv⟩
    have hmem : v ∈ (l.filter fun a => key a = k).filterMap value :=
      List.mem_filterMap.mpr ⟨a, List.mem_filter.mpr ⟨ha, by simpa using hk⟩, hv⟩
    exact ⟨_, List.getLast?_eq_some_getLast (List.ne_nil_of_mem hmem)⟩

/-- If the last element with a key writes, its value is found. -/
lemma lookup_writeAll_empty_of_last {l : List A} {k : K} {a : A} {v : V}
    (ha : (l.filter fun a => key a = k).getLast? = some a) (hv : value a = some v) :
    (writeAll key value ∅ l).lookup k = some v := by
  rw [lookup_writeAll, AList.lookup_empty, Option.or_none]
  obtain ⟨init, hinit⟩ := List.getLast?_eq_some_iff.mp ha
  rw [hinit, List.filterMap_append, List.filterMap_cons_some hv, List.filterMap_nil,
    List.getLast?_concat]

end Table
end Core
end SocialNetworkApp
