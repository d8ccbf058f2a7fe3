import Mathlib.Data.List.Basic
import Mathlib.Data.List.Infix

/-!
# Character strings

The operations of `std::string` used by the modelled programs, over lists of characters. Positions
are natural numbers; `npos` is `none` where a position is returned.
-/

namespace SocialNetworkApp
namespace Core

/-- A `std::string`. -/
abbrev Str := List Char

variable {α : Type*} [DecidableEq α]

/-! ### Searching for a character -/

/-- `s.find_last_of(c)`. -/
def findLastOf (c : α) : List α → Option Nat
  | [] => none
  | x :: xs =>
    match findLastOf c xs with
    | some i => some (i + 1)
    | none => if x = c then some 0 else none

/-- `std::string::npos` of a 64-bit `size_t`. -/
def npos : Nat := 18446744073709551615

/-- `n - 1` on `size_t`: it wraps around to `npos` at zero. -/
def predSize (n : Nat) : Nat := if n = 0 then npos else n - 1

/-- `s.find_last_of(c, pos)`: only the positions up to `pos` are searched. -/
def findLastOfUpTo (c : α) (s : List α) (pos : Nat) : Option Nat :=
  findLastOf c (s.take (pos + 1))

/-- `s.substr(pos, count)`. -/
def substr (s : List α) (pos count : Nat) : List α := (s.drop pos).take count

@[simp] lemma findLastOf_nil (c : α) : findLastOf c [] = none := rfl

lemma findLastOf_eq_none_iff (c : α) (s : List α) : findLastOf c s = none ↔ c ∉ s := by
  induction s with
  | nil => simp
  | cons x xs ih =>
    simp only [findLastOf, List.mem_cons, not_or]
    cases h : findLastOf c xs with
    | none =>
      have hxs := ih.mp h
      by_cases hx : x = c
      · simp [hx]
      · simp [hx, hxs, Ne.symm hx]
    | some i =>
      have hxs : ¬ c ∉ xs := fun hc => by simp [ih.mpr hc] at h
      simp [hxs]

/-- The last occurrence is the one with no further occurrence behind it. -/
lemma findLastOf_append_cons {c : α} (a : List α) {b : List α} (hb : c ∉ b) :
    findLastOf c (a ++ c :: b) = some a.length := by
  induction a with
  | nil => simp [findLastOf, (findLastOf_eq_none_iff c b).mpr hb]
  | cons x xs ih => simp [findLastOf, ih]

/-- A string that contains `c` splits at its last `c`. -/
lemma exists_split_of_findLastOf {c : α} {s : List α} {i : Nat} (h : findLastOf c s = some i) :
    ∃ a b, s = a ++ c :: b ∧ a.length = i ∧ c ∉ b := by
  induction s generalizing i with
  | nil => simp at h
  | cons x xs ih =>
    simp only [findLastOf] at h
    cases hxs : findLastOf c xs with
    | some j =>
      rw [hxs] at h
      obtain ⟨a, b, rfl, hlen, hb⟩ := ih hxs
      exact ⟨x :: a, b, rfl, by simpa [hlen] using h, hb⟩
    | none =>
      rw [hxs] at h
      by_cases hx : x = c
      · subst hx
        exact ⟨[], xs, rfl, by simpa using h, (findLastOf_eq_none_iff x xs).mp hxs⟩
      · simp [hx] at h

/-- Any string either has no `c` or splits at its last `c`. -/
lemma not_mem_or_split (c : α) (s : List α) :
    c ∉ s ∨ ∃ a b, s = a ++ c :: b ∧ c ∉ b := by
  cases h : findLastOf c s with
  | none => exact Or.inl ((findLastOf_eq_none_iff c s).mp h)
  | some i =>
    obtain ⟨a, b, hs, _, hb⟩ := exists_split_of_findLastOf h
    exact Or.inr ⟨a, b, hs, hb⟩

/-- Any string either splits at its first character of a kind, or has none. -/
lemma split_or_forall {β : Type*} (p : β → Bool) (s : List β) :
    (∃ a c b, s = a ++ c :: b ∧ (∀ x ∈ a, p x = false) ∧ p c = true) ∨ ∀ x ∈ s, p x = false := by
  induction s with
  | nil => exact Or.inr fun x hx => nomatch hx
  | cons c s ih =>
    cases hc : p c with
    | true => exact Or.inl ⟨[], c, s, rfl, by simp, hc⟩
    | false =>
      rcases ih with ⟨a, d, b, rfl, ha, hd⟩ | hs
      · exact Or.inl ⟨c :: a, d, b, rfl, List.forall_mem_cons.mpr ⟨hc, ha⟩, hd⟩
      · exact Or.inr (List.forall_mem_cons.mpr ⟨hc, hs⟩)

@[simp] lemma predSize_zero : predSize 0 = npos := rfl

@[simp] lemma predSize_succ (n : Nat) : predSize (n + 1) = n := rfl

/-- Searching up to the end of `a` ignores what follows it. -/
lemma findLastOfUpTo_append (c : α) (a b : List α) (ha : a ≠ []) :
    findLastOfUpTo c (a ++ b) (predSize a.length) = findLastOf c a := by
  obtain ⟨x, xs, rfl⟩ := List.exists_cons_of_ne_nil ha
  simp [findLastOfUpTo]

/-! ### Searching for a string -/

/-- `s.find(pat)`: the position of the first occurrence of `pat`. -/
def findStr (pat : List α) : List α → Option Nat
  | [] => if pat = [] then some 0 else none
  | x :: xs =>
    if pat.isPrefixOf (x :: xs) then some 0 else (findStr pat xs).map (· + 1)

/-- A position returned by `findStr` splits the string around `pat`. -/
lemma exists_split_of_findStr {pat s : List α} {i : Nat} (h : findStr pat s = some i) :
    ∃ a b, s = a ++ pat ++ b ∧ a.length = i := by
  induction s generalizing i with
  | nil =>
    simp only [findStr] at h
    split_ifs at h with hp
    exact ⟨[], [], by simp [hp], by simpa using h⟩
  | cons x xs ih =>
    simp only [findStr] at h
    split_ifs at h with hp
    · obtain ⟨b, hb⟩ := List.isPrefixOf_iff_prefix.mp hp
      exact ⟨[], b, by simp [hb], by simpa using h⟩
    · obtain ⟨j, hj, rfl⟩ := Option.map_eq_some_iff.mp h
      obtain ⟨a, b, rfl, hlen⟩ := ih hj
      exact ⟨x :: a, b, by simp, by simp [hlen]⟩

/-- A string in which `pat` is not found does not contain it. -/
lemma findStr_eq_none_iff {pat : List α} (hpat : pat ≠ []) (s : List α) :
    findStr pat s = none ↔ ¬ pat <:+: s := by
  induction s with
  | nil => simp [findStr, hpat]
  | cons x xs ih =>
    simp only [findStr, List.infix_cons_iff, not_or]
    by_cases hp : pat <+: x :: xs
    · simp [List.isPrefixOf_iff_prefix.mpr hp, hp]
    · have hp' : ¬ pat.isPrefixOf (x :: xs) = true := fun h => hp (List.isPrefixOf_iff_prefix.mp h)
      simp [hp', hp, ih]

/-- The first occurrence of `pat` is the one that is not complete any earlier. -/
lemma findStr_append {pat a : List α} (hpat : pat ≠ []) (b : List α)
    (hfirst : ¬ pat <:+: a ++ pat.dropLast) : findStr pat (a ++ pat ++ b) = some a.length := by
  induction a with
  | nil =>
    obtain ⟨p, ps, rfl⟩ := List.exists_cons_of_ne_nil hpat
    simp [findStr]
  | cons x xs ih =>
    have hrest : ¬ pat <:+: xs ++ pat.dropLast := fun h =>
      hfirst (h.trans (List.suffix_cons x _).isInfix)
    have hhead : ¬ pat.isPrefixOf (x :: (xs ++ pat ++ b)) = true := by
      intro h
      refine hfirst (List.IsPrefix.isInfix ?_)
      refine List.prefix_of_prefix_length_le (List.isPrefixOf_iff_prefix.mp h) ?_ ?_
      · have hpre : pat.dropLast <+: pat ++ b :=
          (List.dropLast_prefix pat).trans (List.prefix_append pat b)
        rw [List.append_assoc, ← List.cons_append]
        exact (List.prefix_append_right_inj (x :: xs)).mpr hpre
      · simp only [List.cons_append, List.length_cons, List.length_append, List.length_dropLast]
        omega
    simp only [List.cons_append, findStr, if_neg hhead, ih hrest, Option.map_some, List.length_cons]

/-- What is found is not complete any earlier. -/
lemma not_infix_of_findStr {pat a b : List α} (hpat : pat ≠ [])
    (h : findStr pat (a ++ pat ++ b) = some a.length) : ¬ pat <:+: a ++ pat.dropLast := by
  induction a with
  | nil =>
    intro hin
    have hle := hin.length_le
    have hpos := List.length_pos_iff.mpr hpat
    rw [List.nil_append, List.length_dropLast] at hle
    omega
  | cons x xs ih =>
    simp only [List.cons_append, findStr] at h
    split_ifs at h with hhead
    · cases h
    · obtain ⟨i, hi, hlen⟩ := Option.map_eq_some_iff.mp h
      obtain rfl := Nat.succ.inj hlen
      rw [List.cons_append, List.infix_cons_iff, not_or]
      refine ⟨fun hpre => hhead (List.isPrefixOf_iff_prefix.mpr (hpre.trans ?_)), ih hi⟩
      have hdrop : pat.dropLast <+: pat ++ b :=
        (List.dropLast_prefix pat).trans (List.prefix_append pat b)
      rw [List.append_assoc, ← List.cons_append, ← List.cons_append]
      exact (List.prefix_append_right_inj (x :: xs)).mpr hdrop

/-- A string that is complete only at its end is found there, whatever follows. -/
lemma findStr_of_suffix {pat s : List α} (hpat : pat ≠ []) (b : List α) (hsuffix : pat <:+ s)
    (hfirst : ¬ pat <:+: s.dropLast) : findStr pat (s ++ b) = some (s.length - pat.length) := by
  obtain ⟨a, rfl⟩ := hsuffix
  rw [List.dropLast_append_of_ne_nil hpat] at hfirst
  rw [findStr_append hpat b hfirst, List.length_append, Nat.add_sub_cancel]

lemma findStr_self_append (pat s : List α) : findStr pat (pat ++ s) = some 0 := by
  have hpre : pat.isPrefixOf (pat ++ s) = true :=
    List.isPrefixOf_iff_prefix.mpr (List.prefix_append pat s)
  cases htext : pat ++ s with
  | nil => rw [findStr, if_pos (List.append_eq_nil_iff.mp htext).1]
  | cons x xs => rw [findStr, if_pos (htext ▸ hpre)]

lemma findStr_singleton_append {c : α} {a : List α} (b : List α) (ha : c ∉ a) :
    findStr [c] (a ++ c :: b) = some a.length := by
  have h := @findStr_append α _ [c] a (List.cons_ne_nil c []) b
  simp only [List.dropLast_singleton, List.append_nil, List.append_assoc, List.singleton_append] at h
  exact h fun hin => ha (hin.subset List.mem_cons_self)

end Core
end SocialNetworkApp
