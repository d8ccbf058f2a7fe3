import Mathlib.Data.List.MinMax
import SocialNetworkApp.Dispatch.NullPointers

/-!
# The longest location

`match` keeps the length of the best key so far in an `int`. As long as no key of that length is
compared with it, the last of the longest keys wins in any order; two different keys of the same
length do not begin the same url.
-/

namespace SocialNetworkApp

open SocialNetworkApp.Core

/-- `p` is longer than all other keys that begin the url. -/
structure LongestPrefix (keys : List Str) (url p : Str) : Prop where
  mem : p ∈ keys
  begins : p <+: url
  longer : ∀ key ∈ keys, key <+: url → key ≠ p → key.length < p.length

namespace RequestDispatcher

/-- `match` finds the longest location, or none if there is none, in any order of traversal. -/
structure LongestMatch (d : RequestDispatcher) (url : Str) : Prop where
  found : ∀ p, d.match_ url = some p ↔ LongestPrefix d.handlerFactories.keys url p
  notFound : d.match_ url = none ↔ ∀ key ∈ d.handlerFactories.keys, ¬ key <+: url
  order : ∀ keys, keys.Perm d.handlerFactories.keys → matchKeys keys url = d.match_ url

/-- The length of a key, stored in an `int` and converted to `size_t` again. -/
def storedLength (key : Str) : Nat := (CInt.wrap key.length).toSize

/-- Neither does a stored length hide the longest location, nor does its own stored length let
another key replace it. -/
def LengthsKept (d : RequestDispatcher) (url : Str) : Prop :=
  ∀ p key, LongestPrefix d.handlerFactories.keys url p → key ∈ d.handlerFactories.keys →
    key <+: url → key ≠ p → storedLength key ≤ p.length ∧ key.length < storedLength p

variable {keys : List Str} {url p key : Str}

/-! ### The longest key -/

lemma exists_longestPrefix (hkey : key ∈ keys) (hurl : key <+: url) :
    ∃ p, LongestPrefix keys url p := by
  have hmem : ∀ k, k ∈ keys.filter (·.isPrefixOf url) ↔ k ∈ keys ∧ k <+: url := fun k => by
    rw [List.mem_filter, List.isPrefixOf_iff_prefix]
  have hne : (keys.filter (·.isPrefixOf url)).argmax List.length ≠ none :=
    mt List.argmax_eq_none.mp (List.ne_nil_of_mem ((hmem key).mpr ⟨hkey, hurl⟩))
  obtain ⟨p, hp⟩ := Option.ne_none_iff_exists'.mp hne
  obtain ⟨hpkeys, hpurl⟩ := (hmem p).mp (List.argmax_mem hp)
  refine ⟨p, hpkeys, hpurl, ?_⟩
  intro k hk hkurl hkp
  have hle : k.length ≤ p.length := List.le_of_mem_argmax ((hmem k).mpr ⟨hk, hkurl⟩) hp
  -- prefixes of one url that have the same length are the same
  have hbegins := List.prefix_of_prefix_length_le hkurl hpurl hle
  exact lt_of_le_of_ne hle fun heq => hkp (hbegins.eq_of_length heq)

/-! ### The loop -/

lemma matchStep_of_begins (hurl : key <+: url) (best : CInt × Option Str) :
    matchStep url best key =
      if best.1.toSize ≤ key.length then (CInt.wrap key.length, some key) else best := by
  simp [matchStep, List.isPrefixOf_iff_prefix.mpr hurl]

lemma matchStep_nothing (hurl : key <+: url) :
    matchStep url (0, none) key = (CInt.wrap key.length, some key) := by
  rw [matchStep_of_begins hurl]
  exact if_pos (Nat.zero_le _)

lemma matchStep_of_le {k : Str} (hurl : key <+: url) (hle : storedLength k ≤ key.length) :
    matchStep url (CInt.wrap k.length, some k) key = (CInt.wrap key.length, some key) := by
  rw [matchStep_of_begins hurl]
  exact if_pos hle

lemma matchStep_of_lt {k : Str} (hurl : key <+: url) (hlt : key.length < storedLength k) :
    matchStep url (CInt.wrap k.length, some k) key = (CInt.wrap k.length, some k) := by
  rw [matchStep_of_begins hurl]
  exact if_neg (not_le.mpr hlt)

lemma matchStep_of_not_begins (hurl : ¬ key <+: url) (best : CInt × Option Str) :
    matchStep url best key = best :=
  if_neg fun h => hurl (List.isPrefixOf_iff_prefix.mp h.1)

/-- Once a match is found, there always is one. -/
lemma foldl_matchStep_isSome (url : Str) (keys : List Str) {best : CInt × Option Str}
    (h : best.2.isSome) : (keys.foldl (matchStep url) best).2.isSome := by
  induction keys generalizing best with
  | nil => exact h
  | cons key keys ih =>
    refine ih ?_
    rw [matchStep]
    split_ifs
    · rfl
    · exact h

lemma matchKeys_eq_none_iff : matchKeys keys url = none ↔ ∀ key ∈ keys, ¬ key <+: url := by
  rw [matchKeys]
  induction keys with
  | nil => simp
  | cons key keys ih =>
    rw [List.forall_mem_cons, List.foldl_cons]
    by_cases hurl : key <+: url
    · refine iff_of_false (fun hnone => ?_) (fun h => h.1 hurl)
      rw [matchStep_nothing hurl] at hnone
      have hsome :
          (keys.foldl (matchStep url) (CInt.wrap key.length, some key)).2.isSome :=
        foldl_matchStep_isSome url keys rfl
      rw [hnone] at hsome
      cases hsome
    · rw [matchStep_of_not_begins hurl, ih]
      exact (and_iff_right hurl).symm

/-- What the loop has found before it comes to its end. -/
inductive Best (keys : List Str) (url : Str) : CInt × Option Str → Prop
  | nothing : Best keys url (0, none)
  | found {key : Str} (hkey : key ∈ keys) (hurl : key <+: url) :
      Best keys url (CInt.wrap key.length, some key)

lemma Best.step {all : List Str} {best : CInt × Option Str} (h : Best all url best)
    (hkey : key ∈ all) : Best all url (matchStep url best key) := by
  by_cases hurl : key <+: url
  · rw [matchStep_of_begins hurl]
    split_ifs
    · exact .found hkey hurl
    · exact h
  · rw [matchStep_of_not_begins hurl]
    exact h

/-- The loop finds the longest key when it comes to it, and keeps it. -/
lemma foldl_matchStep_longest {all : List Str} (hp : LongestPrefix all url p)
    (hkept : ∀ key ∈ all, key <+: url → key ≠ p →
      storedLength key ≤ p.length ∧ key.length < storedLength p)
    (hkeys : ∀ key ∈ keys, key ∈ all) {best : CInt × Option Str} (hbest : Best all url best)
    (hfound : best.2 = some p ∨ p ∈ keys) : (keys.foldl (matchStep url) best).2 = some p := by
  induction keys generalizing best with
  | nil => exact hfound.resolve_right List.not_mem_nil
  | cons key keys ih =>
    obtain ⟨hkey, hrest⟩ := List.forall_mem_cons.mp hkeys
    refine ih hrest (hbest.step hkey) ?_
    by_cases hkp : key = p
    · subst hkp
      left
      cases hbest with
      | nothing => rw [matchStep_nothing hp.begins]
      | @found k hk hurl =>
        by_cases hkk : k = key
        · subst hkk
          rw [matchStep_of_begins hurl]
          split_ifs <;> rfl
        · rw [matchStep_of_le hp.begins (hkept k hk hurl hkk).1]
    · rcases hfound with hfound | hmem
      · left
        by_cases hurl : key <+: url
        · cases hbest with
          | nothing => cases hfound
          | @found k hk hkurl =>
            obtain rfl := Option.some.inj hfound
            rw [matchStep_of_lt hurl (hkept key hkey hurl hkp).2]
        · rw [matchStep_of_not_begins hurl]
          exact hfound
      · exact Or.inr ((List.mem_cons.mp hmem).resolve_left (Ne.symm hkp))

/-- A match that has replaced `p` is not given up for it again. -/
lemma foldl_matchStep_ne {best : CInt × Option Str} (hbest : best.2 ≠ some p) (hp : p ∉ keys) :
    (keys.foldl (matchStep url) best).2 ≠ some p := by
  rcases foldl_matchStep url keys best with hsame | ⟨k, hk, -, hfound⟩
  · rwa [hsame]
  · rw [hfound]
    rintro ⟨⟩
    exact hp hk

variable {d : RequestDispatcher}

lemma LongestMatch.lengthsKept (h : LongestMatch d url) : LengthsKept d url := by
  intro p key hp hkey hurl hkp
  have hmatch := (h.found p).mpr hp
  obtain ⟨rest, hperm⟩ : ∃ rest, (p :: key :: rest).Perm d.handlerFactories.keys :=
    ⟨(d.handlerFactories.keys.erase p).erase key,
      ((List.perm_cons_erase hp.mem).trans ((List.perm_cons_erase
        ((List.mem_erase_of_ne hkp).mpr hkey)).cons p)).symm⟩
  have hnodup : (p :: key :: rest).Nodup := hperm.nodup_iff.mpr d.handlerFactories.keys_nodup
  have hrest : p ∉ rest := fun hmem =>
    (List.nodup_cons.mp hnodup).1 (List.mem_cons_of_mem _ hmem)
  constructor
  · by_contra hlong
    -- traversed right behind `key`, the longest key is not taken
    have horder := h.order _ ((List.Perm.swap p key rest).trans hperm)
    rw [hmatch, matchKeys, List.foldl_cons, List.foldl_cons, matchStep_nothing hurl,
      matchStep_of_lt hp.begins (not_le.mp hlong)] at horder
    exact foldl_matchStep_ne (by simpa using hkp) hrest horder
  · by_contra hshort
    -- traversed right behind the longest key, `key` replaces it
    have horder := h.order _ hperm
    rw [hmatch, matchKeys, List.foldl_cons, List.foldl_cons, matchStep_nothing hp.begins,
      matchStep_of_le hurl (not_lt.mp hshort)] at horder
    exact foldl_matchStep_ne (by simpa using hkp) hrest horder

lemma LengthsKept.longestMatch (h : LengthsKept d url) : LongestMatch d url := by
  have hnone : ∀ keys, keys.Perm d.handlerFactories.keys →
      (matchKeys keys url = none ↔ ∀ key ∈ d.handlerFactories.keys, ¬ key <+: url) := by
    intro keys hperm
    rw [matchKeys_eq_none_iff]
    exact forall_congr' fun key => imp_congr_left hperm.mem_iff
  have hsome : ∀ keys, keys.Perm d.handlerFactories.keys → ∀ p,
      (matchKeys keys url = some p ↔ LongestPrefix d.handlerFactories.keys url p) := by
    intro keys hperm p
    have hfinds : ∀ p, LongestPrefix d.handlerFactories.keys url p →
        matchKeys keys url = some p := fun p hp =>
      foldl_matchStep_longest hp (fun key hkey hurl hkp => h p key hp hkey hurl hkp)
        (fun key hkey => hperm.mem_iff.mp hkey) .nothing (Or.inr (hperm.mem_iff.mpr hp.mem))
    refine ⟨fun hmatch => ?_, hfinds p⟩
    have hexists : ∃ key ∈ d.handlerFactories.keys, key <+: url := by
      by_contra hnot
      have hnone' := (hnone keys hperm).mpr fun key hkey hurl => hnot ⟨key, hkey, hurl⟩
      rw [hnone'] at hmatch
      cases hmatch
    obtain ⟨key, hkey, hurl⟩ := hexists
    obtain ⟨p', hp'⟩ := exists_longestPrefix hkey hurl
    have heq := hfinds p' hp'
    rw [hmatch] at heq
    rwa [Option.some.inj heq]
  have hsorted := List.perm_insertionSort (· ≤ ·) d.handlerFactories.keys
  refine ⟨hsome _ hsorted, hnone _ hsorted, fun keys hperm => ?_⟩
  exact Option.ext fun p => (hsome keys hperm p).trans (hsome _ hsorted p).symm

/-- Short lengths are stored as they are. -/
lemma storedLength_of_lt (h : key.length < 2147483648) : storedLength key = key.length := by
  have hval : (CInt.wrap key.length).val = key.length := by
    simp only [CInt.wrap]
    omega
  rw [storedLength, CInt.toSize_of_nonneg (by omega), hval, Int.toNat_natCast]

/-- `match` finds the longest location in any order exactly if the stored lengths do not mislead it,
and they do not when the locations that begin the url are shorter than 2³¹ characters. -/
theorem longestMatch_iff (d : RequestDispatcher) (url : Str) :
    (LongestMatch d url ↔ LengthsKept d url) ∧
      ((∀ key ∈ d.handlerFactories.keys, key <+: url → key.length < 2147483648) →
        LongestMatch d url) := by
  refine ⟨⟨LongestMatch.lengthsKept, LengthsKept.longestMatch⟩, fun hshort => ?_⟩
  refine LengthsKept.longestMatch fun p key hp hkey hurl hkp => ?_
  have hlt := hp.longer key hkey hurl hkp
  rw [storedLength_of_lt (hshort key hkey hurl), storedLength_of_lt (hshort p hp.mem hp.begins)]
  exact ⟨hlt.le, hlt⟩

lemma replicate_lt_replicate (n : Nat) (c : Char) :
    List.replicate n c < List.replicate (n + 1) c := by
  induction n with
  | zero => exact List.nil_lt_cons _ _
  | succ n ih => exact List.cons_lt_cons_iff.mpr (Or.inr ⟨rfl, ih⟩)

/-- Two locations, one of them one character longer than the other. -/
def nestedLocations (n : Nat) : RequestDispatcher where
  handlerFactories :=
    ⟨[⟨List.replicate n 'a', ⟨.echo, 0⟩⟩, ⟨List.replicate (n + 1) 'a', ⟨.echo, 1⟩⟩], by
      simp [List.NodupKeys, List.keys]⟩
  path2arguments := ∅
  config := .mk []

/-- Where the stored length of the shorter location is too large, the longer one is refused. -/
lemma match_nestedLocations {n : Nat} (h : n + 1 < storedLength (List.replicate n 'a')) :
    (nestedLocations n).match_ (List.replicate (n + 1) 'a') = some (List.replicate n 'a') := by
  have hshort : List.replicate n 'a' <+: List.replicate (n + 1) 'a' :=
    ⟨['a'], List.replicate_succ'.symm⟩
  have hsorted : (nestedLocations n).handlerFactories.keys.insertionSort (· ≤ ·) =
      [List.replicate n 'a', List.replicate (n + 1) 'a'] := by
    change [List.replicate n 'a', List.replicate (n + 1) 'a'].insertionSort (· ≤ ·) = _
    rw [List.insertionSort_cons_of_forall_rel]
    · rfl
    · simpa using (replicate_lt_replicate n 'a').le
  rw [match_, hsorted, matchKeys, List.foldl_cons, List.foldl_cons, List.foldl_nil,
    matchStep_nothing hshort, matchStep_of_lt List.prefix_rfl (by rwa [List.length_replicate])]

lemma not_longestMatch_nestedLocations {n : Nat} (h : n + 1 < storedLength (List.replicate n 'a')) :
    ¬ LongestMatch (nestedLocations n) (List.replicate (n + 1) 'a') := by
  intro hlongest
  have hlonger := ((hlongest.found _).mp (match_nestedLocations h)).longer
    (List.replicate (n + 1) 'a') (List.mem_cons_of_mem _ List.mem_cons_self) List.prefix_rfl
    (replicate_lt_replicate n 'a').ne'
  rw [List.length_replicate, List.length_replicate] at hlonger
  omega

/-- The length 2³¹ of the shorter location is stored as a negative number, and the longer one is
refused. -/
theorem match_not_longest :
    (nestedLocations 2147483648).match_ (List.replicate 2147483649 'a') =
        some (List.replicate 2147483648 'a') ∧
      ¬ LongestMatch (nestedLocations 2147483648) (List.replicate 2147483649 'a') := by
  have hstored : 2147483648 + 1 < storedLength (List.replicate 2147483648 'a') := by
    have hnegative : (CInt.wrap (2147483648 : Nat)).val < 0 := by decide
    have hlarge := CInt.toSize_of_neg hnegative
    rw [storedLength, List.length_replicate]
    omega
  exact ⟨match_nestedLocations hstored, not_longestMatch_nestedLocations hstored⟩

end RequestDispatcher

end SocialNetworkApp
