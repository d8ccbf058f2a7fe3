import Mathlib.Algebra.Order.Ring.Int
import Mathlib.Data.List.Sort
import Mathlib.Order.Basic
import SocialNetworkApp.Core.Str

/-!
# 32-bit integers and their decimal forms

`CInt` is the type `int` of the programs, `stoi` and `toStr` are `std::stoi` and `std::to_string`.
A printed integer is read back by `stoi`, whatever text follows it.
-/

namespace SocialNetworkApp
namespace Core

/-- A 32-bit two's complement integer. -/
structure CInt where
  val : Int
  lower : -2147483648 ≤ val
  upper : val ≤ 2147483647
deriving DecidableEq

namespace CInt

@[ext] lemma ext {m n : CInt} (h : m.val = n.val) : m = n := by
  cases m; cases n; simpa using h

instance : LinearOrder CInt :=
  LinearOrder.lift' CInt.val fun _ _ h => CInt.ext h

@[simp] lemma val_le_iff {m n : CInt} : m.val ≤ n.val ↔ m ≤ n := Iff.rfl

@[simp] lemma val_lt_iff {m n : CInt} : m.val < n.val ↔ m < n := Iff.rfl

/-- The value of `n`, when it fits an `int`. -/
def ofInt? (n : Int) : Option CInt :=
  if h : -2147483648 ≤ n ∧ n ≤ 2147483647 then some ⟨n, h.1, h.2⟩ else none

/-- The `int` with the same low 32 bits as `n`. -/
def wrap (n : Int) : CInt :=
  ⟨(n + 2147483648) % 4294967296 - 2147483648, by omega, by omega⟩

/-- An `int` converted to `size_t`. -/
def toSize (n : CInt) : Nat := (n.val % (npos + 1)).toNat

/-- `n + 1`, wrapping around at the largest `int`. -/
def succ (n : CInt) : CInt := wrap (n.val + 1)

instance : Zero CInt := ⟨⟨0, by decide, by decide⟩⟩

instance : One CInt := ⟨⟨1, by decide, by decide⟩⟩

@[simp] lemma val_zero : (0 : CInt).val = 0 := rfl

@[simp] lemma val_one : (1 : CInt).val = 1 := rfl

@[simp] lemma ofInt?_val (n : CInt) : ofInt? n.val = some n := by
  simp [ofInt?, n.lower, n.upper]

lemma toSize_of_nonneg {n : CInt} (hn : 0 ≤ n.val) : n.toSize = n.val.toNat := by
  have hle := n.upper
  rw [toSize, npos]
  omega

/-- A negative `int` becomes a size close to the largest one. -/
lemma toSize_of_neg {n : CInt} (hn : n.val < 0) : 18446744071562067968 ≤ n.toSize := by
  have hlo := n.lower
  rw [toSize, npos]
  omega

lemma val_succ_of_lt {n : CInt} (h : n.val < 2147483647) : n.succ.val = n.val + 1 := by
  have := n.lower
  simp only [succ, wrap]
  omega

lemma val_succ_of_eq {n : CInt} (h : n.val = 2147483647) : n.succ.val = -2147483648 := by
  simp only [succ, wrap, h]
  omega

end CInt

/-! ### Reading -/

/-- The exceptions of `std::stoi`. -/
inductive NumError where
  | invalidArgument
  | outOfRange
deriving DecidableEq, Repr

/-- `isspace` of the C locale. -/
def isSpace (c : Char) : Bool :=
  c = ' ' || c = '\t' || c = '\n' || c = '\x0b' || c = '\x0c' || c = '\r'

/-- An optional sign and what follows it. -/
def readSign : Str → Bool × Str
  | '-' :: s => (true, s)
  | '+' :: s => (false, s)
  | s => (false, s)

/-- `std::stoi(s)`: white space, an optional sign and decimal digits; the rest is ignored. -/
def stoi (s : Str) : Except NumError CInt :=
  let (negative, body) := readSign (s.dropWhile isSpace)
  let digits := body.takeWhile Char.isDigit
  if digits = [] then .error .invalidArgument
  else
    let magnitude : Int := Nat.ofDigitChars 10 digits 0
    match CInt.ofInt? (if negative then -magnitude else magnitude) with
    | some n => .ok n
    | none => .error .outOfRange

/-- What `atoi` reads: white space, an optional sign and decimal digits; zero without any digit. -/
def leadingInt (s : Str) : Int :=
  let (negative, body) := readSign (s.dropWhile isSpace)
  let magnitude : Int := Nat.ofDigitChars 10 (body.takeWhile Char.isDigit) 0
  if negative then -magnitude else magnitude

/-- `std::stoul(s)`: as `stoi`, but a negative number wraps around in 64 bits. -/
def stoul (s : Str) : Except NumError Nat :=
  let (negative, body) := readSign (s.dropWhile isSpace)
  let digits := body.takeWhile Char.isDigit
  if digits = [] then .error .invalidArgument
  else
    let magnitude := Nat.ofDigitChars 10 digits 0
    if npos < magnitude then .error .outOfRange
    else .ok (if negative then (npos + 1 - magnitude) % (npos + 1) else magnitude)

/-- `stream >> n` for an `int` and a stream over `s`: nothing but white space leaves `n` as it was,
what is not a number sets it to zero, and a number that does not fit to the nearest one. -/
def extractInt (n : CInt) (s : Str) : CInt :=
  let text := s.dropWhile isSpace
  if text = [] then n
  else
    let (negative, body) := readSign text
    let digits := body.takeWhile Char.isDigit
    let magnitude : Int := Nat.ofDigitChars 10 digits 0
    match CInt.ofInt? (if negative then -magnitude else magnitude) with
    | some m => m
    | none => CInt.wrap (if negative then -2147483648 else 2147483647)

/-! ### Printing -/

/-- Decimal form of an integer. -/
def intToStr : Int → Str
  | .ofNat n => Nat.toDigits 10 n
  | .negSucc n => '-' :: Nat.toDigits 10 (n + 1)

/-- `std::to_string(n)`. -/
def toStr (n : CInt) : Str := intToStr n.val

/-- No digit stands at the head of `s`. -/
def NoDigitHead (s : Str) : Prop := ∀ c ∈ s.head?, c.isDigit = false

@[simp] lemma noDigitHead_nil : NoDigitHead [] := by simp [NoDigitHead]

@[simp] lemma noDigitHead_cons (c : Char) (s : Str) :
    NoDigitHead (c :: s) ↔ c.isDigit = false := by simp [NoDigitHead]

lemma isDigit_of_mem_toDigits {n : Nat} {c : Char} (h : c ∈ Nat.toDigits 10 n) :
    c.isDigit = true :=
  Nat.isDigit_of_mem_toDigits (by decide) (by decide) h

lemma isSpace_eq_false_of_isDigit {c : Char} (h : c.isDigit = true) : isSpace c = false := by
  by_contra hc
  simp only [isSpace, Bool.or_eq_true, decide_eq_true_eq, Bool.not_eq_false] at hc
  rcases hc with ((((rfl | rfl) | rfl) | rfl) | rfl) | rfl <;> simp at h

lemma takeWhile_digits_append {digits rest : Str} (hdigits : ∀ c ∈ digits, c.isDigit = true)
    (hrest : NoDigitHead rest) : (digits ++ rest).takeWhile Char.isDigit = digits := by
  rw [List.takeWhile_append_of_pos hdigits]
  cases rest with
  | nil => simp
  | cons c cs =>
    rw [noDigitHead_cons] at hrest
    simp [hrest]

lemma takeWhile_toDigits_append (n : Nat) {rest : Str} (hrest : NoDigitHead rest) :
    (Nat.toDigits 10 n ++ rest).takeWhile Char.isDigit = Nat.toDigits 10 n :=
  takeWhile_digits_append (fun _ hc => isDigit_of_mem_toDigits hc) hrest

/-- Digits are read back as the number they were printed from. -/
lemma ofDigitChars_takeWhile_toDigits (n : Nat) {rest : Str} (hrest : NoDigitHead rest) :
    Nat.ofDigitChars 10 ((Nat.toDigits 10 n ++ rest).takeWhile Char.isDigit) 0 = n := by
  rw [takeWhile_toDigits_append n hrest, Nat.ofDigitChars_ten_toDigits]

lemma readSign_of_isDigit {c : Char} (hc : c.isDigit = true) (s : Str) :
    readSign (c :: s) = (false, c :: s) := by
  have hminus : c ≠ '-' := by rintro rfl; exact absurd hc (by decide)
  have hplus : c ≠ '+' := by rintro rfl; exact absurd hc (by decide)
  simp [readSign, hminus, hplus]

lemma leadingInt_digits {digits : Str} (hne : digits ≠ [])
    (hdigits : ∀ c ∈ digits, c.isDigit = true) :
    leadingInt digits = Nat.ofDigitChars 10 digits 0 := by
  obtain ⟨c, s, rfl⟩ := List.exists_cons_of_ne_nil hne
  have hc : c.isDigit = true := hdigits c List.mem_cons_self
  have hdrop : (c :: s).dropWhile isSpace = c :: s :=
    List.dropWhile_cons_of_neg (by simp [isSpace_eq_false_of_isDigit hc])
  have htake : (c :: s).takeWhile Char.isDigit = c :: s := by
    simpa using takeWhile_digits_append hdigits noDigitHead_nil
  simp only [leadingInt, hdrop, readSign_of_isDigit hc, htake, Bool.false_eq_true, if_false]

/-- Reading decimal digits, whatever white space stands before and text behind them. -/
lemma stoi_digits (ws : Str) (hws : ∀ c ∈ ws, isSpace c = true) {digits rest : Str}
    (hne : digits ≠ []) (hdigits : ∀ c ∈ digits, c.isDigit = true) (hrest : NoDigitHead rest) :
    stoi (ws ++ digits ++ rest) =
      match CInt.ofInt? (Nat.ofDigitChars 10 digits 0) with
      | some m => .ok m
      | none => .error .outOfRange := by
  obtain ⟨c, s, hcs⟩ := List.exists_cons_of_ne_nil hne
  have hc : c.isDigit = true := hdigits c (by rw [hcs]; exact List.mem_cons_self)
  have hdrop : (ws ++ digits ++ rest).dropWhile isSpace = digits ++ rest := by
    rw [List.append_assoc, List.dropWhile_append_of_pos hws, hcs, List.cons_append]
    exact List.dropWhile_cons_of_neg (by simp [isSpace_eq_false_of_isDigit hc])
  have hsign : readSign (digits ++ rest) = (false, digits ++ rest) := by
    rw [hcs, List.cons_append, readSign_of_isDigit hc]
  simp only [stoi, hdrop, hsign, takeWhile_digits_append hdigits hrest, if_neg hne,
    Bool.false_eq_true, if_false]

lemma stoi_toDigits (ws : Str) (hws : ∀ c ∈ ws, isSpace c = true) (n : Nat) {rest : Str}
    (hrest : NoDigitHead rest) :
    stoi (ws ++ Nat.toDigits 10 n ++ rest) =
      match CInt.ofInt? n with
      | some m => .ok m
      | none => .error .outOfRange := by
  rw [stoi_digits ws hws Nat.toDigits_ne_nil (fun _ hc => isDigit_of_mem_toDigits hc) hrest,
    Nat.ofDigitChars_ten_toDigits]

/-- `stoi` undoes `toStr`, whatever text without a digit at its head follows. -/
lemma stoi_toStr_append (n : CInt) {rest : Str} (hrest : NoDigitHead rest) :
    stoi (toStr n ++ rest) = .ok n := by
  obtain ⟨v, hlo, hhi⟩ := n
  cases v with
  | ofNat k =>
    have h := stoi_toDigits [] (by simp) k hrest
    have hk : CInt.ofInt? (k : Int) = some ⟨Int.ofNat k, hlo, hhi⟩ :=
      CInt.ofInt?_val ⟨Int.ofNat k, hlo, hhi⟩
    rw [hk] at h
    simpa [toStr, intToStr] using h
  | negSucc k =>
    have hne : (Nat.toDigits 10 (k + 1) ++ rest).takeWhile Char.isDigit ≠ [] := by
      rw [takeWhile_toDigits_append (k + 1) hrest]
      exact Nat.toDigits_ne_nil
    have hdrop : ('-' :: (Nat.toDigits 10 (k + 1) ++ rest)).dropWhile isSpace =
        '-' :: (Nat.toDigits 10 (k + 1) ++ rest) :=
      List.dropWhile_cons_of_neg (by decide)
    have hk : CInt.ofInt? (-((k + 1 : Nat) : Int)) = some ⟨Int.negSucc k, hlo, hhi⟩ :=
      CInt.ofInt?_val ⟨Int.negSucc k, hlo, hhi⟩
    simp only [stoi, toStr, intToStr, List.cons_append, hdrop, readSign, if_neg hne,
      ofDigitChars_takeWhile_toDigits (k + 1) hrest, if_true, hk]

@[simp] lemma stoi_toStr (n : CInt) : stoi (toStr n) = .ok n := by
  simpa using stoi_toStr_append n noDigitHead_nil

lemma toStr_injective : Function.Injective toStr := by
  intro m n h
  have := congrArg stoi h
  simpa using this

@[simp] lemma toStr_inj {m n : CInt} : toStr m = toStr n ↔ m = n := toStr_injective.eq_iff

lemma mem_toStr {n : CInt} {c : Char} (h : c ∈ toStr n) : c = '-' ∨ c.isDigit = true := by
  obtain ⟨v, hlo, hhi⟩ := n
  cases v with
  | ofNat k => exact Or.inr (isDigit_of_mem_toDigits h)
  | negSucc k =>
    rcases List.mem_cons.mp h with rfl | h
    · exact Or.inl rfl
    · exact Or.inr (isDigit_of_mem_toDigits h)

/-- An integer is printed as a natural number exactly if it is this number. -/
lemma toStr_eq_toDigits_iff {n : CInt} {k : Nat} : toStr n = Nat.toDigits 10 k ↔ n.val = k := by
  obtain ⟨v, hlo, hhi⟩ := n
  cases v with
  | ofNat m =>
    have hinj : Nat.toDigits 10 m = Nat.toDigits 10 k ↔ m = k := by
      refine ⟨fun h => ?_, congrArg _⟩
      have hread := congrArg (fun digits => Nat.ofDigitChars 10 digits 0) h
      simpa only [Nat.ofDigitChars_ten_toDigits] using hread
    exact hinj.trans Int.ofNat_inj.symm
  | negSucc m =>
    refine iff_of_false (fun h => ?_) (fun h => by cases h)
    have hminus : '-' ∈ Nat.toDigits 10 k := by
      rw [← h]
      exact List.mem_cons_self
    exact absurd (isDigit_of_mem_toDigits hminus) (by decide)

lemma toStr_ne_nil (n : CInt) : toStr n ≠ [] := by
  obtain ⟨v, hlo, hhi⟩ := n
  cases v with
  | ofNat k => exact Nat.toDigits_ne_nil
  | negSucc k => exact List.cons_ne_nil _ _

/-- A printed integer holds no character other than digits and a minus sign. -/
lemma not_mem_toStr {n : CInt} {c : Char} (hc : c ≠ '-') (hd : c.isDigit = false) :
    c ∉ toStr n := by
  intro h
  rcases mem_toStr h with rfl | h
  · exact hc rfl
  · simp [hd] at h

end Core
end SocialNetworkApp
