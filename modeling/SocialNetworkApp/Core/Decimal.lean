import Mathlib.Algebra.Order.Floor.Ring
import Mathlib.Data.List.TakeWhile
import Mathlib.Data.Rat.Floor
import Mathlib.Tactic.FieldSimp
import Mathlib.Tactic.Linarith
import Mathlib.Tactic.NormNum
import SocialNetworkApp.Core.Number

/-!
# Decimal fractions

Rational numbers are printed with a fixed number of decimals, the last one rounded, and read back.
What is read is what was printed exactly if it has no more decimals than that.
-/

namespace SocialNetworkApp
namespace Core

/-! ### Rounding -/

/-- The nearest integer; of two, the even one. -/
def roundEven (x : ℚ) : ℤ :=
  if x - ⌊x⌋ < 1 / 2 ∨ x - ⌊x⌋ = 1 / 2 ∧ ⌊x⌋ % 2 = 0 then ⌊x⌋ else ⌊x⌋ + 1

@[simp] lemma roundEven_intCast (k : ℤ) : roundEven k = k := by
  have hself : (k : ℚ) - ⌊(k : ℚ)⌋ < 1 / 2 := by
    rw [Int.floor_intCast, sub_self]
    norm_num
  rw [roundEven, if_pos (Or.inl hself), Int.floor_intCast]

lemma roundEven_nonneg {x : ℚ} (hx : 0 ≤ x) : 0 ≤ roundEven x := by
  have hfloor := Int.floor_nonneg.mpr hx
  rw [roundEven]
  split_ifs
  · exact hfloor
  · exact Int.add_nonneg hfloor (by decide)

/-- `x` with so many decimals. -/
def roundTo (places : Nat) (x : ℚ) : ℚ :=
  if x < 0 then -(roundEven (|x| * 10 ^ places) / 10 ^ places)
  else roundEven (|x| * 10 ^ places) / 10 ^ places

/-- Rounding changes all numbers but those with so many decimals. -/
lemma roundTo_eq_self_iff {places : Nat} {x : ℚ} :
    roundTo places x = x ↔ ∃ k : ℤ, x * 10 ^ places = k := by
  have hpos : (10 : ℚ) ^ places ≠ 0 := pow_ne_zero _ (by norm_num)
  rw [roundTo]
  split_ifs with hneg
  · rw [abs_of_neg hneg]
    constructor
    · intro h
      refine ⟨-roundEven (-x * 10 ^ places), ?_⟩
      rw [Int.cast_neg]
      conv_lhs => rw [← h]
      field_simp
    · rintro ⟨k, hk⟩
      rw [neg_mul, hk, ← Int.cast_neg, roundEven_intCast, Int.cast_neg, ← hk]
      field_simp
  · rw [abs_of_nonneg (not_lt.mp hneg)]
    constructor
    · intro h
      refine ⟨roundEven (x * 10 ^ places), ?_⟩
      conv_lhs => rw [← h]
      field_simp
    · rintro ⟨k, hk⟩
      rw [hk, roundEven_intCast, ← hk]
      field_simp

/-! ### Printing and reading -/

/-- `printf("%.*f", places, x)`, for at least one decimal. -/
def printFixed (places : Nat) (x : ℚ) : Str :=
  let scaled := (roundEven (|x| * 10 ^ places)).toNat
  (if x < 0 then ['-'] else []) ++ (Nat.toDigits 10 (scaled / 10 ^ places) ++
    '.' :: List.leftpad places '0' (Nat.toDigits 10 (scaled % 10 ^ places)))

/-- The exponent behind an `e`, if there is one. -/
def readExponent : Str → ℤ
  | [] => 0
  | c :: s =>
    if c = 'e' ∨ c = 'E' then
      let (negative, body) := readSign s
      let exponent : ℤ := Nat.ofDigitChars 10 (body.takeWhile Char.isDigit) 0
      if negative then -exponent else exponent
    else 0

/-- The digits behind a point, and what follows them. -/
def readFraction : Str → Str × Str
  | '.' :: s => (s.takeWhile Char.isDigit, s.dropWhile Char.isDigit)
  | s => ([], s)

/-- `std::stof(s)` on decimal numbers, without a bound on their size. -/
def readDecimal (s : Str) : Except NumError ℚ :=
  let (negative, body) := readSign (s.dropWhile isSpace)
  let whole := body.takeWhile Char.isDigit
  let (fraction, rest) := readFraction (body.dropWhile Char.isDigit)
  if whole = [] ∧ fraction = [] then .error .invalidArgument
  else
    let magnitude : ℚ := Nat.ofDigitChars 10 (whole ++ fraction) 0 / 10 ^ fraction.length *
      10 ^ readExponent rest
    .ok (if negative then -magnitude else magnitude)

lemma length_leftpad_toDigits {places n : Nat} (hplaces : 0 < places) (hn : n < 10 ^ places) :
    (List.leftpad places '0' (Nat.toDigits 10 n)).length = places := by
  rw [List.length_leftpad]
  exact max_eq_left ((Nat.length_toDigits_le_iff (by decide) hplaces).mpr hn)

lemma isDigit_of_mem_leftpad {places n : Nat} {c : Char}
    (hc : c ∈ List.leftpad places '0' (Nat.toDigits 10 n)) : c.isDigit = true := by
  rw [List.leftpad, List.mem_append] at hc
  rcases hc with hc | hc
  · rw [List.eq_of_mem_replicate hc]
    rfl
  · exact isDigit_of_mem_toDigits hc

/-- The digits before and behind the point are those of the scaled number. -/
lemma ofDigitChars_fixed {places n : Nat} (hplaces : 0 < places) :
    Nat.ofDigitChars 10 (Nat.toDigits 10 (n / 10 ^ places) ++
      List.leftpad places '0' (Nat.toDigits 10 (n % 10 ^ places))) 0 = n := by
  have hlt : n % 10 ^ places < 10 ^ places := Nat.mod_lt _ (by positivity)
  rw [Nat.ofDigitChars_append, Nat.ofDigitChars_ten_toDigits, Nat.ofDigitChars_eq_ofDigitChars_zero,
    length_leftpad_toDigits hplaces hlt, List.leftpad, Nat.ofDigitChars_append,
    Nat.ofDigitChars_replicate_zero, Nat.mul_zero, Nat.ofDigitChars_ten_toDigits]
  exact Nat.div_add_mod n _

/-- Digits with a point between them are read as one number. -/
lemma readDecimal_digits {whole fraction : Str} (sign : Bool) (hne : whole ≠ [])
    (hwhole : ∀ c ∈ whole, c.isDigit = true) (hfraction : ∀ c ∈ fraction, c.isDigit = true) :
    readDecimal ((if sign = true then ['-'] else []) ++ (whole ++ '.' :: fraction)) =
      .ok (if sign = true then
        -((Nat.ofDigitChars 10 (whole ++ fraction) 0 : ℚ) / 10 ^ fraction.length)
      else (Nat.ofDigitChars 10 (whole ++ fraction) 0 : ℚ) / 10 ^ fraction.length) := by
  obtain ⟨c, cs, rfl⟩ := List.exists_cons_of_ne_nil hne
  have hc : c.isDigit = true := hwhole c List.mem_cons_self
  have hspace : isSpace c = false := isSpace_eq_false_of_isDigit hc
  have htext : readSign (((if sign = true then ['-'] else []) ++ (c :: cs ++ '.' :: fraction)).dropWhile
      isSpace) = (sign, c :: cs ++ '.' :: fraction) := by
    cases sign with
    | true => rfl
    | false =>
      rw [if_neg Bool.false_ne_true, List.nil_append, List.cons_append,
        List.dropWhile_cons_of_neg (by simp [hspace]), readSign_of_isDigit hc]
  have htake : (c :: cs ++ '.' :: fraction).takeWhile Char.isDigit = c :: cs :=
    takeWhile_digits_append hwhole ((noDigitHead_cons _ _).mpr rfl)
  have hdrop : (c :: cs ++ '.' :: fraction).dropWhile Char.isDigit = '.' :: fraction := by
    rw [List.dropWhile_append_of_pos hwhole]
    rfl
  have hread : readFraction ('.' :: fraction) = (fraction, []) := by
    rw [readFraction, List.takeWhile_eq_self_iff.mpr hfraction,
      List.dropWhile_eq_nil_iff.mpr hfraction]
  simp only [readDecimal, htext, htake, hdrop, hread, List.cons_ne_nil, false_and, if_false,
    readExponent, zpow_zero, mul_one]

/-- What was printed is read as the rounded number. -/
lemma readDecimal_printFixed {places : Nat} (hplaces : 0 < places) (x : ℚ) :
    readDecimal (printFixed places x) = .ok (roundTo places x) := by
  have hscaled : 0 ≤ roundEven (|x| * 10 ^ places) := roundEven_nonneg (by positivity)
  have hcast : (((roundEven (|x| * 10 ^ places)).toNat : ℕ) : ℚ) = roundEven (|x| * 10 ^ places) := by
    exact_mod_cast Int.toNat_of_nonneg hscaled
  have hlt : (roundEven (|x| * 10 ^ places)).toNat % 10 ^ places < 10 ^ places :=
    Nat.mod_lt _ (by positivity)
  have hread := @readDecimal_digits
    (Nat.toDigits 10 ((roundEven (|x| * 10 ^ places)).toNat / 10 ^ places))
    (List.leftpad places '0' (Nat.toDigits 10 ((roundEven (|x| * 10 ^ places)).toNat % 10 ^ places)))
    (decide (x < 0)) Nat.toDigits_ne_nil (fun _ hc => isDigit_of_mem_toDigits hc)
    (fun _ hc => isDigit_of_mem_leftpad hc)
  rw [ofDigitChars_fixed hplaces, length_leftpad_toDigits hplaces hlt, hcast] at hread
  simpa only [printFixed, roundTo, decide_eq_true_eq] using hread

lemma newline_not_mem_printFixed (places : Nat) (x : ℚ) : '\n' ∉ printFixed places x := by
  simp only [printFixed, List.mem_append, List.mem_cons]
  rintro (h | h | h | h)
  · split_ifs at h <;> simp at h
  · exact absurd (isDigit_of_mem_toDigits h) (by decide)
  · exact absurd h (by decide)
  · exact absurd (isDigit_of_mem_leftpad h) (by decide)

end Core
end SocialNetworkApp
