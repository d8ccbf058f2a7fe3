import Mathlib.Algebra.BigOperators.Group.List.Basic
import SocialNetworkApp.Core.Decimal
import SocialNetworkApp.Meme.Comments

/-!
# Ratings

The mean of the ratings is carried along with their number. Over the rational numbers it is the mean
of what was given, in whatever order; in its file it has six decimals.
-/

namespace SocialNetworkApp

open SocialNetworkApp.Core

/-- Rational numbers in the place of `float`s. -/
def exactFloat : FloatArith ℚ where
  ofInt n := n.val
  add x y := x + y
  mul x y := x * y
  div x y := x / y
  gt x y := decide (y < x)
  stof := readDecimal
  toStr := printFixed 6

/-- A rating that is given to a meme, and the calls of the file system that fail. -/
structure RatingCall where
  id : MemeId
  rating : CInt
  faults : StorageFaults := {}

namespace RatingCall

variable {F : Type} (float : FloatArith F)

/-- One rating after another. -/
def perform (calls : List RatingCall) (w : MemeState F) : MemeState F :=
  calls.foldl (fun w c => MemeModule.addRating float c.faults c.id c.rating w) w

/-- The ratings given to one meme. -/
def ratingsOf (id : MemeId) (calls : List RatingCall) : List CInt :=
  (calls.filter fun c => c.id = id).map rating

variable {float} {w : MemeState F} {id : MemeId}

lemma lookup_addRating (c : RatingCall) :
    (MemeModule.addRating float c.faults c.id c.rating w).memes.ratings.lookup id =
      if c.id = id then some (MemeModule.rated float (w.memes.ratings.lookup id) c.rating)
      else w.memes.ratings.lookup id := by
  rw [MemeModule.addRating_eq]
  split_ifs with hid
  · subst hid
    exact AList.lookup_insert _
  · exact AList.lookup_insert_ne (Ne.symm hid)

/-- A meme sees its own ratings only. -/
lemma lookup_perform (calls : List RatingCall) :
    (perform float calls w).memes.ratings.lookup id =
      (ratingsOf id calls).foldl (fun old rating => some (MemeModule.rated float old rating))
        (w.memes.ratings.lookup id) := by
  induction calls generalizing w with
  | nil => rfl
  | cons c calls ih =>
    rw [perform, List.foldl_cons, ← perform, ih, lookup_addRating, ratingsOf, ratingsOf]
    by_cases hid : c.id = id
    · rw [if_pos hid, List.filter_cons_of_pos (by simpa using hid)]
      rfl
    · rw [if_neg hid, List.filter_cons_of_neg (by simpa using hid)]

end RatingCall

/-- The sum of integers, as a rational number. -/
def ratingSum (ratings : List CInt) : ℚ := (ratings.map fun r => (r.val : ℚ)).sum

lemma ratingSum_cons (rating : CInt) (ratings : List CInt) :
    ratingSum (rating :: ratings) = rating.val + ratingSum ratings := List.sum_cons

lemma ratingSum_perm {ratings ratings' : List CInt} (h : ratings.Perm ratings') :
    ratingSum ratings = ratingSum ratings' := (h.map _).sum_eq

namespace MemeModule

/-- One more rating moves the mean of `n` of them to the mean of all. -/
lemma rated_exactFloat {count rating : CInt} {n : Nat} {sum : ℚ} (hcount : count.val = n) (hn : n ≠ 0)
    (hlt : n + 1 < 2 ^ 31) :
    (rated exactFloat (some (count, sum / n)) rating).1.val = (n + 1 : Nat) ∧
      (rated exactFloat (some (count, sum / n)) rating).2 = (sum + rating.val) / (n + 1 : Nat) := by
  have hsucc : count.succ.val = count.val + 1 := CInt.val_succ_of_lt (by omega)
  have hne : (n : ℚ) ≠ 0 := Nat.cast_ne_zero.mpr hn
  refine ⟨?_, ?_⟩
  · rw [rated, Option.elim_some, hsucc, hcount, Nat.cast_succ]
  · simp only [rated, Option.elim_some, exactFloat, hsucc, hcount]
    rw [Int.cast_natCast, div_mul_cancel₀ sum hne]
    norm_cast

/-- From a mean on, all ratings go into the mean. -/
lemma foldl_rated_exactFloat (ratings : List CInt) {count : CInt} {n : Nat} {sum : ℚ}
    (hcount : count.val = n) (hn : n ≠ 0) (hlt : n + ratings.length < 2 ^ 31) :
    ∃ count' : CInt, count'.val = (n + ratings.length : Nat) ∧
      ratings.foldl (fun old rating => some (rated exactFloat old rating)) (some (count, sum / n)) =
        some (count', (sum + ratingSum ratings) / (n + ratings.length : Nat)) := by
  induction ratings generalizing count n sum with
  | nil => exact ⟨count, hcount, by simp [ratingSum]⟩
  | cons rating ratings ih =>
    rw [List.length_cons] at hlt
    obtain ⟨hcount', hmean⟩ := @rated_exactFloat count rating n sum hcount hn (by omega)
    obtain ⟨count', hval, hfold⟩ := @ih _ (n + 1) (sum + rating.val) hcount' (Nat.succ_ne_zero n)
      (by omega)
    have hlength : n + 1 + ratings.length = n + (rating :: ratings).length := by
      rw [List.length_cons]
      omega
    refine ⟨count', by rw [hval, hlength], ?_⟩
    rw [← hmean, Prod.mk.eta] at hfold
    rw [List.foldl_cons, hfold, hlength, ratingSum_cons, add_assoc]

/-- The pair of a meme that has been rated is the number and the mean of its ratings. -/
lemma foldl_rated_none {ratings : List CInt} (hne : ratings ≠ []) (hlt : ratings.length < 2 ^ 31) :
    ∃ count : CInt, count.val = ratings.length ∧
      ratings.foldl (fun old rating => some (rated exactFloat old rating)) none =
        some (count, ratingSum ratings / ratings.length) := by
  obtain ⟨rating, ratings, rfl⟩ := List.exists_cons_of_ne_nil hne
  rw [List.length_cons, Nat.add_comm] at hlt ⊢
  obtain ⟨count, hcount, hfold⟩ := @foldl_rated_exactFloat ratings 1 1 rating.val rfl one_ne_zero hlt
  refine ⟨count, hcount, ?_⟩
  rw [Nat.cast_one, div_one] at hfold
  rw [List.foldl_cons, ratingSum_cons]
  exact hfold

end MemeModule

lemma RatingCall.lookup_perform_exactFloat {w : MemeState ℚ} {id : MemeId}
    (hnone : w.memes.ratings.lookup id = none) {calls : List RatingCall}
    (hne : ratingsOf id calls ≠ []) (hlt : (ratingsOf id calls).length < 2 ^ 31) :
    ∃ count : CInt, count.val = (ratingsOf id calls).length ∧
      (perform exactFloat calls w).memes.ratings.lookup id =
        some (count, ratingSum (ratingsOf id calls) / (ratingsOf id calls).length) := by
  obtain ⟨count, hcount, hfold⟩ := MemeModule.foldl_rated_none hne hlt
  exact ⟨count, hcount, by rw [lookup_perform, hnone, hfold]⟩

/-- The ratings of a meme without any go into a pair of their number and their mean, in whatever
order they are given and whatever other memes are rated in between. -/
theorem addRating_mean {w : MemeState ℚ} {id : MemeId} (hnone : w.memes.ratings.lookup id = none)
    {calls : List RatingCall} (hne : RatingCall.ratingsOf id calls ≠ [])
    (hlt : (RatingCall.ratingsOf id calls).length < 2 ^ 31) :
    (∃ count : CInt, count.val = (RatingCall.ratingsOf id calls).length ∧
      (RatingCall.perform exactFloat calls w).memes.ratings.lookup id =
        some (count, ratingSum (RatingCall.ratingsOf id calls) /
          (RatingCall.ratingsOf id calls).length)) ∧
    ∀ (w' : MemeState ℚ) (calls' : List RatingCall), w'.memes.ratings.lookup id = none →
      (RatingCall.ratingsOf id calls').Perm (RatingCall.ratingsOf id calls) →
      (RatingCall.perform exactFloat calls' w').memes.getRating exactFloat id =
        (RatingCall.perform exactFloat calls w).memes.getRating exactFloat id := by
  refine ⟨RatingCall.lookup_perform_exactFloat hnone hne hlt, fun w' calls' hnone' hperm => ?_⟩
  have hne' : RatingCall.ratingsOf id calls' ≠ [] := fun hnil => hne (hnil ▸ hperm).nil_eq.symm
  obtain ⟨count, -, hlookup⟩ := RatingCall.lookup_perform_exactFloat hnone hne hlt
  obtain ⟨count', -, hlookup'⟩ :=
    RatingCall.lookup_perform_exactFloat hnone' hne' (hperm.length_eq ▸ hlt)
  rw [MemeModule.getRating, MemeModule.getRating, hlookup, hlookup', ratingSum_perm hperm,
    hperm.length_eq]

/-- Two ratings for meme 1, with one for meme 2 between them. -/
def sampleRatings : List RatingCall := [⟨1, 1, {}⟩, ⟨2, CInt.wrap 7, {}⟩, ⟨1, CInt.wrap 2, {}⟩]

theorem addRating_mean_sampleRatings :
    ∃ count : CInt, count.val = 2 ∧
      (RatingCall.perform exactFloat sampleRatings ⟨sampleDisk, ⟨['m'], 0, ∅, ∅⟩⟩).memes.ratings.lookup
        1 = some (count, 3 / 2) := by
  obtain ⟨⟨count, hcount, hlookup⟩, -⟩ := @addRating_mean ⟨sampleDisk, ⟨['m'], 0, ∅, ∅⟩⟩ 1
    (AList.lookup_empty _) sampleRatings (by decide) (by decide)
  have hratings : RatingCall.ratingsOf 1 sampleRatings = [1, CInt.wrap 2] := rfl
  have hmean : ratingSum [1, CInt.wrap 2] / ([1, CInt.wrap 2] : List CInt).length = 3 / 2 := by
    norm_num [ratingSum, CInt.wrap]
  exact ⟨count, hcount, by rw [hlookup, hratings, hmean]⟩

end SocialNetworkApp
