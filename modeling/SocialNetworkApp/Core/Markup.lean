import SocialNetworkApp.Core.Str

/-!
# Markup

The tags of a text: the angle brackets in it, and what stands between an opening one and the next
closing one.
-/

namespace SocialNetworkApp
namespace Core

/-- What belongs to tags in a text; `inside` says whether it begins within a tag. -/
def markup (inside : Bool) : Str → Str
  | [] => []
  | c :: s =>
    if c = '<' then c :: markup true s
    else if c = '>' then c :: markup false s
    else if inside then c :: markup inside s
    else markup inside s

/-- Does the text end within a tag? -/
def endsInside (inside : Bool) : Str → Bool
  | [] => inside
  | c :: s =>
    if c = '<' then endsInside true s
    else if c = '>' then endsInside false s
    else endsInside inside s

/-- A text without tags. -/
def Plain (s : Str) : Prop := '<' ∉ s ∧ '>' ∉ s

instance (s : Str) : Decidable (Plain s) := inferInstanceAs (Decidable (_ ∧ _))

lemma markup_append (inside : Bool) (s t : Str) :
    markup inside (s ++ t) = markup inside s ++ markup (endsInside inside s) t := by
  induction s generalizing inside with
  | nil => rfl
  | cons c s ih =>
    rw [List.cons_append, markup, markup, endsInside]
    split_ifs <;> simp only [ih, List.cons_append]

lemma endsInside_append (inside : Bool) (s t : Str) :
    endsInside inside (s ++ t) = endsInside (endsInside inside s) t := by
  induction s generalizing inside with
  | nil => rfl
  | cons c s ih =>
    rw [List.cons_append, endsInside, endsInside]
    split_ifs <;> exact ih _

lemma markup_false_eq_nil_iff {s : Str} : markup false s = [] ↔ Plain s := by
  induction s with
  | nil => exact iff_of_true rfl ⟨List.not_mem_nil, List.not_mem_nil⟩
  | cons c s ih =>
    by_cases hopen : c = '<'
    · simp [hopen, markup, Plain]
    by_cases hclose : c = '>'
    · simp [hclose, markup, Plain]
    rw [markup, if_neg hopen, if_neg hclose, if_neg Bool.false_ne_true, ih]
    simp [Plain, Ne.symm hopen, Ne.symm hclose]

end Core
end SocialNetworkApp
