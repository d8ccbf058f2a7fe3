import Mathlib.Logic.Basic
import Mathlib.Tactic.SplitIfs

/-!
# Computations that may throw

What holds of the value of a computation whenever it returns one, and when it does.
-/

namespace SocialNetworkApp
namespace Core

variable {E A B : Type}

/-- If the computation returns, its value satisfies `P`. -/
def Returns (x : Except E A) (P : A → Prop) : Prop := ∀ a, x = .ok a → P a

namespace Returns

variable {P Q : A → Prop} {R : B → Prop} {x y : Except E A}

lemma ok {a : A} (h : P a) : Returns (.ok a : Except E A) P := by
  intro b hb
  cases hb
  exact h

lemma error {e : E} : Returns (.error e : Except E A) P := by
  intro a ha
  cases ha

lemma imp (h : Returns x P) (hPQ : ∀ a, P a → Q a) : Returns x Q := fun a ha => hPQ a (h a ha)

/-- What the continuation ensures for the value that comes, the whole computation ensures. -/
lemma bind_of_eq {f : A → Except E B} (h : ∀ a, x = .ok a → Returns (f a) R) :
    Returns (x >>= f) R := by
  intro b hb
  cases x with
  | error e => cases hb
  | ok a => exact h a rfl b hb

/-- What every continuation ensures, the whole computation ensures. -/
lemma bind {f : A → Except E B} (h : ∀ a, Returns (f a) R) : Returns (x >>= f) R :=
  .bind_of_eq fun a _ => h a

lemma ite {c : Prop} [Decidable c] (hx : c → Returns x P) (hy : ¬ c → Returns y P) :
    Returns (if c then x else y) P := by
  split_ifs with hc
  · exact hx hc
  · exact hy hc

end Returns

/-! ### Computations that return -/

/-- The computation returns. -/
def Succeeds (x : Except E A) : Prop := ∃ a, x = .ok a

@[simp] lemma succeeds_ok (a : A) : Succeeds (.ok a : Except E A) := ⟨a, rfl⟩

@[simp] lemma not_succeeds_error (e : E) : ¬ Succeeds (.error e : Except E A) := by
  rintro ⟨a, ha⟩
  cases ha

@[simp] lemma succeeds_map_iff {x : Except E A} {f : A → B} : Succeeds (x.map f) ↔ Succeeds x := by
  cases x with
  | error e => exact iff_of_false (not_succeeds_error e) (not_succeeds_error e)
  | ok a => exact iff_of_true (succeeds_ok _) (succeeds_ok a)

/-- What follows a computation that returns decides. -/
lemma succeeds_bind_iff {x : Except E A} {f : A → Except E B} :
    Succeeds (x >>= f) ↔ ∃ a, x = .ok a ∧ Succeeds (f a) := by
  cases x with
  | error e => exact iff_of_false (not_succeeds_error e) (by rintro ⟨a, ha, -⟩; cases ha)
  | ok a =>
    refine ⟨fun h => ⟨a, rfl, h⟩, ?_⟩
    rintro ⟨a', ha', h⟩
    obtain rfl := Except.ok.inj ha'
    exact h

/-- The same, where the first computation returns `a` or nothing. -/
lemma succeeds_bind_iff_of_eq_ok_iff {x : Except E A} {f : A → Except E B} {P : Prop} {a : A}
    (h : ∀ {a'}, x = .ok a' ↔ P ∧ a = a') : Succeeds (x >>= f) ↔ P ∧ Succeeds (f a) := by
  rw [succeeds_bind_iff]
  constructor
  · rintro ⟨a', ha', hf⟩
    obtain ⟨hP, rfl⟩ := h.mp ha'
    exact ⟨hP, hf⟩
  · rintro ⟨hP, hf⟩
    exact ⟨a, h.mpr ⟨hP, rfl⟩, hf⟩

lemma exists_of_map_eq_ok {x : Except E A} {f : A → B} {b : B} (h : x.map f = .ok b) :
    ∃ a, x = .ok a ∧ f a = b := by
  cases x with
  | error e => cases h
  | ok a => exact ⟨a, rfl, Except.ok.inj h⟩

lemma exists_of_bind_eq_ok {x : Except E A} {f : A → Except E B} {b : B}
    (h : (x >>= f) = .ok b) : ∃ a, x = .ok a ∧ f a = .ok b := by
  cases x with
  | error e => cases h
  | ok a => exact ⟨a, rfl, h⟩

@[simp] lemma ok_bind (a : A) (f : A → Except E B) : ((Except.ok a : Except E A) >>= f) = f a := rfl

@[simp] lemma error_bind (e : E) (f : A → Except E B) :
    ((Except.error e : Except E A) >>= f) = .error e := rfl

/-- What follows always returns. -/
lemma succeeds_bind_of_forall {x : Except E A} {f : A → Except E B} (hf : ∀ a, Succeeds (f a)) :
    Succeeds (x >>= f) ↔ Succeeds x := by
  rw [succeeds_bind_iff]
  exact ⟨fun ⟨a, ha, _⟩ => ⟨a, ha⟩, fun ⟨a, ha⟩ => ⟨a, ha, hf a⟩⟩

/-! ### Loops -/

/-- A loop comes to the same with rounds that return what the others return. -/
lemma foldlM_eq_ok {f g : B → A → Except E B} (hfg : ∀ b a b', f b a = .ok b' → g b a = .ok b')
    {l : List A} {b b' : B} (h : l.foldlM f b = .ok b') : l.foldlM g b = .ok b' := by
  induction l generalizing b with
  | nil => exact h
  | cons a l ih =>
    rw [List.foldlM_cons] at h ⊢
    obtain ⟨b₁, hfirst, hrest⟩ := exists_of_bind_eq_ok h
    rw [hfg b a b₁ hfirst]
    exact ih hrest

/-- A loop returns if every round does, when the rounds do not depend on what was found before. -/
lemma succeeds_foldlM_iff {f : B → A → Except E B} {P : A → Prop}
    (hf : ∀ b a, Succeeds (f b a) ↔ P a) (l : List A) (b : B) :
    Succeeds (l.foldlM f b) ↔ ∀ a ∈ l, P a := by
  induction l generalizing b with
  | nil => exact iff_of_true (succeeds_ok b) (fun _ ha => absurd ha List.not_mem_nil)
  | cons a l ih =>
    rw [List.forall_mem_cons, List.foldlM_cons, ← hf b a]
    cases hfirst : f b a with
    | error e => exact iff_of_false (not_succeeds_error e) fun h => not_succeeds_error e h.1
    | ok b' => exact (ih b').trans (iff_and_self.mpr fun _ => succeeds_ok b')

/-- What some round of a loop establishes holds behind the loop. -/
lemma Returns.foldlM_iff {f : B → A → Except E B} {M : B → Prop} {Q : A → Prop}
    (hf : ∀ b a, Returns (f b a) fun b' => M b' ↔ M b ∨ Q a) (l : List A) (b : B) :
    Returns (l.foldlM f b) fun b' => M b' ↔ M b ∨ ∃ a ∈ l, Q a := by
  induction l generalizing b with
  | nil => exact .ok (by simp)
  | cons a l ih =>
    intro b' hb'
    rw [List.foldlM_cons] at hb'
    cases hfirst : f b a with
    | error e =>
      rw [hfirst] at hb'
      cases hb'
    | ok b₁ =>
      rw [hfirst] at hb'
      have hrest : M b' ↔ M b₁ ∨ ∃ a ∈ l, Q a := ih b₁ b' hb'
      have hround : M b₁ ↔ M b ∨ Q a := hf b a b₁ hfirst
      show M b' ↔ M b ∨ ∃ a' ∈ a :: l, Q a'
      rw [hrest, hround, or_assoc]
      simp only [List.mem_cons, exists_eq_or_imp]

end Core
end SocialNetworkApp
