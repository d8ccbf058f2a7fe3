import Mathlib.Data.List.Induction
import Mathlib.Data.List.TakeWhile
import Mathlib.Logic.Function.Basic

/-!
# Runs

A labelled transition relation taken step by step, and the log of the changes its labels stand for.
-/

namespace SocialNetworkApp
namespace Core

variable {S L : Type*}

/-- Steps with the given labels lead from one state to another. -/
inductive Run (step : S → L → S → Prop) : S → List L → S → Prop
  | nil (s : S) : Run step s [] s
  | cons {s s' s'' : S} {l : L} {ls : List L} (h : step s l s') (hls : Run step s' ls s'') :
      Run step s (l :: ls) s''

namespace Run

variable {step : S → L → S → Prop} {s s' s'' : S} {l : L} {ls ls' : List L}

/-- A run can be continued. -/
lemma append (h : Run step s ls s') (h' : Run step s' ls' s'') : Run step s (ls ++ ls') s'' := by
  induction h with
  | nil => exact h'
  | cons hstep _ ih => exact .cons hstep (ih h')

/-- A run can be stopped anywhere. -/
lemma of_append (h : Run step s (ls ++ ls') s'') :
    ∃ s', Run step s ls s' ∧ Run step s' ls' s'' := by
  induction ls generalizing s with
  | nil => exact ⟨s, .nil s, h⟩
  | cons l ls ih =>
    cases h with
    | cons hstep hls =>
      obtain ⟨s', hrun, hrest⟩ := ih hls
      exact ⟨s', .cons hstep hrun, hrest⟩

/-- Steps without a choice make runs without a choice. -/
lemma unique (hstep : ∀ {s s' s'' : S} {l : L}, step s l s' → step s l s'' → s' = s'')
    (h : Run step s ls s') (h' : Run step s ls s'') : s' = s'' := by
  induction h with
  | nil =>
    cases h' with
    | nil => rfl
  | cons hfirst _ ih =>
    cases h' with
    | cons hfirst' hrest =>
      obtain rfl := hstep hfirst hfirst'
      exact ih hrest

/-- What holds at first and is preserved by every step with an allowed label holds at the end. -/
lemma invariant {I : S → Prop} {A : L → Prop}
    (hI : ∀ {s s' : S} {l : L}, I s → A l → step s l s' → I s') (h : Run step s ls s')
    (hls : ∀ l ∈ ls, A l) (hs : I s) : I s' := by
  induction h with
  | nil => exact hs
  | cons hstep _ ih =>
    exact ih (fun l hl => hls l (List.mem_cons_of_mem _ hl))
      (hI hs (hls _ List.mem_cons_self) hstep)

/-- A property of the last step of a run, by induction from its end. -/
lemma induction_on_last {P : List L → S → Prop} (hnil : P [] s)
    (hsnoc : ∀ {ls : List L} {l : L} {t t' : S}, Run step s ls t → P ls t → step t l t' →
      P (ls ++ [l]) t') (h : Run step s ls s') : P ls s' := by
  induction ls using List.reverseRecOn generalizing s' with
  | nil =>
    cases h with
    | nil => exact hnil
  | append_singleton ls l ih =>
    obtain ⟨t, hrun, hlast⟩ := h.of_append
    cases hlast with
    | cons hstep hnil =>
      cases hnil with
      | nil => exact hsnoc hrun (ih hrun) hstep

end Run

/-! ### Runs of a function -/

section

variable {E : Type*} {f : S → E → S} {Good Fine : S → Prop} {Valid Admits : S → E → Prop}

/-- If a valid step from a good state either is admitted and leads to a good state or leads to one
that is not fine, every state on the way is fine exactly if every step is admitted. -/
lemma forall_prefix_foldl_iff_of_valid (hfine : ∀ {s : S}, Good s → Fine s)
    (hstep : ∀ {s : S} (e : E), Good s → Valid s e →
      Admits s e ∧ Good (f s e) ∨ ¬ Admits s e ∧ ¬ Fine (f s e)) (es : List E) {s : S}
    (hs : Good s) (hvalid : ∀ es₁ e, es₁ ++ [e] <+: es → Valid (es₁.foldl f s) e) :
    (∀ es₁, es₁ <+: es → Fine (es₁.foldl f s)) ↔
      ∀ es₁ e, es₁ ++ [e] <+: es → Admits (es₁.foldl f s) e := by
  induction es generalizing s with
  | nil =>
    refine iff_of_true ?_ ?_
    · intro es₁ hpre
      rw [List.prefix_nil.mp hpre]
      exact hfine hs
    · intro es₁ e hpre
      exact absurd (List.prefix_nil.mp hpre) (by simp)
  | cons e es ih =>
    have hrest : ∀ es₁ e', es₁ ++ [e'] <+: es → Valid (es₁.foldl f (f s e)) e' :=
      fun es₁ e' hpre => hvalid (e :: es₁) e' (List.cons_prefix_cons.mpr ⟨rfl, hpre⟩)
    rcases hstep e hs (hvalid [] e (List.cons_prefix_cons.mpr ⟨rfl, List.nil_prefix⟩)) with
      ⟨hadmits, hgood⟩ | ⟨hadmits, hnot⟩
    · constructor
      · intro h es₁ e' hpre
        cases es₁ with
        | nil =>
          obtain ⟨rfl, -⟩ := List.cons_prefix_cons.mp hpre
          exact hadmits
        | cons e₁ es₁ =>
          obtain ⟨rfl, htail⟩ := List.cons_prefix_cons.mp hpre
          refine (ih hgood hrest).mp ?_ es₁ e' htail
          exact fun es₂ hpre₂ => h (e₁ :: es₂) (List.cons_prefix_cons.mpr ⟨rfl, hpre₂⟩)
      · intro h es₁ hpre
        cases es₁ with
        | nil => exact hfine hs
        | cons e₁ es₁ =>
          obtain ⟨rfl, htail⟩ := List.cons_prefix_cons.mp hpre
          refine (ih hgood hrest).mpr ?_ es₁ htail
          exact fun es₂ e₂ hpre₂ => h (e₁ :: es₂) e₂ (List.cons_prefix_cons.mpr ⟨rfl, hpre₂⟩)
    · refine iff_of_false (fun h => hnot ?_) (fun h => hadmits ?_)
      · exact h [e] (List.cons_prefix_cons.mpr ⟨rfl, List.nil_prefix⟩)
      · exact h [] e (List.cons_prefix_cons.mpr ⟨rfl, List.nil_prefix⟩)

/-- The same, where every step is valid. -/
lemma forall_prefix_foldl_iff (hfine : ∀ {s : S}, Good s → Fine s)
    (hstep : ∀ {s : S} (e : E), Good s →
      Admits s e ∧ Good (f s e) ∨ ¬ Admits s e ∧ ¬ Fine (f s e)) (es : List E) {s : S}
    (hs : Good s) :
    (∀ es₁, es₁ <+: es → Fine (es₁.foldl f s)) ↔
      ∀ es₁ e, es₁ ++ [e] <+: es → Admits (es₁.foldl f s) e :=
  @forall_prefix_foldl_iff_of_valid S E f Good Fine (fun _ _ => True) Admits hfine
    (fun e hs _ => hstep e hs) es s hs fun _ _ _ => trivial

end

/-! ### Sides -/

section

variable {E A : Type*} [DecidableEq A] (side : E → A)

/-- What has happened on other sides since a side was first used. -/
def missed (a : A) (es : List E) : List E :=
  (es.dropWhile fun e => side e ≠ a).filter fun e => side e ≠ a

variable {side} {a : A} {es : List E} {e : E}

/-- A side that was not used has missed nothing. -/
lemma missed_of_unused (h : ∀ e ∈ es, side e ≠ a) : missed side a es = [] := by
  rw [missed, List.dropWhile_eq_nil_iff.mpr fun e he => decide_eq_true (h e he), List.filter_nil]

/-- A side misses what happens elsewhere, once it was used. -/
lemma missed_append_of_ne (hused : ∃ e ∈ es, side e = a) (h : side e ≠ a) :
    missed side a (es ++ [e]) = missed side a es ++ [e] := by
  obtain ⟨e', he', ha⟩ := hused
  have hne : es.dropWhile (fun e => side e ≠ a) ≠ [] := by
    rw [Ne, List.dropWhile_eq_nil_iff]
    intro hall
    exact of_decide_eq_true (hall e' he') ha
  rw [missed, List.dropWhile_append, if_neg (by simpa using hne), List.filter_append, missed]
  congr 1
  exact List.filter_eq_self.mpr fun x hx => by
    rw [List.mem_singleton.mp hx]
    exact decide_eq_true h

/-- A side does not miss what happens there. -/
lemma missed_append_of_eq (h : side e = a) : missed side a (es ++ [e]) = missed side a es := by
  rw [missed, missed, List.dropWhile_append]
  split_ifs with hnil
  · rw [List.isEmpty_iff.mp hnil]
    simp [h]
  · simp [List.filter_append, h]

end

/-! ### Logs -/

variable {K V : Type*} [DecidableEq K]

/-- A log of writes (`some`) and deletions (`none`), replayed on a store. -/
def replay (init : K → Option V) (log : List (K × Option V)) : K → Option V :=
  log.foldl (fun s e => Function.update s e.1 e.2) init

@[simp] lemma replay_nil (init : K → Option V) : replay init [] = init := rfl

@[simp] lemma replay_append (init : K → Option V) (log log' : List (K × Option V)) :
    replay init (log ++ log') = replay (replay init log) log' := List.foldl_append

@[simp] lemma replay_singleton (init : K → Option V) (e : K × Option V) :
    replay init [e] = Function.update init e.1 e.2 := rfl

/-- The last entry for a key counts. -/
lemma replay_eq_last (init : K → Option V) (log : List (K × Option V)) (k : K) :
    replay init log k = (log.filter fun e => e.1 = k).getLast?.elim (init k) Prod.snd := by
  induction log using List.reverseRecOn with
  | nil => rfl
  | append_singleton log e ih =>
    rw [replay_append, replay_singleton, List.filter_append]
    by_cases hk : e.1 = k
    · subst hk
      simp
    · rw [Function.update_of_ne (Ne.symm hk), ih]
      simp [hk]

end Core
end SocialNetworkApp
