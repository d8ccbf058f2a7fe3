import Mathlib.Algebra.BigOperators.Group.Finset.Basic
import Mathlib.Algebra.BigOperators.Group.Finset.Piecewise
import Mathlib.Algebra.Order.BigOperators.Group.Finset
import Mathlib.Data.Finset.Max
import Mathlib.Data.Fintype.Basic
import SocialNetworkApp.Core.Run

/-!
# Locks

Threads that acquire and release locks, step by step in any order. If every thread acquires locks
only above those it holds, the threads never block each other for good.
-/

namespace SocialNetworkApp
namespace Core

/-- What a thread does with a lock. -/
inductive LockOp (M : Type*) where
  | acquire (m : M)
  | release (m : M)
deriving DecidableEq

namespace LockOp

variable {M : Type*} [DecidableEq M]

/-- The operations lead from some locks that are held to others. Locks are acquired above all that
are held, and only what is held is released. -/
def Leads (rank : M → Nat) (after : List M) : List M → List (LockOp M) → Prop
  | held, [] => held = after
  | held, acquire m :: ops => (∀ m' ∈ held, rank m' < rank m) ∧ Leads rank after (m :: held) ops
  | held, release m :: ops => m ∈ held ∧ Leads rank after (held.erase m) ops

/-- The operations with a lock held all the time. -/
def within (m : M) (ops : List (LockOp M)) : List (LockOp M) :=
  acquire m :: ops ++ [release m]

variable {rank : M → Nat} {held held' held'' : List M} {ops ops' : List (LockOp M)} {m : M}

lemma Leads.append (h : Leads rank held' held ops) (h' : Leads rank held'' held' ops') :
    Leads rank held'' held (ops ++ ops') := by
  induction ops generalizing held with
  | nil =>
    obtain rfl : held = held' := h
    exact h'
  | cons op ops ih =>
    cases op with
    | acquire m => exact ⟨h.1, ih h.2⟩
    | release m => exact ⟨h.1, ih h.2⟩

lemma Leads.flatten {opss : List (List (LockOp M))} (h : ∀ ops ∈ opss, Leads rank [] [] ops) :
    Leads rank [] [] opss.flatten := by
  induction opss with
  | nil => exact rfl
  | cons ops opss ih =>
    exact (h ops List.mem_cons_self).append (ih fun ops' h' => h ops' (List.mem_cons_of_mem _ h'))

/-- More locks may be held below. -/
lemma Leads.frame (h : Leads rank held' held ops) {base : List M}
    (hbase : ∀ m, acquire m ∈ ops → ∀ m' ∈ base, rank m' < rank m) :
    Leads rank (held' ++ base) (held ++ base) ops := by
  induction ops generalizing held with
  | nil => exact congrArg (· ++ base) h
  | cons op ops ih =>
    have hrest : ∀ m, acquire m ∈ ops → ∀ m' ∈ base, rank m' < rank m :=
      fun m hm => hbase m (List.mem_cons_of_mem _ hm)
    cases op with
    | acquire m =>
      refine ⟨fun m' hm' => ?_, ih h.2 hrest⟩
      rcases List.mem_append.mp hm' with hheld | hbelow
      · exact h.1 m' hheld
      · exact hbase m List.mem_cons_self m' hbelow
    | release m =>
      refine ⟨List.mem_append_left _ h.1, ?_⟩
      rw [List.erase_append_left _ h.1]
      exact ih h.2 hrest

/-- A lock may be held all the time if it is below all others. -/
lemma Leads.within (h : Leads rank [] [] ops)
    (hm : ∀ m', acquire m' ∈ ops → rank m < rank m') : Leads rank [] [] (within m ops) := by
  have hbelow : ∀ m', acquire m' ∈ ops → ∀ m'' ∈ [m], rank m'' < rank m' := by
    intro m' hm' m'' hm''
    rw [List.mem_singleton.mp hm'']
    exact hm m' hm'
  have hframe : Leads rank [m] [m] ops := h.frame hbelow
  have hrelease : Leads rank [] [m] [release m] := ⟨List.mem_singleton_self m, by simp [Leads]⟩
  exact ⟨by simp, hframe.append hrelease⟩

end LockOp

/-- What every thread has still to do, and the locks it holds. -/
structure Threads (T M : Type*) where
  todo : T → List (LockOp M)
  held : T → List M

namespace Threads

variable {T M : Type*} [DecidableEq T] [DecidableEq M]

/-- The next step of a thread. A lock that is held, by whatever thread, cannot be acquired, and only
the thread that holds it can release it. -/
inductive Step (s : Threads T M) : T → Threads T M → Prop
  | acquire {t : T} {m : M} {ops : List (LockOp M)} (htodo : s.todo t = .acquire m :: ops)
      (hfree : ∀ u, m ∉ s.held u) :
      Step s t ⟨Function.update s.todo t ops, Function.update s.held t (m :: s.held t)⟩
  | release {t : T} {m : M} {ops : List (LockOp M)} (htodo : s.todo t = .release m :: ops)
      (hheld : m ∈ s.held t) :
      Step s t ⟨Function.update s.todo t ops, Function.update s.held t ((s.held t).erase m)⟩

/-- Threads that hold nothing yet. -/
def start (todo : T → List (LockOp M)) : Threads T M := ⟨todo, fun _ => []⟩

/-- All threads go on in order, and no lock is held twice. -/
structure Orderly (rank : M → Nat) (s : Threads T M) : Prop where
  leads : ∀ t, LockOp.Leads rank [] (s.held t) (s.todo t)
  exclusive : ∀ {t u : T} {m : M}, m ∈ s.held t → m ∈ s.held u → t = u

variable {rank : M → Nat} {s s' : Threads T M} {t : T} {ts : List T}

omit [DecidableEq T] in
lemma orderly_start {todo : T → List (LockOp M)} (h : ∀ t, LockOp.Leads rank [] [] (todo t)) :
    (start todo).Orderly rank where
  leads := h
  exclusive ht := by cases ht

lemma Orderly.step (h : s.Orderly rank) (hstep : Step s t s') : s'.Orderly rank := by
  cases hstep with
  | @acquire m ops htodo hfree =>
    have hlead := h.leads t
    rw [htodo] at hlead
    constructor
    · intro u
      by_cases hu : u = t
      · subst hu
        simpa using hlead.2
      · simpa [hu] using h.leads u
    · intro u v m' hu hv
      by_cases hut : u = t
      · by_cases hvt : v = t
        · rw [hut, hvt]
        · subst hut
          simp only [Function.update_self, Function.update_of_ne hvt, List.mem_cons] at hu hv
          rcases hu with rfl | hu
          · exact absurd hv (hfree v)
          · exact h.exclusive hu hv
      · simp only [Function.update_of_ne hut] at hu
        by_cases hvt : v = t
        · subst hvt
          simp only [Function.update_self, List.mem_cons] at hv
          rcases hv with rfl | hv
          · exact absurd hu (hfree u)
          · exact h.exclusive hu hv
        · simp only [Function.update_of_ne hvt] at hv
          exact h.exclusive hu hv
  | @release m ops htodo hheld =>
    have hlead := h.leads t
    rw [htodo] at hlead
    have hsub : ∀ u m', m' ∈ Function.update s.held t ((s.held t).erase m) u → m' ∈ s.held u := by
      intro u m' hm'
      by_cases hu : u = t
      · subst hu
        rw [Function.update_self] at hm'
        exact List.mem_of_mem_erase hm'
      · rwa [Function.update_of_ne hu] at hm'
    constructor
    · intro u
      by_cases hu : u = t
      · subst hu
        simpa using hlead.2
      · simpa [hu] using h.leads u
    · exact fun hu hv => h.exclusive (hsub _ _ hu) (hsub _ _ hv)

lemma Orderly.run (h : s.Orderly rank) (hrun : Run Step s ts s') : s'.Orderly rank :=
  hrun.invariant (fun hs _ hstep => hs.step hstep) (fun _ _ => trivial) h

omit [DecidableEq T] in
/-- No thread goes on to a lock that it holds itself. -/
lemma Orderly.not_mem_of_acquire (h : s.Orderly rank) {m : M} {ops : List (LockOp M)}
    (htodo : s.todo t = .acquire m :: ops) : m ∉ s.held t := by
  have hlead := h.leads t
  rw [htodo] at hlead
  intro hm
  exact Nat.lt_irrefl _ (hlead.1 m hm)

omit [DecidableEq T] in
/-- A thread holds what it goes on to release. -/
lemma Orderly.mem_of_release (h : s.Orderly rank) {m : M} {ops : List (LockOp M)}
    (htodo : s.todo t = .release m :: ops) : m ∈ s.held t := by
  have hlead := h.leads t
  rw [htodo] at hlead
  exact hlead.1

omit [DecidableEq T] in
/-- A thread that holds a lock is not done. -/
lemma Orderly.todo_ne_nil (h : s.Orderly rank) (ht : s.held t ≠ []) : s.todo t ≠ [] := by
  intro hnil
  have hlead := h.leads t
  rw [hnil] at hlead
  exact ht hlead

/-- A thread that wants a lock above all that are held can take its step. -/
lemma Orderly.exists_step_of_top (h : s.Orderly rank) (ht : s.todo t ≠ [])
    (htop : ∀ u, ∀ m ∈ s.held u, ∃ m' ∈ s.held t, rank m ≤ rank m') : ∃ s', Step s t s' := by
  have hlead := h.leads t
  cases htodo : s.todo t with
  | nil => exact absurd htodo ht
  | cons op ops =>
    cases op with
    | release m => exact ⟨_, .release htodo (h.mem_of_release htodo)⟩
    | acquire m =>
      rw [htodo] at hlead
      refine ⟨_, .acquire htodo fun u hu => ?_⟩
      obtain ⟨m', hm', hle⟩ := htop u m hu
      exact absurd (hlead.1 m' hm') (Nat.not_lt.mpr hle)

/-- Unless all threads are done, one of them can take a step. -/
lemma Orderly.exists_step [Fintype T] (h : s.Orderly rank) (ht : s.todo t ≠ []) :
    ∃ u s', Step s u s' := by
  by_cases hfree : ∀ u, s.held u = []
  · refine ⟨t, h.exists_step_of_top ht fun u m hm => ?_⟩
    rw [hfree u] at hm
    cases hm
  · -- the thread that holds the highest lock is not kept waiting
    obtain ⟨u, hu⟩ := not_forall.mp hfree
    obtain ⟨m, hm⟩ := List.exists_mem_of_ne_nil _ hu
    obtain ⟨top, htop, hmax⟩ := (Finset.univ.biUnion fun u => (s.held u).toFinset).exists_max_image
      rank ⟨m, Finset.mem_biUnion.mpr ⟨u, Finset.mem_univ u, List.mem_toFinset.mpr hm⟩⟩
    obtain ⟨v, -, hv⟩ := Finset.mem_biUnion.mp htop
    rw [List.mem_toFinset] at hv
    refine ⟨v, h.exists_step_of_top (h.todo_ne_nil (List.ne_nil_of_mem hv)) fun u' m' hm' => ?_⟩
    refine ⟨top, hv, hmax m' ?_⟩
    exact Finset.mem_biUnion.mpr ⟨u', Finset.mem_univ u', List.mem_toFinset.mpr hm'⟩

/-- The steps that all threads have still to take. -/
def size [Fintype T] (s : Threads T M) : Nat := ∑ t, (s.todo t).length

lemma size_step [Fintype T] (hstep : Step s t s') : s'.size + 1 = s.size := by
  obtain ⟨op, ops, htodo, htodo'⟩ :
      ∃ op ops, s.todo t = op :: ops ∧ s'.todo = Function.update s.todo t ops := by
    cases hstep with
    | acquire htodo hfree => exact ⟨_, _, htodo, rfl⟩
    | release htodo hheld => exact ⟨_, _, htodo, rfl⟩
  have hlength : ∀ u, (s.todo u).length = (s'.todo u).length + if u = t then 1 else 0 := by
    intro u
    rw [htodo']
    by_cases hu : u = t
    · subst hu
      simp [htodo]
    · simp [hu]
  rw [size, size, Finset.sum_congr rfl fun u _ => hlength u, Finset.sum_add_distrib]
  simp

/-- Every step is one of those that were to be taken. -/
lemma size_run [Fintype T] (hrun : Run Step s ts s') : s'.size + ts.length = s.size := by
  induction hrun with
  | nil => rfl
  | cons hstep _ ih => rw [← size_step hstep, ← ih, List.length_cons, Nat.add_assoc]

/-- Threads that go on in order can all come to their ends. -/
lemma Orderly.completes [Fintype T] (h : s.Orderly rank) :
    ∃ ts s', Run Step s ts s' ∧ ∀ t, s'.todo t = [] ∧ s'.held t = [] := by
  induction hn : s.size generalizing s with
  | zero =>
    refine ⟨[], s, .nil s, fun t => ?_⟩
    have hnil : s.todo t = [] :=
      List.length_eq_zero_iff.mp (Finset.sum_eq_zero_iff.mp hn t (Finset.mem_univ t))
    refine ⟨hnil, ?_⟩
    by_contra hheld
    exact h.todo_ne_nil hheld hnil
  | succ n ih =>
    obtain ⟨t, -, ht⟩ := Finset.exists_ne_zero_of_sum_ne_zero (hn.trans_ne (Nat.succ_ne_zero n))
    obtain ⟨u, s', hstep⟩ := h.exists_step fun hnil : s.todo t = [] => ht (by rw [hnil]; rfl)
    obtain ⟨ts, s'', hrun, hdone⟩ := ih (h.step hstep)
      (Nat.succ_injective ((size_step hstep).trans hn))
    exact ⟨u :: ts, s'', .cons hstep hrun, hdone⟩

end Threads

end Core
end SocialNetworkApp
