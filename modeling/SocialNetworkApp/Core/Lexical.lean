import Mathlib.Data.List.Induction
import SocialNetworkApp.Core.FileSystem

/-!
# Lexical resolution

A path name can be followed without looking at the disk: `.` and the empty component stay where they
are, `..` drops a component. A list of components comes down to a number of steps up and the names
then followed down.
-/

namespace SocialNetworkApp
namespace Core

variable {cwd : List Str} {name n : Str} {p q : List Str}

/-- Where a walk over path names starts. -/
def startOf (cwd : List Str) (name : Str) : List Str := if name.head? = some '/' then [] else cwd

/-- The path a path name stands for, by its text alone. -/
def lexical (cwd : List Str) (name : Str) : List Str :=
  (name.splitOn '/').foldl stepName (startOf cwd name)

lemma startOf_append (hname : name ≠ []) (s : Str) : startOf cwd (name ++ s) = startOf cwd name := by
  obtain ⟨c, cs, rfl⟩ := List.exists_cons_of_ne_nil hname
  rfl

/-- Behind a slash a walk goes on from where it was. -/
lemma lexical_append_cons (hname : name ≠ []) (s : Str) :
    lexical cwd (name ++ '/' :: s) = (s.splitOn '/').foldl stepName (lexical cwd name) := by
  rw [lexical, lexical, startOf_append hname, List.splitOn_append_cons_self, List.foldl_append]

lemma lexical_append (hname : name ≠ []) (hn : '/' ∉ n) :
    lexical cwd (name ++ '/' :: n) = stepName (lexical cwd name) n := by
  rw [lexical_append_cons hname, List.splitOn_eq_singleton hn]
  rfl

/-! ### Text without a slash between -/

/-- The directory in which the last component of a path name is looked up. -/
def lastDirectory (cwd : List Str) (name : Str) : List Str :=
  (name.splitOn '/').dropLast.foldl stepName (startOf cwd name)

/-- The last component of a path name. -/
def lastComponent (name : Str) : Str := (name.splitOn '/').getLastD []

/-- The components of a text that is glued to the component `l`. -/
def gluedTo (l s : Str) : List Str := (l ++ (s.splitOn '/').headD []) :: (s.splitOn '/').tail

lemma splitOn_append_of_not_mem {l : Str} (hl : '/' ∉ l) (s : Str) :
    (l ++ s).splitOn '/' = gluedTo l s := by
  by_cases hs : '/' ∈ s
  · obtain ⟨a, b, rfl, ha⟩ := List.eq_append_cons_of_mem hs
    rw [gluedTo, ← List.append_assoc, List.splitOn_append_cons_self, List.splitOn_append_cons_self,
      List.splitOn_eq_singleton ha, List.splitOn_eq_singleton (by simp [hl, ha])]
    rfl
  · rw [gluedTo, List.splitOn_eq_singleton hs, List.splitOn_eq_singleton (by simp [hl, hs])]
    rfl

lemma splitOn_append (name s : Str) :
    (name ++ s).splitOn '/' = (name.splitOn '/').dropLast ++ gluedTo (lastComponent name) s := by
  rcases not_mem_or_split '/' name with hname | ⟨a, l, rfl, hl⟩
  · rw [splitOn_append_of_not_mem hname, lastComponent, List.splitOn_eq_singleton hname]
    rfl
  · rw [List.append_assoc, List.cons_append, List.splitOn_append_cons_self,
      splitOn_append_of_not_mem hl, lastComponent, List.splitOn_append_cons_self,
      List.splitOn_eq_singleton hl, List.dropLast_concat]
    simp

lemma lexical_eq_stepName (cwd : List Str) (name : Str) :
    lexical cwd name = stepName (lastDirectory cwd name) (lastComponent name) := by
  have hsplit := splitOn_append name []
  rw [List.append_nil] at hsplit
  rw [lexical, lastDirectory, hsplit, List.foldl_append]
  simp [gluedTo]

/-- Text that is glued to a path name changes its last component. -/
lemma lexical_glued (hname : name ≠ []) (s : Str) :
    lexical cwd (name ++ s) =
      (gluedTo (lastComponent name) s).foldl stepName (lastDirectory cwd name) := by
  rw [lexical, startOf_append hname, splitOn_append, List.foldl_append]
  rfl

/-! ### Inside a directory -/

/-- Only `..` leads out of a directory. -/
lemma prefix_stepName (p : List Str) (hn : n ≠ ['.', '.']) : p <+: stepName p n := by
  unfold stepName
  split_ifs
  · exact List.prefix_refl p
  · exact List.prefix_append p [n]

/-! ### Up and down -/

/-- One more component behind `r.1` steps up and the names `r.2`. -/
def climb (r : Nat × List Str) (n : Str) : Nat × List Str :=
  if n = [] ∨ n = ['.'] then r
  else if n = ['.', '.'] then (if r.2 = [] then (r.1 + 1, []) else (r.1, r.2.dropLast))
  else (r.1, r.2 ++ [n])

/-- The steps up and the names followed down to which the components `cs` come down. -/
def upAndDown (cs : List Str) : Nat × List Str := cs.foldl climb (0, [])

lemma stepName_climb (p : List Str) (r : Nat × List Str) (n : Str) :
    stepName (p.take (p.length - r.1) ++ r.2) n =
      p.take (p.length - (climb r n).1) ++ (climb r n).2 := by
  unfold stepName climb
  split_ifs with hstay hup hnames
  · rfl
  · rw [hnames, List.append_nil, List.append_nil, List.dropLast_eq_take, List.take_take,
      List.length_take]
    congr 1
    omega
  · rw [List.dropLast_append_of_ne_nil hnames]
  · rw [List.append_assoc]

/-- A walk goes up from where it starts, and then down. -/
lemma foldl_stepName_eq (p : List Str) (cs : List Str) :
    cs.foldl stepName p = p.take (p.length - (upAndDown cs).1) ++ (upAndDown cs).2 := by
  induction cs using List.reverseRecOn with
  | nil => simp [upAndDown]
  | append_singleton cs n ih =>
    have hlast : upAndDown (cs ++ [n]) = climb (upAndDown cs) n := by
      rw [upAndDown, List.foldl_append]
      rfl
    rw [List.foldl_append, ih, hlast, ← stepName_climb]
    rfl

/-- The components, followed from `p`, lead to `q` or below it: what `q` has beyond the turning point
begins the way down. -/
def StaysInside (q p : List Str) (cs : List Str) : Prop :=
  q.drop (p.length - (upAndDown cs).1) <+: (upAndDown cs).2

lemma prefix_take_append_iff {k : Nat} {names : List Str}
    (h : q.take k = p.take k ∨ q.length ≤ k ∧ q <+: p.take k) :
    q <+: p.take k ++ names ↔ q.drop k <+: names := by
  rcases h with htake | ⟨hlength, hpre⟩
  · conv_lhs => rw [← List.take_append_drop k q, htake]
    exact List.prefix_append_right_inj _
  · rw [List.drop_eq_nil_of_le hlength]
    exact iff_of_true (hpre.trans (List.prefix_append _ _)) List.nil_prefix

/-- From the directory of a component, other components lead to what it names or below. -/
lemma prefix_foldl_stepName_iff (p : List Str) (l : Str) (cs : List Str) :
    stepName p l <+: cs.foldl stepName p ↔ StaysInside (stepName p l) p cs := by
  rw [foldl_stepName_eq, StaysInside]
  apply prefix_take_append_iff
  have hle : p.length - (upAndDown cs).1 ≤ p.length := Nat.sub_le _ _
  generalize p.length - (upAndDown cs).1 = k at hle
  unfold stepName
  split_ifs
  · exact Or.inl rfl
  · rcases Nat.lt_or_ge k p.length with hlt | hge
    · left
      rw [List.dropLast_eq_take, List.take_take, Nat.min_eq_left (by omega)]
    · right
      rw [List.take_of_length_le hge]
      exact ⟨(List.dropLast_prefix p).length_le.trans hge, List.dropLast_prefix p⟩
  · left
    rw [List.take_append_of_le_length hle]

end Core
end SocialNetworkApp
