import SocialNetworkApp.Core.Number

/-!
# Input streams

What `std::getline` and `>>` read from a `std::istringstream`, and reads of a stream of bytes that
arrives in pieces.
-/

namespace SocialNetworkApp
namespace Core

/-! ### Lines -/

/-- The lines that `std::getline` reads one after another. The end of the text ends a line only if
there is something on it. -/
def lines : Str → List Str
  | [] => []
  | c :: s =>
    if c = '\n' then [] :: lines s
    else match lines s with
      | [] => [[c]]
      | line :: rest => (c :: line) :: rest

lemma lines_append {line : Str} (hline : '\n' ∉ line) (s : Str) :
    lines (line ++ '\n' :: s) = line :: lines s := by
  induction line with
  | nil => simp [lines]
  | cons c line ih =>
    rw [List.mem_cons, not_or] at hline
    simp only [List.cons_append, lines, if_neg (Ne.symm hline.1), ih hline.2]

/-- Lines that are ended one after another are read one after another. -/
lemma lines_flatMap {ls : List Str} (hls : ∀ line ∈ ls, '\n' ∉ line) :
    lines (ls.flatMap fun line => line ++ ['\n']) = ls := by
  induction ls with
  | nil => rfl
  | cons line ls ih =>
    have hrest := ih fun l hl => hls l (List.mem_cons_of_mem _ hl)
    rw [List.flatMap_cons, List.append_assoc, List.singleton_append,
      lines_append (hls line List.mem_cons_self), hrest]

/-! ### Words -/

/-- `stream >> word`, with what is left of the stream. -/
def readWord (s : Str) : Option (Str × Str) :=
  let text := s.dropWhile isSpace
  if text = [] then none
  else some (text.takeWhile fun c => !isSpace c, text.dropWhile fun c => !isSpace c)

/-- No white space, and not empty. -/
def IsWord (s : Str) : Prop := s ≠ [] ∧ ∀ c ∈ s, isSpace c = false

/-- A word is read up to the white space behind it. -/
lemma readWord_append {ws word rest : Str} (hws : ∀ c ∈ ws, isSpace c = true) (hword : IsWord word)
    (hrest : ∀ c ∈ rest.head?, isSpace c = true) :
    readWord (ws ++ word ++ rest) = some (word, rest) := by
  obtain ⟨hne, hchars⟩ := hword
  obtain ⟨c, cs, rfl⟩ := List.exists_cons_of_ne_nil hne
  have hdrop : (ws ++ c :: cs ++ rest).dropWhile isSpace = c :: cs ++ rest := by
    rw [List.append_assoc, List.dropWhile_append_of_pos hws, List.cons_append]
    exact List.dropWhile_cons_of_neg (by simp [hchars c List.mem_cons_self])
  have hstop : rest.takeWhile (fun c => !isSpace c) = [] ∧
      rest.dropWhile (fun c => !isSpace c) = rest := by
    cases rest with
    | nil => exact ⟨rfl, rfl⟩
    | cons r rs =>
      have hr : isSpace r = true := hrest r rfl
      exact ⟨List.takeWhile_cons_of_neg (by simp [hr]), List.dropWhile_cons_of_neg (by simp [hr])⟩
  have hpos : ∀ a ∈ c :: cs, (!isSpace a) = true := fun a ha => by rw [hchars a ha]; rfl
  have hne' : c :: cs ++ rest ≠ [] := List.cons_ne_nil _ _
  simp only [readWord, hdrop, if_neg hne', List.takeWhile_append_of_pos hpos,
    List.dropWhile_append_of_pos hpos, hstop.1, hstop.2, List.append_nil]

/-! ### Pieces -/

section

variable {A B : Type*} {f : B → List A}

/-- One of the pieces of `a ++ b` completes `a`. -/
lemma exists_completing {ps : List B} {a b : List A} (h : ps.flatMap f = a ++ b) (ha : a ≠ []) :
    ∃ ps₁ p ps₂ b₁, ps = ps₁ ++ p :: ps₂ ∧ (ps₁.flatMap f).length < a.length ∧
      ps₁.flatMap f ++ f p = a ++ b₁ ∧ b₁ ++ ps₂.flatMap f = b := by
  induction ps generalizing a with
  | nil => exact absurd (List.append_eq_nil_iff.mp h.symm).1 ha
  | cons p ps ih =>
    rw [List.flatMap_cons, List.append_eq_append_iff] at h
    by_cases hshort : (f p).length < a.length
    · obtain ⟨a', rfl, hrest⟩ : ∃ a', a = f p ++ a' ∧ ps.flatMap f = a' ++ b := by
        rcases h with h | ⟨b₁, hp, -⟩
        · exact h
        · rw [hp, List.length_append] at hshort
          exact absurd hshort (by omega)
      have ha' : a' ≠ [] := by
        rintro rfl
        simp at hshort
      obtain ⟨ps₁, q, ps₂, b₁, rfl, hlen, hq, hb⟩ := ih hrest ha'
      refine ⟨p :: ps₁, q, ps₂, b₁, rfl, ?_, ?_, hb⟩
      · rw [List.flatMap_cons, List.length_append, List.length_append]
        omega
      · rw [List.flatMap_cons, List.append_assoc, hq, List.append_assoc]
    · obtain ⟨b₁, hp, hb⟩ : ∃ b₁, f p = a ++ b₁ ∧ b = b₁ ++ ps.flatMap f := by
        rcases h with ⟨a', rfl, hrest⟩ | h
        · rw [List.length_append, not_lt] at hshort
          have ha' : a' = [] := List.length_eq_zero_iff.mp (by omega)
          subst ha'
          exact ⟨[], by simp, by simpa using hrest.symm⟩
        · exact h
      exact ⟨[], p, ps, b₁, rfl, List.length_pos_iff.mpr ha, hp, hb.symm⟩

end

end Core
end SocialNetworkApp
