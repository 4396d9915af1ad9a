import Mathlib.Data.List.DropRight
import Mathlib.Data.List.Infix

/-!
# Lines of a text

A text as the list of its lines, each ended by a delimiter: splitting keeps the delimiters,
and a text that ends with one is the concatenation of its delimited lines.
-/

namespace Duet.Lib

universe u

variable {α : Type u}

/-- The lines of a text, each with its delimiter; the last one may lack it. -/
def splitInclusive [DecidableEq α] (delim : α) : List α → List (List α)
  | [] => []
  | a :: rest =>
    if a = delim then [a] :: splitInclusive delim rest
    else
      match splitInclusive delim rest with
      | [] => [[a]]
      | line :: lines => (a :: line) :: lines

/-- The text whose lines are the given ones. -/
def unlines (delim : α) (lines : List (List α)) : List α :=
  lines.flatMap (· ++ [delim])

/-- The text without the delimiters at its end. -/
def trimEndMatches [DecidableEq α] (delim : α) (text : List α) : List α :=
  text.rdropWhile (· = delim)

section Lines

variable {delim : α} {text line : List α} {lines : List (List α)}

@[simp] theorem unlines_nil : unlines delim [] = [] := rfl

@[simp] theorem unlines_cons : unlines delim (line :: lines) = line ++ delim :: unlines delim lines := by
  simp [unlines]

@[simp] theorem unlines_append (more : List (List α)) :
    unlines delim (lines ++ more) = unlines delim lines ++ unlines delim more := by
  simp [unlines]

theorem length_unlines_le {bound : Nat} (short : ∀ line ∈ lines, line.length ≤ bound) :
    (unlines delim lines).length ≤ lines.length * (bound + 1) := by
  induction lines with
  | nil => simp
  | cons line lines ih =>
    have here := short line List.mem_cons_self
    have later := ih fun line member => short line (List.mem_cons_of_mem _ member)
    simp only [unlines_cons, List.length_append, List.length_cons]
    rw [Nat.add_mul]
    omega

theorem getLast?_unlines (nonempty : lines ≠ []) :
    (unlines delim lines).getLast? = some delim := by
  obtain ⟨front, last, rfl⟩ := List.eq_nil_or_concat lines |>.resolve_left nonempty
  simp [unlines, List.getLast?_append]

/-- A text that is empty or ends with a delimiter is made of delimited lines. -/
theorem exists_lines (text : List α) (ended : ∀ last ∈ text.getLast?, last = delim) :
    ∃ lines, (∀ line ∈ lines, delim ∉ line) ∧ text = unlines delim lines := by
  induction text with
  | nil => exact ⟨[], by simp, rfl⟩
  | cons a rest ih =>
    have restEnded : ∀ last ∈ rest.getLast?, last = delim := by
      intro last member
      apply ended last
      cases rest with
      | nil => simp at member
      | cons b rest => simpa [List.getLast?_cons_cons] using member
    obtain ⟨lines, single, rfl⟩ := ih restEnded
    by_cases same : a = delim
    · exact ⟨[] :: lines, by simpa using single, by simp [same]⟩
    · cases lines with
      | nil =>
        have := ended a (by simp)
        exact absurd this same
      | cons line lines =>
        refine ⟨(a :: line) :: lines, ?_, by simp⟩
        intro other member
        rcases List.mem_cons.mp member with rfl | member
        · have here := single line List.mem_cons_self
          simp [here, Ne.symm same]
        · exact single other (List.mem_cons_of_mem _ member)

variable [DecidableEq α]

theorem trimEndMatches_concat (single : delim ∉ line) :
    trimEndMatches delim (line ++ [delim]) = line := by
  rw [trimEndMatches, List.rdropWhile_concat_pos _ _ _ (by simp), List.rdropWhile_eq_self_iff]
  intro nonempty
  have member := List.getLast_mem nonempty
  simp only [decide_eq_true_eq]
  intro same
  exact single (same ▸ member)

/-- A delimited line in front of a text is its first line. -/
theorem splitInclusive_cons_line (single : delim ∉ line) (rest : List α) :
    splitInclusive delim (line ++ delim :: rest) =
      (line ++ [delim]) :: splitInclusive delim rest := by
  induction line with
  | nil => simp [splitInclusive]
  | cons a line ih =>
    have other : a ≠ delim := fun same => single (by simp [same])
    have later : delim ∉ line := fun member => single (List.mem_cons_of_mem _ member)
    simp [splitInclusive, other, ih later]

/-- Delimited lines in front of a text are its first lines. -/
theorem splitInclusive_unlines_append (single : ∀ line ∈ lines, delim ∉ line) (rest : List α) :
    splitInclusive delim (unlines delim lines ++ rest) =
      lines.map (· ++ [delim]) ++ splitInclusive delim rest := by
  induction lines with
  | nil => rfl
  | cons line lines ih =>
    have here := single line List.mem_cons_self
    have later := ih fun line member => single line (List.mem_cons_of_mem _ member)
    rw [unlines_cons, List.append_assoc, List.cons_append, splitInclusive_cons_line here, later]
    rfl

/-- Splitting a text into its lines recovers the lines it was built from. -/
theorem splitInclusive_unlines (single : ∀ line ∈ lines, delim ∉ line) :
    splitInclusive delim (unlines delim lines) = lines.map (· ++ [delim]) := by
  have split := splitInclusive_unlines_append single []
  rw [List.append_nil] at split
  rw [split]
  exact List.append_nil _

/-- A text that ends with a delimiter keeps its lines when more text follows. -/
theorem splitInclusive_append (ended : ∀ last ∈ text.getLast?, last = delim) (rest : List α) :
    splitInclusive delim (text ++ rest) =
      splitInclusive delim text ++ splitInclusive delim rest := by
  obtain ⟨lines, single, rfl⟩ := exists_lines text ended
  rw [splitInclusive_unlines_append single, splitInclusive_unlines single]

omit [DecidableEq α] in
/-- An element of a list with one more at the end is the new one or one of the list. -/
theorem concat_eq_append_cons {front rest : List α} {a last : α}
    (same : text ++ [last] = front ++ a :: rest) :
    text = front ∧ last = a ∨ ∃ rest', text = front ++ a :: rest' := by
  rcases List.eq_nil_or_concat' rest with rfl | ⟨rest', last', rfl⟩
  · obtain ⟨earlier, here⟩ := List.append_inj' same rfl
    exact .inl ⟨earlier, by simpa using here⟩
  · rw [← List.cons_append, ← List.append_assoc] at same
    exact .inr ⟨rest', (List.append_inj' same rfl).1⟩

end Lines

end Duet.Lib
