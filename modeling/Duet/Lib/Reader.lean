import Mathlib.Data.List.Basic
import Mathlib.Data.List.TakeDrop
import Mathlib.Order.Basic

/-!
# Readers with short reads

A reader returns what is left of its data in pieces whose sizes it chooses itself: a
read into a nonempty buffer returns at least one element unless the data is exhausted,
and never more than fits. The plan of a reader fixes its choices, so that a statement
for every plan is one for every way to split reads. `fill` reads until its buffer is
full or a read returns nothing, and does not depend on the plan (`fill_spec`).
-/

namespace Duet.Lib

universe u

variable {α : Type u}

/-- What is left to read, and the sizes of the coming reads. Without a plan a read
returns as much as it can. -/
structure Reader (α : Type u) where
  rest : List α
  plan : List Nat

namespace Reader

/-- The size of the next read into a buffer of size `n`. -/
def readSize (r : Reader α) (n : Nat) : Nat := min n (max 1 (r.plan.headD n))

/-- One read into a buffer of size `n`. -/
def read (r : Reader α) (n : Nat) : List α × Reader α :=
  (r.rest.take (r.readSize n), ⟨r.rest.drop (r.readSize n), r.plan.tail⟩)

/-- Continue reading `data` from an offset. -/
def seek (data : List α) (offset : Nat) (r : Reader α) : Reader α := ⟨data.drop offset, r.plan⟩

variable {r : Reader α} {n : Nat}

theorem readSize_le : r.readSize n ≤ n := Nat.min_le_left _ _

theorem readSize_pos (pos : 0 < n) : 0 < r.readSize n := by
  unfold readSize
  omega

theorem read_fst : (r.read n).1 = r.rest.take (r.readSize n) := rfl

theorem read_rest : (r.read n).2.rest = r.rest.drop (r.readSize n) := rfl

/-- A read splits the rest of the data. -/
theorem read_append : (r.read n).1 ++ (r.read n).2.rest = r.rest :=
  List.take_append_drop _ _

theorem length_read_le : (r.read n).1.length ≤ n :=
  Nat.le_trans (List.length_take_le _ _) readSize_le

/-- A read into a nonempty buffer returns nothing only at the end. -/
theorem read_eq_nil_iff (pos : 0 < n) : (r.read n).1 = [] ↔ r.rest = [] := by
  rw [read_fst, List.take_eq_nil_iff]
  exact or_iff_right (Nat.ne_of_gt (readSize_pos pos))

theorem rest_of_read_nil (pos : 0 < n) (nothing : (r.read n).1 = []) :
    (r.read n).2.rest = [] := by
  rw [read_rest, (read_eq_nil_iff pos).mp nothing, List.drop_nil]

theorem length_read_rest : (r.read n).1.length + (r.read n).2.rest.length = r.rest.length := by
  rw [← List.length_append, read_append]

/-- What is read is a front of what is left. -/
theorem take_rest_of_read {m : Nat} {got : List α} {r' : Reader α} (read : r.read n = (got, r'))
    (fits : n ≤ m) : r.rest.take m = got ++ r'.rest.take (m - got.length) := by
  have whole := read_append (r := r) (n := n)
  have short := length_read_le (r := r) (n := n)
  rw [read] at whole short
  rw [← whole, List.take_append, List.take_of_length_le (Nat.le_trans short fits)]

/-- Read until `n` elements are there or a read returns nothing. The flag says that a
read returned nothing. -/
def fill (n : Nat) (r : Reader α) : List α × Bool × Reader α :=
  if n = 0 then ([], false, r)
  else
    match r.read n with
    | ([], r') => ([], true, r')
    | (a :: got, r') =>
      let more := fill (n - (got.length + 1)) r'
      (a :: got ++ more.1, more.2)
termination_by n

/-- However the reads are split, the buffer holds the next `n` elements of the data, and
the end was seen exactly if there were fewer. -/
theorem fill_spec (n : Nat) (r : Reader α) :
    (fill n r).1 = r.rest.take n ∧ (fill n r).2.2.rest = r.rest.drop n ∧
      ((fill n r).2.1 = true ↔ r.rest.length < n) := by
  induction n using Nat.strongRecOn generalizing r with
  | ind n ih =>
    rw [fill]
    split
    · next zero => simp [zero]
    · next nonzero =>
      have pos : 0 < n := Nat.pos_of_ne_zero nonzero
      have whole := read_append (r := r) (n := n)
      have fits := length_read_le (r := r) (n := n)
      split
      · next r' nothing =>
        have atEnd : r.rest = [] := (read_eq_nil_iff pos).mp (by rw [nothing])
        rw [nothing, atEnd] at whole
        have left : r'.rest = [] := by simpa using whole
        simp [atEnd, left, pos]
      · next a got r' some =>
        rw [some] at whole fits
        dsimp only at whole fits ⊢
        rw [List.length_cons] at fits
        obtain ⟨more, rest, atEnd⟩ := ih (n - (got.length + 1)) (by omega) r'
        rw [← whole, more, rest, atEnd]
        refine ⟨?_, ?_, ?_⟩
        · rw [List.take_append, List.take_of_length_le (l := a :: got) fits, List.length_cons]
        · rw [List.drop_append, List.drop_of_length_le (l := a :: got) fits, List.length_cons]
          rfl
        · rw [List.length_append, List.length_cons]
          omega

end Reader

end Duet.Lib
