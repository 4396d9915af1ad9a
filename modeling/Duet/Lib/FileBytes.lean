import Mathlib.Data.List.Basic
import Mathlib.Data.List.TakeDrop
import Mathlib.Order.Lattice
import Mathlib.Order.Nat

/-!
# The contents of a file as a list

Writing at a position and setting the length, as the operating system does them: a write
past the end and a growing length fill the gap.
-/

namespace Duet.Lib

universe u

variable {α : Type u}

/-- Write `data` at a position; `fill` stands in a gap before it. -/
def writeAt (fill : α) (file : List α) (pos : Nat) (data : List α) : List α :=
  file.take pos ++ List.replicate (pos - file.length) fill ++ data ++
    file.drop (pos + data.length)

def setLen (fill : α) (file : List α) (len : Nat) : List α :=
  file.take len ++ List.replicate (len - file.length) fill

section WriteAt

variable {fill : α} {file data : List α} {pos : Nat}

/-- A write inside the file or at its end replaces what was there. -/
theorem writeAt_of_le (inside : pos ≤ file.length) :
    writeAt fill file pos data = file.take pos ++ data ++ file.drop (pos + data.length) := by
  have noGap : pos - file.length = 0 := by omega
  simp [writeAt, noGap]

/-- The written file up to the end of the write. -/
theorem take_writeAt (inside : pos ≤ file.length) :
    (writeAt fill file pos data).take (pos + data.length) = file.take pos ++ data := by
  have front : (file.take pos ++ data).length = pos + data.length := by
    simp [inside]
  rw [writeAt_of_le inside, List.take_append, front, Nat.sub_self, List.take_zero,
    List.append_nil, List.take_of_length_le front.le]

/-- A write leaves what follows it alone. -/
theorem drop_writeAt (inside : pos ≤ file.length) :
    (writeAt fill file pos data).drop (pos + data.length) = file.drop (pos + data.length) := by
  have front : (file.take pos ++ data).length = pos + data.length := by
    simp [inside]
  rw [writeAt_of_le inside, List.drop_append, front, Nat.sub_self, List.drop_zero,
    List.drop_of_length_le front.le, List.nil_append]

theorem writeAt_nil (inside : pos ≤ file.length) : writeAt fill file pos [] = file := by
  simp [writeAt_of_le inside]

theorem length_writeAt (inside : pos ≤ file.length) :
    pos + data.length ≤ (writeAt fill file pos data).length := by
  simp [writeAt_of_le inside, inside]

/-- Two writes one after the other are one write. -/
theorem writeAt_writeAt (inside : pos ≤ file.length) (more : List α) :
    writeAt fill (writeAt fill file pos data) (pos + data.length) more =
      writeAt fill file pos (data ++ more) := by
  rw [writeAt_of_le (length_writeAt inside), take_writeAt inside, ← List.drop_drop,
    drop_writeAt inside, List.drop_drop, writeAt_of_le inside, List.length_append]
  simp only [List.append_assoc, Nat.add_assoc]

theorem setLen_of_le (inside : pos ≤ file.length) : setLen fill file pos = file.take pos := by
  have noGap : pos - file.length = 0 := by omega
  simp [setLen, noGap]

end WriteAt

end Duet.Lib
