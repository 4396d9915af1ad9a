import Duet.Lib.FileBytes
import Mathlib.Data.List.Induction

/-!
# Torn writes

A write inside a file of which any subset of the positions reached the disk.
-/

namespace Duet.Lib

universe u

variable {α : Type u}

/-- The file after a write at a position of which only the chosen positions of the file
were written. -/
def tornWrite (chosen : Nat → Bool) (file : List α) (pos : Nat) (data : List α) : List α :=
  file.mapIdx fun i old =>
    if chosen i && decide (pos ≤ i) then data[i - pos]?.getD old else old

section TornWrite

variable {chosen : Nat → Bool} {front old back data : List α}

@[simp] theorem length_tornWrite (file : List α) (pos : Nat) :
    (tornWrite chosen file pos data).length = file.length := by
  simp [tornWrite]

/-- Nothing before the position of a write and nothing after its end changes. -/
theorem tornWrite_append (same : data.length = old.length) :
    tornWrite chosen (front ++ old ++ back) front.length data =
      front ++ tornWrite (fun i => chosen (front.length + i)) old 0 data ++ back := by
  simp only [tornWrite, List.mapIdx_append, List.length_append]
  congr 1
  · congr 1
    · refine List.ext_getElem (by simp) ?_
      intro i small _
      have before : ¬ front.length ≤ i := by simpa using small
      simp [before]
    · simp [Nat.add_comm]
  · refine List.ext_getElem (by simp) ?_
    intro i _ _
    have past : data.length ≤ i + (front.length + old.length) - front.length := by omega
    simp [List.getElem?_eq_none past]

/-- Where the write agrees with the file nothing changes. -/
theorem tornWrite_common (common : List α) (same : data.length = old.length) (last : α) :
    tornWrite chosen (common ++ old ++ [last]) 0 (common ++ data ++ [last]) =
      common ++ tornWrite (fun i => chosen (common.length + i)) old 0 data ++ [last] := by
  refine List.ext_getElem (by simp) ?_
  intro i _ _
  simp only [tornWrite, List.getElem_mapIdx, Nat.zero_le, decide_true, Bool.and_true, Nat.sub_zero]
  grind

/-- Every byte of a torn write comes from the file or from the data. -/
theorem mem_tornWrite {pos : Nat} {a : α} (member : a ∈ tornWrite chosen old pos data) :
    a ∈ old ∨ a ∈ data := by
  rw [tornWrite, List.mem_mapIdx] at member
  obtain ⟨i, small, rfl⟩ := member
  split
  · cases found : data[i - pos]? with
    | none => exact .inl (List.getElem_mem small)
    | some b => exact .inr (List.mem_of_getElem? found)
  · exact .inl (List.getElem_mem small)

/-- A write all of whose positions reached the disk. -/
theorem tornWrite_all (fill : α) (file : List α) (pos : Nat)
    (inside : pos + data.length ≤ file.length) :
    tornWrite (fun _ => true) file pos data = writeAt fill file pos data := by
  rw [writeAt_of_le (by omega)]
  refine List.ext_getElem (by simp; omega) ?_
  intro i small _
  simp only [tornWrite, List.getElem_mapIdx, Bool.true_and, decide_eq_true_eq]
  rcases Nat.lt_or_ge i pos with before | after
  · simp [before, Nat.not_le.mpr before, show pos ≤ file.length by omega]
  · rcases Nat.lt_or_ge (i - pos) data.length with within | past
    · have front : (file.take pos).length = pos := by simp; omega
      simp [front, after, within]
    · have front : (file.take pos ++ data).length = pos + data.length := by simp; omega
      simp [List.getElem_append, after]
      grind

end TornWrite

end Duet.Lib
