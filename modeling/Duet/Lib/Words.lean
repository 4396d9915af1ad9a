import Mathlib.Algebra.Ring.Nat

/-!
# Arithmetic of 64-bit words

The operations that stop a program or say `none` when their result is no word, and those
that stay at the ends of the range, with what they are on the numbers.
-/

namespace Duet.Lib

def checkedAdd (x y : UInt64) : Option UInt64 :=
  if x.toNat + y.toNat < 2 ^ 64 then some (x + y) else none

def checkedSub (x y : UInt64) : Option UInt64 :=
  if y ≤ x then some (x - y) else none

def checkedMul (x y : UInt64) : Option UInt64 :=
  if x.toNat * y.toNat < 2 ^ 64 then some (x * y) else none

def checkedDiv (x y : UInt64) : Option UInt64 :=
  if y = 0 then none else some (x / y)

def saturatingAdd64 (x y : UInt64) : UInt64 := (checkedAdd x y).getD (-1)

def saturatingSub64 (x y : UInt64) : UInt64 := (checkedSub x y).getD 0

section Words

variable {x y z : UInt64}

theorem checkedAdd_eq_some : checkedAdd x y = some z ↔ z.toNat = x.toNat + y.toNat := by
  unfold checkedAdd
  split
  · next small =>
    rw [Option.some.injEq, ← UInt64.toNat_inj, UInt64.toNat_add, Nat.mod_eq_of_lt small]
    exact eq_comm
  · next large =>
    have bound := z.toNat_lt
    simp only [reduceCtorEq, false_iff]
    omega

theorem checkedSub_eq_some : checkedSub x y = some z ↔ z.toNat + y.toNat = x.toNat := by
  unfold checkedSub
  split
  · next less =>
    have order := UInt64.le_iff_toNat_le.mp less
    rw [Option.some.injEq, ← UInt64.toNat_inj, UInt64.toNat_sub_of_le x y less]
    omega
  · next more =>
    have order := mt UInt64.le_iff_toNat_le.mpr more
    simp only [reduceCtorEq, false_iff]
    omega

theorem checkedMul_eq_some : checkedMul x y = some z ↔ z.toNat = x.toNat * y.toNat := by
  unfold checkedMul
  split
  · next small =>
    rw [Option.some.injEq, ← UInt64.toNat_inj, UInt64.toNat_mul, Nat.mod_eq_of_lt small]
    exact eq_comm
  · next large =>
    have bound := z.toNat_lt
    simp only [reduceCtorEq, false_iff]
    omega

theorem checkedDiv_eq_some :
    checkedDiv x y = some z ↔ y.toNat ≠ 0 ∧ z.toNat = x.toNat / y.toNat := by
  unfold checkedDiv
  split
  · next zero => simp [zero]
  · next nonzero =>
    rw [Option.some.injEq, ← UInt64.toNat_inj, UInt64.toNat_div]
    have differs : y.toNat ≠ 0 := fun same => nonzero (UInt64.toNat_inj.mp (by simpa using same))
    exact ⟨fun same => ⟨differs, same.symm⟩, fun holds => holds.2.symm⟩

/-- A sum stays at the largest word. -/
theorem toNat_saturatingAdd64 (x y : UInt64) :
    (saturatingAdd64 x y).toNat = min (x.toNat + y.toNat) (2 ^ 64 - 1) := by
  unfold saturatingAdd64
  cases sum : checkedAdd x y with
  | some z =>
    have exact_sum := checkedAdd_eq_some.mp sum
    have bound := z.toNat_lt
    rw [Option.getD_some, exact_sum]
    omega
  | none =>
    unfold checkedAdd at sum
    have large : ¬ x.toNat + y.toNat < 2 ^ 64 := by
      intro small
      rw [if_pos small] at sum
      cases sum
    rw [Option.getD_none]
    change 2 ^ 64 - 1 = _
    omega

/-- A difference stays at zero. -/
theorem toNat_saturatingSub64 (x y : UInt64) :
    (saturatingSub64 x y).toNat = x.toNat - y.toNat := by
  unfold saturatingSub64
  cases difference : checkedSub x y with
  | some z =>
    have exact_difference := checkedSub_eq_some.mp difference
    rw [Option.getD_some]
    omega
  | none =>
    unfold checkedSub at difference
    have more : ¬ y ≤ x := by
      intro less
      rw [if_pos less] at difference
      cases difference
    have order := mt UInt64.le_iff_toNat_le.mpr more
    rw [Option.getD_none]
    change 0 = _
    omega

theorem toNat_max (x y : UInt64) : (max x y).toNat = max x.toNat y.toNat := by
  change (if x ≤ y then y else x).toNat = _
  split
  · next less => rw [Nat.max_eq_right (UInt64.le_iff_toNat_le.mp less)]
  · next more =>
    have order := mt UInt64.le_iff_toNat_le.mpr more
    rw [Nat.max_eq_left (by omega)]

theorem toNat_min (x y : UInt64) : (min x y).toNat = min x.toNat y.toNat := by
  change (if x ≤ y then x else y).toNat = _
  split
  · next less => rw [Nat.min_eq_left (UInt64.le_iff_toNat_le.mp less)]
  · next more =>
    have order := mt UInt64.le_iff_toNat_le.mpr more
    rw [Nat.min_eq_right (by omega)]

end Words

/-- A number that is brought between two bounds. -/
def clamp (value low high : Nat) : Nat := max low (min value high)

theorem clamp_bounds (value : Nat) {low high : Nat} (ordered : low ≤ high) :
    low ≤ clamp value low high ∧ clamp value low high ≤ high := by
  unfold clamp
  omega

end Duet.Lib
