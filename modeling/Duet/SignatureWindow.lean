import Duet.Lib.Words
import Mathlib.Data.Nat.Sqrt
import Mathlib.Algebra.Order.Ring.Unbundled.Basic
import Mathlib.Tactic.Ring

/-!
# The window of a signature

A signature splits a file into windows whose length grows with the square root of the size. The
root is found by Newton's iteration on machine words, where the sum of a guess and its quotient
has to fit into a word.
-/

namespace Duet

open Lib

/-! ## The integer square root -/

section Root

variable (checks : Bool)

/-- `+` of words, in a build that checks for overflow or in one where the sum wraps. -/
def plainAdd (x y : UInt64) : Option UInt64 := if checks then checkedAdd x y else some (x + y)

/-- `(x + n / x) / 2`; there is none when the division or the sum stops the program. -/
def newtonStep (n x : UInt64) : Option UInt64 := do
  let quotient ← checkedDiv n x
  let sum ← plainAdd checks x quotient
  some (sum / 2)

/-- The loop of `integer_sqrt`, from a guess and the one after it. -/
def newtonLoop (n x y : UInt64) : Option UInt64 :=
  if y < x then
    match newtonStep checks n y with
    | none => none
    | some next => newtonLoop n y next
  else some x
termination_by x.toNat

def integerSqrt (n : UInt64) : Option UInt64 :=
  if n ≤ 1 then some n
  else
    match newtonStep checks n n with
    | none => none
    | some next => newtonLoop checks n n next

end Root

/-! ## Windows -/

/-- A `usize` is a 64-bit word. -/
structure SignatureWindowConfig where
  min : UInt64
  max : UInt64
deriving DecidableEq, Repr

namespace SignatureWindowConfig

def normalized (config : SignatureWindowConfig) : SignatureWindowConfig where
  min := Max.max config.min 1
  max := Max.max config.max (Max.max config.min 1)

def windowForSize (config : SignatureWindowConfig) (checks : Bool) (size : UInt64) :
    Option UInt64 := do
  let root ← integerSqrt checks size
  some (Min.min (Max.max root config.normalized.min) config.normalized.max)

end SignatureWindowConfig

/-! ## One step -/

section Step

variable {n x y root : Nat}

/-- A step from a positive guess does not fall below the root. -/
theorem le_newton (positive : 0 < x) (below : root * root ≤ n) : root ≤ (x + n / x) / 2 := by
  have enough : 2 * root ≤ x + n / x := by
    by_contra less
    have short : n / x < 2 * root - x := by
      generalize n / x = quotient at less ⊢
      omega
    have bound : n < (2 * root - x) * x := (Nat.div_lt_iff_lt_mul positive).mp short
    have gap : x < 2 * root := Nat.lt_of_sub_pos (Nat.zero_lt_of_lt short)
    obtain ⟨rest, same⟩ : ∃ rest, 2 * root = x + rest := ⟨2 * root - x, by omega⟩
    have twice : 2 * root - x = rest := by omega
    rw [twice] at bound
    have square : 4 * rest * x ≤ (rest + x) ^ 2 := four_mul_le_sq_add rest x
    have double : (rest + x) ^ 2 = 4 * (root * root) := by
      rw [Nat.add_comm, ← same]
      ring
    have more : 4 * n < 4 * (rest * x) := by omega
    have most : 4 * (rest * x) ≤ 4 * n := by
      calc 4 * (rest * x) = 4 * rest * x := (Nat.mul_assoc 4 rest x).symm
        _ ≤ 4 * (root * root) := double ▸ square
        _ ≤ 4 * n := Nat.mul_le_mul_left 4 below
    omega
  omega

/-- The sum of a guess and its quotient is hardly more than the number. -/
theorem newton_sum_le (positive : 0 < x) (below : x ≤ n) : x + n / x ≤ n + 1 := by
  have quotient : 0 < n / x := Nat.div_pos below positive
  have product : x * (n / x) ≤ n := Nat.mul_div_le n x
  obtain ⟨a, same⟩ : ∃ a, x = a + 1 := ⟨x - 1, by omega⟩
  obtain ⟨b, same'⟩ : ∃ b, n / x = b + 1 := ⟨n / x - 1, by omega⟩
  rw [same'] at product ⊢
  rw [same] at product ⊢
  have expanded : (a + 1) * (b + 1) = a * b + a + b + 1 := by ring
  omega

/-- A guess that is followed by none below it is not above the root. -/
theorem mul_self_le_of_newton (positive : 0 < x) (last : ¬ (x + n / x) / 2 < x) : x * x ≤ n := by
  have quotient : x ≤ n / x := by omega
  exact (Nat.le_div_iff_mul_le positive).mp quotient

end Step

/-! ## The iteration on words -/

section Words

variable {checks : Bool} {n x y : UInt64}

theorem newtonStep_eq (positive : 0 < x.toNat) (below : x.toNat ≤ n.toNat)
    (room : n.toNat + 1 < 2 ^ 64) :
    ∃ z, newtonStep checks n x = some z ∧ z.toNat = (x.toNat + n.toNat / x.toNat) / 2 := by
  have bound := newton_sum_le positive below
  have nonzero : x.toNat ≠ 0 := by omega
  have divided : checkedDiv n x = some (n / x) :=
    checkedDiv_eq_some.mpr ⟨nonzero, UInt64.toNat_div n x⟩
  have fits : x.toNat + (n / x).toNat < 2 ^ 64 := by
    rw [UInt64.toNat_div]
    omega
  have sum : (x + n / x).toNat = x.toNat + n.toNat / x.toNat := by
    rw [UInt64.toNat_add, Nat.mod_eq_of_lt fits, UInt64.toNat_div]
  have added : plainAdd checks x (n / x) = some (x + n / x) := by
    unfold plainAdd
    split
    · exact checkedAdd_eq_some.mpr (by rw [sum, UInt64.toNat_div])
    · rfl
  refine ⟨(x + n / x) / 2, ?_, ?_⟩
  · unfold newtonStep
    rw [divided, Option.bind_eq_bind, Option.bind_some, added]
    rfl
  · rw [UInt64.toNat_div, sum]
    rfl

/-- The loop ends at the root when it starts between the root and the number. -/
theorem newtonLoop_eq (room : n.toNat + 1 < 2 ^ 64) (nonzero : 0 < n.toNat)
    (above : n.toNat.sqrt ≤ x.toNat) (below : x.toNat ≤ n.toNat)
    (next : y.toNat = (x.toNat + n.toNat / x.toNat) / 2) :
    ∃ r, newtonLoop checks n x y = some r ∧ r.toNat = n.toNat.sqrt := by
  have rooted : 0 < n.toNat.sqrt := Nat.sqrt_pos.mpr nonzero
  induction x, y using newtonLoop.induct checks n with
  | case1 x y less stopped =>
    have order := UInt64.lt_iff_toNat_lt.mp less
    have positive : 0 < x.toNat := by omega
    have follows := le_newton positive (Nat.sqrt_le n.toNat)
    obtain ⟨z, step, -⟩ := @newtonStep_eq checks n y (by omega) (by omega) room
    rw [stopped] at step
    cases step
  | case2 x y less z step ih =>
    have order := UInt64.lt_iff_toNat_lt.mp less
    have positive : 0 < x.toNat := by omega
    have follows := le_newton positive (Nat.sqrt_le n.toNat)
    obtain ⟨z', step', value⟩ := @newtonStep_eq checks n y (by omega) (by omega) room
    rw [step, Option.some.injEq] at step'
    subst step'
    rw [newtonLoop, if_pos less, step]
    exact ih (by omega) (by omega) value
  | case3 x y last =>
    have order := mt UInt64.lt_iff_toNat_lt.mpr last
    rw [next] at order
    have square := mul_self_le_of_newton (by omega) order
    have small : x.toNat ≤ n.toNat.sqrt := Nat.le_sqrt.mpr square
    rw [newtonLoop, if_neg last]
    exact ⟨x, rfl, by omega⟩

theorem integerSqrt_eq (room : n.toNat + 1 < 2 ^ 64) :
    ∃ r, integerSqrt checks n = some r ∧ r.toNat = n.toNat.sqrt := by
  unfold integerSqrt
  split
  · next small =>
    have order : n.toNat ≤ 1 := UInt64.le_iff_toNat_le.mp small
    refine ⟨n, rfl, Nat.eq_sqrt.mpr ?_⟩
    generalize n.toNat = m at order
    have cases : m = 0 ∨ m = 1 := by omega
    rcases cases with rfl | rfl
    · omega
    · omega
  · next large =>
    have order := mt UInt64.le_iff_toNat_le.mpr large
    have order : 1 < n.toNat := Nat.lt_of_not_le order
    obtain ⟨y, step, value⟩ := @newtonStep_eq checks n n (by omega) (Nat.le_refl _) room
    rw [step]
    exact newtonLoop_eq room (by omega) (Nat.sqrt_le_self _) (Nat.le_refl _) value

/-- The largest word has no root: the first sum does not fit into a word, and when it wraps the
next division is one by zero. -/
theorem integerSqrt_max (checks : Bool) : integerSqrt checks (-1) = none := by
  cases checks with
  | true => rfl
  | false =>
    have step : newtonStep false (-1) (-1) = some 0 := by decide
    have stops : newtonStep false (-1) 0 = none := by decide
    unfold integerSqrt
    rw [if_neg (by decide), step]
    dsimp only
    rw [newtonLoop, if_pos (by decide), stops]

end Words

/-! ## The window -/

/-- The number `r` is the greatest one whose square is not above `n`. -/
def IsRoot (n r : Nat) : Prop := r * r ≤ n ∧ ∀ q, q * q ≤ n → q ≤ r

theorem isRoot_sqrt (n : Nat) : IsRoot n n.sqrt :=
  ⟨Nat.sqrt_le n, fun _ => Nat.le_sqrt.mpr⟩

/-- The window of a file is the root of its size between the bounds of the configuration. -/
theorem windowForSize_eq (checks : Bool) {n : UInt64} (room : n.toNat + 1 < 2 ^ 64)
    (config : SignatureWindowConfig) :
    ∃ window, config.windowForSize checks n = some window ∧ 1 ≤ window.toNat ∧
      window.toNat =
        min (max n.toNat.sqrt config.normalized.min.toNat) config.normalized.max.toNat := by
  obtain ⟨r, found, value⟩ := @integerSqrt_eq checks n room
  refine ⟨min (max r config.normalized.min) config.normalized.max, ?_, ?_, ?_⟩
  · unfold SignatureWindowConfig.windowForSize
    rw [found]
    rfl
  · unfold SignatureWindowConfig.normalized
    simp only [toNat_min, toNat_max]
    have one : (1 : UInt64).toNat = 1 := rfl
    omega
  · rw [toNat_min, toNat_max, value]

/-- In every build the root of a word is found, and every window is the root between the bounds of
its configuration, exactly for the words below the largest one. -/
theorem integerSqrt_isRoot_iff (n : UInt64) :
    (∀ checks, (∃ r, integerSqrt checks n = some r ∧ IsRoot n.toNat r.toNat) ∧
      ∀ config : SignatureWindowConfig, ∃ window, config.windowForSize checks n = some window ∧
        1 ≤ window.toNat ∧ window.toNat =
          min (max n.toNat.sqrt config.normalized.min.toNat) config.normalized.max.toNat) ↔
      n ≠ 18446744073709551615 := by
  constructor
  · intro roots same
    obtain ⟨r, found, -⟩ := (roots true).1
    rw [same] at found
    cases (integerSqrt_max true).symm.trans found
  · intro differs checks
    have room : n.toNat + 1 < 2 ^ 64 := by
      have bound := n.toNat_lt
      have below : n.toNat ≠ 18446744073709551615 := fun same => differs (UInt64.toNat_inj.mp same)
      omega
    obtain ⟨r, found, value⟩ := @integerSqrt_eq checks n room
    exact ⟨⟨r, found, value ▸ isRoot_sqrt _⟩, windowForSize_eq checks room⟩

/-- A file of the largest size has no window: the root of its size stops the program. -/
theorem integerSqrt_isRoot_max :
    ¬ (∃ r, integerSqrt true 18446744073709551615 = some r ∧ IsRoot 18446744073709551615 r.toNat) ∧
    ¬ (∃ r, integerSqrt false 18446744073709551615 = some r ∧
      IsRoot 18446744073709551615 r.toNat) := by
  constructor
  · intro root
    obtain ⟨r, found, -⟩ := root
    cases (integerSqrt_max true).symm.trans found
  · intro root
    obtain ⟨r, found, -⟩ := root
    cases (integerSqrt_max false).symm.trans found

end Duet
