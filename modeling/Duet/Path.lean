import Mathlib.Data.List.Infix
import Mathlib.Data.List.Lex
import Mathlib.Data.Prod.Lex
import Mathlib.Order.Lattice

/-!
# Paths

A path is the list of its components, which is how the program compares paths:
equality, `starts_with` and the order of `Path` all go component by component.
-/

namespace Duet

/-- The bytes of one file name. -/
abbrev Name := List UInt8

/-- One component of a path. -/
inductive Component where
  | rootDir
  | curDir
  | parentDir
  | normal (name : Name)
deriving DecidableEq, Repr

/-- Components are ordered by kind, and names by their bytes. -/
def Component.sortKey : Component → Nat ×ₗ List Nat
  | .rootDir => toLex (0, [])
  | .curDir => toLex (1, [])
  | .parentDir => toLex (2, [])
  | .normal name => toLex (3, name.map UInt8.toNat)

theorem Component.sortKey_injective : Function.Injective Component.sortKey := by
  intro a b same
  cases a <;> cases b <;> simp only [sortKey, toLex_inj, Prod.mk.injEq] at same <;> try rfl
  all_goals try omega
  next n m =>
    exact congrArg _ (List.map_injective_iff.mpr (fun _ _ => UInt8.toNat_inj.mp) same.2)

instance : LinearOrder Component := LinearOrder.lift' _ Component.sortKey_injective

/-- A path, as the list of its components. -/
abbrev Path := List Component

namespace Path

/-- `path.starts_with(base)`. -/
def startsWith (path base : Path) : Bool := base.isPrefixOf path

/-- `path.ancestors()`: the path itself, then its parents up to the empty path. -/
def ancestors (path : Path) : List Path := path.inits.reverse

theorem startsWith_iff {path base : Path} : path.startsWith base = true ↔ base <+: path := by
  simp [startsWith]

theorem startsWith_eq_false_iff {path base : Path} :
    path.startsWith base = false ↔ ¬ base <+: path := by
  rw [Bool.eq_false_iff, Ne, startsWith_iff]

theorem mem_ancestors {path p : Path} : p ∈ path.ancestors ↔ p <+: path := by
  simp [ancestors]

end Path

end Duet
