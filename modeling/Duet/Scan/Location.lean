import Duet.Lib.MergeUpdates
import Duet.Lib.PrefixOrder
import Duet.Path

/-!
# Rules

A profile selects paths by a list of include and exclude rules. `canonicalize` rewrites
their paths and keeps the last rule of each path, in path order. What decides about a
path is the rule of its longest prefix that has one (`governing`).
-/

namespace Duet

open Lib

/-- `base.join(path)`: an absolute path replaces the base. -/
def Path.join (base path : Path) : Path :=
  if path.head? = some .rootDir then path else base ++ path

inductive Location where
  | include (path : Path)
  | exclude (path : Path)
deriving DecidableEq

namespace Location

def path : Location → Path
  | .include path => path
  | .exclude path => path

def isInclude : Location → Bool
  | .include _ => true
  | .exclude _ => false

def isExclude (l : Location) : Bool := !l.isInclude

/-- The rule below a base directory. -/
def prefixWith (l : Location) (base : Path) : Location :=
  match l with
  | .include path => .include (base.join path)
  | .exclude path => .exclude (base.join path)

end Location

abbrev Locations := List Location

/-- Push the components one by one, without those that name the current directory. -/
def canonicalRelativePath (path : Path) : Path :=
  path.foldl (fun canonical component =>
    if component = .curDir then canonical else canonical.join [component]) []

def Location.canonical (l : Location) : Location :=
  if l.isInclude then .include (canonicalRelativePath l.path)
  else .exclude (canonicalRelativePath l.path)

/-- `winners.insert(path, canonical)` in a map that is kept as a sorted list. -/
def insertWinner (winners : Locations) (l : Location) : Locations :=
  mergeUpdates Location.path Location.path (fun l _ => some l) winners [l]

/-- Canonicalize relative rule paths and retain the last rule for each path. -/
def canonicalize (locations : Locations) : Locations :=
  locations.foldl (fun winners l => insertWinner winners l.canonical) []

/-- The rules below a base directory, as the scanner holds them. -/
def prefixedLocations (base : Path) (locations : Locations) : Locations :=
  (canonicalize locations).map fun l => l.prefixWith base

/-! ## The rule of a path -/

/-- The last rule in source order whose canonical path is `p`. -/
def lastRule (p : Path) (locations : Locations) : Option Location :=
  (locations.map Location.canonical).reverse.find? fun l => l.path = p

theorem canonical_path (l : Location) : l.canonical.path = canonicalRelativePath l.path := by
  unfold Location.canonical
  split <;> rfl

theorem insertWinner_spec {winners : Locations} (sorted : SortedBy Location.path winners)
    (l : Location) :
    SortedBy Location.path (insertWinner winners l) ∧
      ∀ p, lookup Location.path p (insertWinner winners l) =
        if l.path = p then some l else lookup Location.path p winners := by
  have single : SortedBy Location.path [l] := List.pairwise_singleton _ _
  have keeps : KeepsKey Location.path Location.path (fun l _ => some l) [l] := by
    intro u _ _ _ _ out
    cases out
    rfl
  refine ⟨sorted.mergeUpdates single keeps, fun p => ?_⟩
  rw [insertWinner, lookup_mergeUpdates sorted single keeps, lookup_cons]
  split <;> rfl

/-- The canonical rules are sorted, and hold at each path the last rule of that path. -/
theorem canonicalize_spec (locations : Locations) :
    SortedBy Location.path (canonicalize locations) ∧
      ∀ p, lookup Location.path p (canonicalize locations) = lastRule p locations := by
  have run : ∀ (locations winners : Locations), SortedBy Location.path winners →
      SortedBy Location.path
          (locations.foldl (fun winners l => insertWinner winners l.canonical) winners) ∧
        ∀ p, lookup Location.path p
            (locations.foldl (fun winners l => insertWinner winners l.canonical) winners) =
          (lastRule p locations).or (lookup Location.path p winners) := by
    intro locations
    induction locations with
    | nil => exact fun winners sorted => ⟨sorted, fun p => rfl⟩
    | cons l locations ih =>
      intro winners sorted
      obtain ⟨sorted', inserted⟩ := insertWinner_spec sorted l.canonical
      obtain ⟨sortedAll, found⟩ := ih _ sorted'
      refine ⟨sortedAll, fun p => ?_⟩
      rw [List.foldl_cons, found, inserted]
      simp only [lastRule, List.map_cons, List.reverse_cons, List.find?_append, List.find?_cons,
        List.find?_nil, Option.or_assoc]
      by_cases here : l.canonical.path = p <;> simp [here]
  obtain ⟨sorted, found⟩ := run locations [] .nil
  exact ⟨sorted, fun p => by rw [canonicalize, found, lookup_nil, Option.or_none]⟩

/-- A path is relative when it has no root component. -/
def Path.Relative (path : Path) : Prop := .rootDir ∉ path

instance (path : Path) : Decidable path.Relative := inferInstanceAs (Decidable (¬ _))

theorem Path.Relative.join {path : Path} (relative : path.Relative) (base : Path) :
    base.join path = base ++ path := by
  refine if_neg fun head => relative ?_
  exact List.mem_of_mem_head? head

theorem canonicalRelativePath_eq {path : Path} (relative : path.Relative) :
    canonicalRelativePath path = path.filter fun c => c ≠ .curDir := by
  have run : ∀ (path canonical : Path), path.Relative →
      path.foldl (fun canonical component =>
        if component = .curDir then canonical else canonical.join [component]) canonical =
      canonical ++ path.filter fun c => c ≠ .curDir := by
    intro path
    induction path with
    | nil => simp
    | cons c path ih =>
      intro canonical relative
      have single : Path.Relative [c] := fun mem =>
        relative (List.mem_cons.mpr (.inl (List.mem_singleton.mp mem)))
      have rest : Path.Relative path := fun mem => relative (List.mem_cons_of_mem c mem)
      rw [List.foldl_cons, ih _ rest, single.join]
      by_cases here : c = .curDir <;> simp [here]
  rw [canonicalRelativePath, run path [] relative, List.nil_append]

theorem relative_canonical {path : Path} (relative : path.Relative) :
    (canonicalRelativePath path).Relative := by
  rw [canonicalRelativePath_eq relative]
  exact fun mem => relative (List.mem_of_mem_filter mem)

/-- Every canonical rule comes from a rule of the list. -/
theorem exists_of_lastRule {p : Path} {locations : Locations} {l : Location}
    (found : lastRule p locations = some l) :
    l.path = p ∧ ∃ source ∈ locations, source.canonical = l := by
  have mem := List.mem_of_find?_eq_some found
  refine ⟨by simpa using List.find?_some found, ?_⟩
  simpa using mem

end Duet
