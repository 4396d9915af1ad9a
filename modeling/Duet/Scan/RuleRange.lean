import Duet.Scan.Scanner
import Mathlib.Data.List.GetD

/-!
# What the rule ranges mean

A range covers a directory when it holds exactly the rules at or below the directory
and its parent index the longest rule at or above it. Narrowing keeps this, because in
sorted rules those at or below a path are consecutive; and `find_parent` returns the rule
that governs a child.
-/

namespace Duet

open Lib

variable {locations : Locations} {path : Path}

/-- `l` is the rule of the longest prefix of `path` that has a rule. -/
structure Governs (locations : Locations) (path : Path) (l : Location) : Prop where
  mem : l ∈ locations
  above : l.path <+: path
  longest : ∀ l' ∈ locations, l'.path <+: path → l'.path.length ≤ l.path.length

/-- Sorted rules have one governing rule at most. -/
theorem Governs.unique (sorted : SortedBy Location.path locations) {l l' : Location}
    (h : Governs locations path l) (h' : Governs locations path l') : l = l' := by
  have sameLength : l.path.length = l'.path.length :=
    le_antisymm (h'.longest l h.mem h.above) (h.longest l' h'.mem h'.above)
  have samePath : l.path = l'.path := by
    refine (List.prefix_of_prefix_length_le h.above h'.above sameLength.le).eq_of_length sameLength
  have found := sorted.lookup_of_mem h.mem
  rw [samePath, sorted.lookup_of_mem h'.mem] at found
  exact (Option.some_inj.mp found).symm

/-- Below a path either its own rule still governs or one below the path does. -/
theorem Governs.below (sorted : SortedBy Location.path locations) {path' : Path}
    {l l' : Location} (h : Governs locations path l) (h' : Governs locations path' l')
    (isBelow : path <+: path') : l' = l ∨ path <+: l'.path ∧ l'.path ≠ path := by
  by_cases above : l'.path <+: path
  · refine .inl (Governs.unique sorted ⟨h'.mem, above, ?_⟩ h)
    exact fun l'' mem above' => h'.longest l'' mem (above'.trans isBelow)
  · rcases List.prefix_or_prefix_of_prefix h'.above isBelow with isAbove | after
    · exact absurd isAbove above
    · exact .inr ⟨after, fun same => above (same ▸ List.prefix_rfl)⟩

theorem ruleAt_mem {i : Nat} (inside : i < locations.length) :
    ruleAt locations i ∈ locations := by
  rw [ruleAt, List.getD_eq_getElem _ _ inside]
  exact List.getElem_mem inside

theorem exists_ruleAt {l : Location} (mem : l ∈ locations) :
    ∃ i, i < locations.length ∧ ruleAt locations i = l := by
  obtain ⟨i, inside, rfl⟩ := List.mem_iff_getElem.mp mem
  exact ⟨i, inside, List.getD_eq_getElem _ _ inside⟩

/-- Rules are sorted by index. -/
theorem ruleAt_lt (sorted : SortedBy Location.path locations) {i j : Nat} (less : i < j)
    (inside : j < locations.length) :
    (ruleAt locations i).path < (ruleAt locations j).path := by
  rw [ruleAt, ruleAt, List.getD_eq_getElem _ _ inside,
    List.getD_eq_getElem _ _ (less.trans inside)]
  exact List.pairwise_iff_getElem.mp sorted i j (less.trans inside) inside less

/-- Rules between two rules at or below a path lie there too. -/
theorem isBelow_between (sorted : SortedBy Location.path locations) {i j k : Nat}
    (first : path <+: (ruleAt locations i).path) (last : path <+: (ruleAt locations k).path)
    (left : i ≤ j) (right : j ≤ k) (inside : k < locations.length) :
    path <+: (ruleAt locations j).path := by
  have monotone : ∀ {i j : Nat}, i ≤ j → j < locations.length →
      (ruleAt locations i).path ≤ (ruleAt locations j).path := by
    intro i j le inside
    rcases le.eq_or_lt with rfl | less
    · exact le_refl _
    · exact (ruleAt_lt sorted less inside).le
  exact prefix_of_le_of_le first last (monotone left (right.trans_lt inside))
    (monotone right inside)

/-! ## The loops -/

theorem skipForeign_spec (locations : Locations) (path : Path) (from_ to_ : Nat) :
    from_ ≤ skipForeign locations path from_ to_ ∧
      (∀ i, from_ ≤ i → i < skipForeign locations path from_ to_ →
        ¬ path <+: (ruleAt locations i).path) ∧
      (skipForeign locations path from_ to_ ≤ to_ →
        path <+: (ruleAt locations (skipForeign locations path from_ to_)).path) := by
  fun_induction skipForeign locations path from_ to_ with
  | case1 from_ more ih =>
    obtain ⟨after, foreign, below⟩ := ih
    refine ⟨by omega, ?_, below⟩
    intro i lower upper
    rcases lower.eq_or_lt with rfl | lower
    · simpa [Path.startsWith_iff] using more.2
    · exact foreign i lower upper
  | case2 from_ stop =>
    refine ⟨le_refl _, fun i lower upper => by omega, ?_⟩
    intro inside
    by_contra foreign
    exact stop ⟨inside, by simpa [Path.startsWith_iff] using foreign⟩

theorem extendTo_spec (locations : Locations) (path : Path) (to_ parentTo : Nat) :
    to_ ≤ extendTo locations path to_ parentTo ∧
      (to_ ≤ parentTo → extendTo locations path to_ parentTo ≤ parentTo) ∧
      (∀ i, to_ < i → i ≤ extendTo locations path to_ parentTo →
        path <+: (ruleAt locations i).path) ∧
      (extendTo locations path to_ parentTo < parentTo →
        ¬ path <+: (ruleAt locations (extendTo locations path to_ parentTo + 1)).path) := by
  fun_induction extendTo locations path to_ parentTo with
  | case1 to_ more ih =>
    obtain ⟨after, within, below, stops⟩ := ih
    refine ⟨by omega, fun _ => within more.1, ?_, stops⟩
    intro i lower upper
    rcases Nat.eq_or_lt_of_le (Nat.succ_le_of_lt lower) with rfl | lower
    · exact Path.startsWith_iff.mp more.2
    · exact below i lower upper
  | case2 to_ stop =>
    refine ⟨le_refl _, id, fun i lower upper => by omega, ?_⟩
    intro inside below
    exact stop ⟨inside, Path.startsWith_iff.mpr below⟩

theorem findRule_spec (path : Path) (locations : Locations) (parent from_ to_ : Nat) :
    (∃ i, from_ ≤ i ∧ i ≤ to_ ∧ i < locations.length ∧ (ruleAt locations i).path = path ∧
        findRule path locations parent from_ to_ = ruleAt locations i) ∨
      (∀ i, from_ ≤ i → i ≤ to_ → i < locations.length → (ruleAt locations i).path ≠ path) ∧
        findRule path locations parent from_ to_ = ruleAt locations parent := by
  fun_induction findRule path locations parent from_ to_ with
  | case1 from_ inside here => exact .inl ⟨from_, le_refl _, inside.1, inside.2, here, rfl⟩
  | case2 from_ inside elsewhere ih =>
    rcases ih with ⟨i, lower, upper, within, here, eq⟩ | ⟨nowhere, eq⟩
    · exact .inl ⟨i, by omega, upper, within, here, eq⟩
    · refine .inr ⟨?_, eq⟩
      intro i lower upper within
      rcases lower.eq_or_lt with rfl | lower
      · exact elsewhere
      · exact nowhere i lower upper within
  | case3 from_ outside =>
    exact .inr ⟨fun i lower upper within => absurd ⟨by omega, by omega⟩ outside, rfl⟩

/-! ## Covering -/

/-- A range covers a directory. -/
structure Covers (locations : Locations) (dir : Path) (pft : ParentFromTo) : Prop where
  inside : pft.from_ ≤ pft.to_ → pft.to_ < locations.length
  range : ∀ i, i < locations.length →
    (pft.from_ ≤ i ∧ i ≤ pft.to_ ↔ dir <+: (ruleAt locations i).path)
  parentInside : pft.parent < locations.length
  governs : Governs locations dir (ruleAt locations pft.parent)

variable {dir : Path} {pft : ParentFromTo}

/-- No rule lies strictly between a directory and a path below it, as for the directory
itself and for its children. -/
def Adjacent (locations : Locations) (dir path : Path) : Prop :=
  dir <+: path ∧ ∀ l ∈ locations, dir <+: l.path → l.path <+: path → l.path = dir ∨ l.path = path

theorem Adjacent.refl (locations : Locations) (dir : Path) : Adjacent locations dir dir :=
  ⟨List.prefix_rfl, fun _ _ below above => .inl ((below.eq_of_length_le above.length_le).symm)⟩

theorem Adjacent.child (locations : Locations) (dir : Path) (c : Component) :
    Adjacent locations dir (dir ++ [c]) := by
  refine ⟨List.prefix_append _ _, ?_⟩
  intro l _ below above
  have longer := below.length_le
  have shorter := above.length_le
  rw [List.length_append, List.length_singleton] at shorter
  by_cases same : l.path.length = dir.length
  · exact .inl (below.eq_of_length same.symm).symm
  · refine .inr (above.eq_of_length ?_)
    rw [List.length_append, List.length_singleton]
    omega

/-- A rule that governs a directory governs what is adjacent to it and has no rule. -/
theorem Governs.of_adjacent {l : Location} (h : Governs locations dir l)
    (adjacent : Adjacent locations dir path) (none : ∀ l' ∈ locations, l'.path ≠ path) :
    Governs locations path l := by
  refine ⟨h.mem, h.above.trans adjacent.1, ?_⟩
  intro l' mem above
  rcases List.prefix_or_prefix_of_prefix above adjacent.1 with before | after
  · exact h.longest l' mem before
  · rcases adjacent.2 l' mem after above with here | here
    · exact h.longest l' mem (here ▸ List.prefix_rfl)
    · exact absurd here (none l' mem)

/-- A rule for a path itself governs it. -/
theorem governs_self {l : Location} (mem : l ∈ locations) (here : l.path = path) :
    Governs locations path l :=
  ⟨mem, here ▸ List.prefix_rfl, fun _ _ above => here ▸ above.length_le⟩

/-- The narrowed range holds exactly the rules at or below the path. -/
theorem Covers.narrow_range (sorted : SortedBy Location.path locations)
    (covers : Covers locations dir pft) (below : dir <+: path) :
    let narrowed := narrowParentFromTo pft path locations
    (narrowed.from_ ≤ narrowed.to_ → narrowed.to_ < locations.length) ∧
      ∀ i, i < locations.length →
        (narrowed.from_ ≤ i ∧ i ≤ narrowed.to_ ↔ path <+: (ruleAt locations i).path) := by
  intro narrowed
  obtain ⟨after, foreign, first⟩ := skipForeign_spec locations path pft.from_ pft.to_
  obtain ⟨starts, within, consecutive, stops⟩ :=
    extendTo_spec locations path (skipForeign locations path pft.from_ pft.to_) pft.to_
  have inOuter : ∀ i, i < locations.length → path <+: (ruleAt locations i).path →
      narrowed.from_ ≤ i ∧ i ≤ pft.to_ := by
    intro i inside isBelow
    obtain ⟨lower, upper⟩ := (covers.range i inside).mpr (below.trans isBelow)
    refine ⟨?_, upper⟩
    by_contra before
    exact foreign i lower (not_le.mp before) isBelow
  by_cases found : narrowed.from_ ≤ pft.to_
  · have toEq : narrowed.to_ = extendTo locations path narrowed.from_ pft.to_ := if_pos found
    have toLe : narrowed.to_ ≤ pft.to_ := toEq ▸ within found
    have outerInside : pft.to_ < locations.length := covers.inside (after.trans found)
    refine ⟨fun _ => toLe.trans_lt outerInside, fun i inside => ⟨?_, ?_⟩⟩
    · rintro ⟨lower, upper⟩
      rcases lower.eq_or_lt with rfl | lower
      · exact first found
      · exact consecutive i lower (toEq ▸ upper)
    · intro isBelow
      obtain ⟨lower, upper⟩ := inOuter i inside isBelow
      refine ⟨lower, ?_⟩
      by_contra beyond
      have next : narrowed.to_ + 1 ≤ i := not_le.mp beyond
      refine stops (toEq ▸ next.trans upper) ?_
      change path <+: (ruleAt locations (extendTo locations path narrowed.from_ pft.to_ + 1)).path
      rw [← toEq]
      have fromLe : narrowed.from_ ≤ narrowed.to_ := toEq ▸ starts
      exact isBelow_between sorted (first found) isBelow (fromLe.trans (Nat.le_succ _)) next inside
  · have toEq : narrowed.to_ = pft.to_ := if_neg found
    refine ⟨fun some => absurd (toEq ▸ some) found, fun i inside => ⟨?_, ?_⟩⟩
    · rintro ⟨lower, upper⟩
      exact absurd (lower.trans (toEq ▸ upper)) found
    · intro isBelow
      obtain ⟨lower, upper⟩ := inOuter i inside isBelow
      exact absurd (lower.trans upper) found

/-- Narrowing a range that covers a directory covers what is adjacent to it. -/
theorem Covers.narrow (sorted : SortedBy Location.path locations)
    (covers : Covers locations dir pft) (adjacent : Adjacent locations dir path) :
    Covers locations path (narrowParentFromTo pft path locations) := by
  obtain ⟨inside, range⟩ := covers.narrow_range sorted adjacent.1
  let narrowed := narrowParentFromTo pft path locations
  by_cases own : narrowed.from_ ≤ narrowed.to_ ∧ (ruleAt locations narrowed.from_).path = path
  · have parentEq : narrowed.parent = narrowed.from_ := if_pos own
    have parentInside : narrowed.parent < locations.length :=
      parentEq ▸ own.1.trans_lt (inside own.1)
    refine ⟨inside, range, parentInside, ?_⟩
    exact governs_self (ruleAt_mem parentInside) (parentEq ▸ own.2)
  · have parentEq : narrowed.parent = pft.parent := if_neg own
    refine ⟨inside, range, parentEq ▸ covers.parentInside, ?_⟩
    change Governs locations path (ruleAt locations narrowed.parent)
    rw [parentEq]
    refine covers.governs.of_adjacent adjacent ?_
    intro l mem here
    obtain ⟨i, iInside, rfl⟩ := exists_ruleAt mem
    obtain ⟨lower, upper⟩ := (range i iInside).mpr (here ▸ List.prefix_rfl)
    -- the first rule of the range is the least one, and a rule for the path itself is least
    have least : path ≤ (ruleAt locations narrowed.from_).path := by
      have firstInside : narrowed.from_ < locations.length := lower.trans_lt iInside
      exact le_of_isPrefix ((range _ firstInside).mp ⟨le_refl _, lower.trans upper⟩)
    rcases lower.eq_or_lt with first | later
    · exact own ⟨lower.trans upper, first ▸ here⟩
    · have less := ruleAt_lt sorted later iInside
      rw [here] at less
      exact absurd (less.trans_le least) (lt_irrefl _)

/-- `find_parent` returns the rule that governs what is adjacent to the directory. -/
theorem Covers.governs_findParent (covers : Covers locations dir pft)
    (adjacent : Adjacent locations dir path) :
    Governs locations path (findParent path locations pft) := by
  rcases findRule_spec path locations pft.parent pft.from_ pft.to_ with
    ⟨i, -, -, within, here, eq⟩ | ⟨nowhere, eq⟩
  · rw [findParent, eq]
    exact governs_self (ruleAt_mem within) here
  · rw [findParent, eq]
    refine covers.governs.of_adjacent adjacent ?_
    intro l mem here
    obtain ⟨i, inside, rfl⟩ := exists_ruleAt mem
    have inRange := (covers.range i inside).mpr (here ▸ adjacent.1)
    exact nowhere i inRange.1 inRange.2 inside here

/-- The range of a path holds an include below it exactly if there is one. -/
theorem Covers.hasDescendantIncludes_iff (covers : Covers locations path pft) :
    hasDescendantIncludes locations path pft = true ↔
      ∃ l ∈ locations, l.isInclude = true ∧ path <+: l.path ∧ l.path ≠ path := by
  simp only [hasDescendantIncludes, List.any_eq_true, List.mem_range'_1, Bool.and_eq_true,
    decide_eq_true_eq]
  constructor
  · rintro ⟨i, ⟨lower, upper⟩, isInclude, elsewhere⟩
    have some : pft.from_ ≤ pft.to_ := by omega
    have inside : i < locations.length := by
      have := covers.inside some
      omega
    have isBelow := (covers.range i inside).mp ⟨lower, by omega⟩
    exact ⟨_, ruleAt_mem inside, isInclude, isBelow, elsewhere⟩
  · rintro ⟨l, mem, isInclude, isBelow, elsewhere⟩
    obtain ⟨i, inside, rfl⟩ := exists_ruleAt mem
    obtain ⟨lower, upper⟩ := (covers.range i inside).mpr isBelow
    exact ⟨i, ⟨lower, by omega⟩, isInclude, elsewhere⟩

end Duet
