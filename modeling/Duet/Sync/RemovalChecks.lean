import Duet.Sync.RemovalBlockers

/-!
# What the checks before a removal accept

The removal policy excludes what a hard exclude or the governing rule of the scanner
excludes (`isExcluded_iff`). A directory may be pruned when everything in it is selected
and can be deleted from the base's device (`Clear`), and the preflight accepts a plan
when every entry that is left in a removed directory may be pruned.
-/

namespace Duet

open Lib

/-! ## Excluded paths -/

/-- Of the prefixes of a path that have a rule, the longest has an exclude as its last
rule. -/
def RuledOut (locations : Locations) (p : Path) : Prop :=
  ∃ q l, q <+: p ∧ lastRule q locations = some l ∧ l.isExclude = true ∧
    ∀ q', q' <+: p → (lastRule q' locations).isSome → q'.length ≤ q.length

theorem curDir_notMem_canonical (path : Path) : .curDir ∉ canonicalRelativePath path := by
  have run : ∀ (path canonical : Path), .curDir ∉ canonical →
      .curDir ∉ path.foldl (fun canonical component =>
        if component = .curDir then canonical else canonical.join [component]) canonical := by
    intro path
    induction path with
    | nil => exact fun canonical kept => kept
    | cons c path ih =>
      intro canonical kept
      refine ih _ ?_
      dsimp only
      split
      · exact kept
      · rename_i other
        have single : Component.curDir ∉ [c] := by
          simpa [eq_comm] using other
        unfold Path.join
        split
        · exact single
        · simp [kept, eq_comm, other]
  exact run path [] List.not_mem_nil

section Rules

variable {p : Path} {rules : Locations}

/-- A step of the search keeps the rule that it has or takes the next one. -/
theorem moreSpecific_cases (best : Option Location) (l : Location) :
    moreSpecific p best l = best ∨
      locationApplies l.path p = true ∧ moreSpecific p best l = some l := by
  unfold moreSpecific
  split
  · rename_i applies
    cases best with
    | none => exact .inr ⟨applies, rfl⟩
    | some best =>
      dsimp only
      split
      · exact .inr ⟨applies, rfl⟩
      · exact .inl rfl
  · exact .inl rfl

/-- After a step no applicable rule exceeds the best one. -/
theorem moreSpecific_exceeds {best : Option Location} {l l' : Location}
    (candidate : best = some l' ∨ l' = l ∧ locationApplies l.path p = true) :
    ∃ b, moreSpecific p best l = some b ∧ pathSpecificity l'.path ≤ pathSpecificity b.path := by
  unfold moreSpecific
  rcases candidate with rfl | ⟨rfl, applies⟩
  · split
    · dsimp only
      split
      · rename_i more
        exact ⟨l, rfl, Nat.le_of_lt more⟩
      · exact ⟨l', rfl, Nat.le_refl _⟩
    · exact ⟨l', rfl, Nat.le_refl _⟩
  · rw [if_pos applies]
    cases best with
    | none => exact ⟨l', rfl, Nat.le_refl _⟩
    | some best =>
      dsimp only
      split
      · exact ⟨l', rfl, Nat.le_refl _⟩
      · rename_i notMore
        exact ⟨best, rfl, Nat.le_of_not_lt notMore⟩

/-- The search ends with an applicable rule that no other one exceeds. -/
theorem foldl_moreSpecific (rules : Locations) :
    (∀ best, rules.foldl (moreSpecific p) none = some best →
        best ∈ rules ∧ locationApplies best.path p = true) ∧
      ∀ l ∈ rules, locationApplies l.path p = true →
        ∃ best, rules.foldl (moreSpecific p) none = some best ∧
          pathSpecificity l.path ≤ pathSpecificity best.path := by
  induction rules using List.reverseRecOn with
  | nil => exact ⟨nofun, fun l mem => absurd mem List.not_mem_nil⟩
  | append_singleton rules next ih =>
    obtain ⟨found, exceeds⟩ := ih
    rw [List.foldl_append, List.foldl_cons, List.foldl_nil]
    constructor
    · intro best isBest
      rcases moreSpecific_cases (rules.foldl (moreSpecific p) none) next with same | ⟨applies, taken⟩
      · rw [same] at isBest
        obtain ⟨mem, applies⟩ := found best isBest
        exact ⟨List.mem_append_left _ mem, applies⟩
      · rw [taken] at isBest
        cases isBest
        exact ⟨by simp, applies⟩
    · intro l mem applies
      rcases List.mem_append.mp mem with earlier | last
      · obtain ⟨best, isBest, less⟩ := exceeds l earlier applies
        obtain ⟨best', isBest', less'⟩ := moreSpecific_exceeds (l := next) (.inl isBest)
        exact ⟨best', isBest', less.trans less'⟩
      · rw [List.mem_singleton.mp last] at applies ⊢
        exact moreSpecific_exceeds (.inr ⟨rfl, applies⟩)

/-- A rule without a component for the current directory applies below its path, and is
as specific as its path is long. -/
theorem applies_of_canonical {location : Path} (canonical : .curDir ∉ location) :
    (locationApplies location p = true ↔ location <+: p) ∧
      pathSpecificity location = location.length := by
  have notDot : location ≠ [.curDir] := by
    rintro rfl
    exact canonical List.mem_cons_self
  constructor
  · unfold locationApplies
    simp only [Bool.or_eq_true, decide_eq_true_eq, Path.startsWith_iff, List.isEmpty_iff]
    constructor
    · rintro (((rfl | dot) | rfl) | above)
      · exact List.nil_prefix
      · exact absurd dot notDot
      · exact List.prefix_refl _
      · exact above
    · exact .inr
  · unfold pathSpecificity
    split
    · rename_i root
      rcases root with rfl | dot
      · rfl
      · exact absurd dot notDot
    · rfl

variable {policy : RemovalBlockerPolicy} {locations : Locations}

/-- The removal policy excludes what a hard exclude or the governing rule excludes. -/
theorem isExcluded_iff (canonical : policy.locations = canonicalize locations) :
    policy.isExcluded p = true ↔
      (∃ exclude ∈ policy.excludes, exclude <+: p) ∨ RuledOut locations p := by
  obtain ⟨sorted, last⟩ := canonicalize_spec locations
  have isRule : ∀ l, l ∈ policy.locations ↔ lastRule l.path locations = some l := by
    intro l
    rw [canonical, ← last, sorted.lookup_eq_some]
    exact ⟨fun mem => ⟨mem, rfl⟩, And.left⟩
  have applies : ∀ l ∈ policy.locations, (locationApplies l.path p = true ↔ l.path <+: p) ∧
      pathSpecificity l.path = l.path.length := by
    intro l mem
    obtain ⟨-, source, -, rfl⟩ := exists_of_lastRule ((isRule l).mp mem)
    refine applies_of_canonical ?_
    rw [canonical_path]
    exact curDir_notMem_canonical source.path
  obtain ⟨found, exceeds⟩ := foldl_moreSpecific (p := p) policy.locations
  have longest : ∀ best, policy.locations.foldl (moreSpecific p) none = some best →
      ∀ q, q <+: p → (lastRule q locations).isSome → q.length ≤ best.path.length := by
    intro best isBest q above some
    obtain ⟨l, isLast⟩ := Option.isSome_iff_exists.mp some
    obtain ⟨rfl, -⟩ := exists_of_lastRule isLast
    have mem := (isRule l).mpr isLast
    obtain ⟨best', found', less⟩ := exceeds l mem ((applies l mem).1.mpr above)
    rw [isBest] at found'
    cases found'
    rwa [(applies l mem).2, (applies best (found best isBest).1).2] at less
  unfold RemovalBlockerPolicy.isExcluded
  by_cases hard : ∃ exclude ∈ policy.excludes, exclude <+: p
  · have any : (policy.excludes.any fun exclude => p.startsWith exclude) = true := by
      simpa [Path.startsWith_iff] using hard
    rw [if_pos any]
    exact ⟨fun _ => .inl hard, fun _ => rfl⟩
  · have none : ¬ (policy.excludes.any fun exclude => p.startsWith exclude) = true := by
      simpa [Path.startsWith_iff] using hard
    rw [if_neg none, or_iff_right hard]
    constructor
    · intro excluded
      cases isBest : policy.locations.foldl (moreSpecific p) .none with
      | none =>
        rw [isBest] at excluded
        cases excluded
      | some best =>
        rw [isBest] at excluded
        obtain ⟨mem, below⟩ := found best isBest
        exact ⟨best.path, best, (applies best mem).1.mp below, (isRule best).mp mem, excluded,
          longest best isBest⟩
    · rintro ⟨q, l, above, isLast, isExclude, longer⟩
      obtain ⟨rfl, -⟩ := exists_of_lastRule isLast
      have mem := (isRule l).mpr isLast
      obtain ⟨best, isBest, -⟩ := exceeds l mem ((applies l mem).1.mpr above)
      obtain ⟨bestMem, below⟩ := found best isBest
      have bestAbove := (applies best bestMem).1.mp below
      have bestLast := (isRule best).mp bestMem
      -- both rules are for the longest prefix that has one
      have length : best.path.length = l.path.length := by
        have atMost := longer best.path bestAbove (by rw [bestLast]; rfl)
        have atLeast := longest best isBest l.path above (by rw [isLast]; rfl)
        omega
      have same : best.path = l.path :=
        (List.prefix_of_prefix_length_le bestAbove above length.le).eq_of_length length
      rw [same, isLast] at bestLast
      cases bestLast
      rw [isBest]
      exact isExclude

end Rules

/-! ## Directories that may be pruned -/

/-- What lies at or below a path can be deleted: its directories are on the device of the
base and writable, and nothing strictly below the path is excluded. -/
structure Clear (policy : RemovalBlockerPolicy) (tree : DirectoryTree) (path : Path) : Prop where
  dirs : ∀ n ∈ tree.nodes, path <+: n.path → n.isDir = true →
    n.metadata.dev = tree.dev ∧ ownerWriteExecute n.metadata.mode = true
  selected : ∀ n ∈ tree.nodes, path <+: n.path → n.path ≠ path → policy.isExcluded n.path = false

section Clear

variable {policy : RemovalBlockerPolicy} {tree tree' : DirectoryTree} {path : Path}

/-- A tree with fewer entries can be deleted where the whole one can. -/
theorem Clear.mono (clear : Clear policy tree path) (fewer : ∀ n ∈ tree'.nodes, n ∈ tree.nodes)
    (dev : tree'.dev = tree.dev) : Clear policy tree' path :=
  ⟨fun n mem below isDir => dev ▸ clear.dirs n (fewer n mem) below isDir,
    fun n mem => clear.selected n (fewer n mem)⟩

end Clear

/-! ## Plans that the preflight accepts -/

/-- An entry that may be pruned. -/
structure Disposable (policy : RemovalBlockerPolicy) (tree : DirectoryTree) (child : Node) :
    Prop where
  pruned : policy.shouldPrune (policy.classify child.path) = true
  clear : child.isDir = true → Clear policy tree child.path

/-- The removed paths can be looked up, and what is left in removed directories may be
pruned. -/
structure Ready (policy : RemovalBlockerPolicy) (tree : DirectoryTree) (removedPaths : List Path) :
    Prop where
  joined : ∀ p ∈ removedPaths, safeJoin p = .ok (canonicalRelativePath p)
  inspected : ∀ p ∈ removedPaths, ∃ isDir,
    tree.isDirectoryWithoutFollowing (canonicalRelativePath p) = .ok isDir
  disposable : ∀ p ∈ removedPaths, ∀ child ∈ tree.readDir (canonicalRelativePath p),
    child.path ∉ removedPaths → Disposable policy tree child

section Ready

variable {policy : RemovalBlockerPolicy} {tree tree' : DirectoryTree} {removedPaths : List Path}

theorem safeJoin_eq_ok {p dirname : Path} (joined : safeJoin p = .ok dirname) :
    dirname = canonicalRelativePath p := by
  unfold safeJoin at joined
  split at joined
  · cases joined
    rfl
  · cases joined

theorem hasUnprunableBlockers_eq_false {report : ApplyPreflightReport} :
    report.hasUnprunableBlockers = false ↔ ∀ b ∈ report.blockers, b.prunable = true := by
  simp [ApplyPreflightReport.hasUnprunableBlockers]

/-- The report of a directory has prunable blockers only when its preflight succeeds. -/
theorem preflight_iff_collect {levels : Nat} {dirname : Path} :
    preflightRemovedDirectoryContents policy tree removedPaths levels dirname = .ok () ↔
      ∃ blockers, collectRemovedDirectoryBlockers policy tree removedPaths levels dirname =
        .ok blockers ∧ ∀ blocker ∈ blockers, blocker.prunable = true := by
  induction levels generalizing dirname with
  | zero =>
    refine ⟨fun _ => ⟨[], rfl, ?_⟩, fun _ => rfl⟩
    intro blocker mem
    cases mem
  | succ levels ih =>
    unfold preflightRemovedDirectoryContents collectRemovedDirectoryBlockers
    cases tree.openDir dirname with
    | error e => simp [bind, Except.bind]
    | ok children =>
      simp only [ok_bind]
      rw [forM_ok_iff_collect (P := fun blocker : RemovalBlocker => blocker.prunable = true)
        fun child _ => ?_]
      · constructor
        · rintro ⟨found, collected, good⟩
          exact ⟨found.flatten, by rw [collected]; rfl, good⟩
        · rintro ⟨blockers, collected, good⟩
          obtain ⟨found, each, flat⟩ := bind_eq_ok.mp collected
          cases flat
          exact ⟨found, each, good⟩
      · by_cases removed : removedPaths.contains child.path = true
        · rw [if_pos removed, if_pos removed]
          split
          · exact ih
          · simp
        · rw [if_neg removed, if_neg removed]
          by_cases pruned : policy.shouldPrune (policy.classify child.path) = true
          · cases preflightPrunableIgnoredPath policy tree child.path child.isDir with
            | error e => simp [pruned, bind, Except.bind]
            | ok => simp [pruned, bind, Except.bind, pure, Except.pure]
          · simp [pruned, pure, Except.pure]

/-- The preflight succeeds exactly when the report does and has prunable blockers only. -/
theorem preflight_iff_report :
    preflightRemovedDirectories policy tree removedPaths = .ok () ↔
      ∃ report, removalBlockerReport policy tree removedPaths = .ok report ∧
        report.hasUnprunableBlockers = false := by
  unfold preflightRemovedDirectories removalBlockerReport
  rw [forM_ok_iff_collect (P := fun blocker : RemovalBlocker => blocker.prunable = true)
    fun path _ => ?_]
  · constructor
    · rintro ⟨found, collected, good⟩
      exact ⟨⟨found.flatten⟩, by rw [collected]; rfl, hasUnprunableBlockers_eq_false.mpr good⟩
    · rintro ⟨report, collected, good⟩
      obtain ⟨found, each, flat⟩ := bind_eq_ok.mp collected
      cases flat
      exact ⟨found, each, hasUnprunableBlockers_eq_false.mp good⟩
  · cases safeJoin path with
    | error e => simp [bind, Except.bind]
    | ok dirname =>
      simp only [ok_bind]
      cases tree.isDirectoryWithoutFollowing dirname with
      | error e => simp [bind, Except.bind]
      | ok isDir =>
        cases isDir with
        | false => simp [bind, Except.bind, pure, Except.pure]
        | true => exact preflight_iff_collect

/-- A tree with fewer entries is ready when the whole one is. -/
theorem Ready.mono (ready : Ready policy tree removedPaths)
    (fewer : ∀ n ∈ tree'.nodes, n ∈ tree.nodes) (dev : tree'.dev = tree.dev) :
    Ready policy tree' removedPaths := by
  refine ⟨ready.joined, fun p mem => ?_, fun p mem child inside kept => ?_⟩
  · obtain ⟨isDir, inspected⟩ := ready.inspected p mem
    unfold DirectoryTree.isDirectoryWithoutFollowing at inspected ⊢
    cases found : tree'.entry? (canonicalRelativePath p) with
    | some node => exact ⟨node.isDir, rfl⟩
    | none =>
      refine ⟨false, if_neg fun blocked => ?_⟩
      -- a file above the path is above it in the whole tree
      obtain ⟨file, fileMem, isAbove⟩ := List.any_eq_true.mp blocked
      have there := fewer file fileMem
      rw [if_pos (List.any_eq_true.mpr ⟨file, there, isAbove⟩)] at inspected
      cases found' : tree.entry? (canonicalRelativePath p) with
      | none =>
        rw [found'] at inspected
        cases inspected
      | some node =>
        obtain ⟨nodeMem, path⟩ := DirectoryTree.entry?_eq_some.mp found'
        obtain ⟨above, isFile⟩ := (Bool.and_eq_true _ _).mp isAbove
        have leaf : file.isDir = false := by
          unfold Node.isDir
          unfold Node.isSpecial at isFile
          rcases (Bool.or_eq_true _ _).mp isFile with h | h
          · simp [of_decide_eq_true h]
          · simp [of_decide_eq_true h]
        have same := DirectoryTree.eq_of_leaf leaf there nodeMem
          (path ▸ Path.startsWith_iff.mp above)
        rw [DirectoryTree.entry?_eq_some.mpr ⟨fileMem, same ▸ path⟩] at found
        cases found
  · have childMem : child ∈ tree.readDir (canonicalRelativePath p) :=
      List.mem_filter.mpr ⟨fewer child (List.mem_filter.mp inside).1, (List.mem_filter.mp inside).2⟩
    obtain ⟨pruned, clear⟩ := ready.disposable p mem child childMem kept
    exact ⟨pruned, fun isDir => (clear isDir).mono fewer dev⟩

end Ready

end Duet
