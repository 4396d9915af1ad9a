import Duet.Orchestrator.Sync

/-!
# Scopes

A synchronization may be restricted to a path and may exclude others. What lies outside of
its scope is neither reported nor planned, and every snapshot keeps it: it goes through the
replacement of the scope, the merges and the saves of any number of synchronizations.
-/

namespace Duet

open Lib

/-! ## Compaction -/

namespace ScanScope

variable {excludes compacted : List Path} {exclude p : Path}

/-- An exclude that is dropped is covered by the one above it. -/
theorem any_compact : (compact compacted exclude).any (p.startsWith ·) =
    (compacted.any (p.startsWith ·) || p.startsWith exclude) := by
  unfold compact
  split
  · next covered =>
    obtain ⟨ancestor, mem, above⟩ := List.any_eq_true.mp covered
    cases below : p.startsWith exclude with
    | false => rw [Bool.or_false]
    | true =>
      rw [Bool.or_true, List.any_eq_true]
      have chain : ancestor <+: p :=
        (Path.startsWith_iff.mp above).trans (Path.startsWith_iff.mp below)
      exact ⟨ancestor, mem, Path.startsWith_iff.mpr chain⟩
  · rw [List.any_append, List.any_cons, List.any_nil, Bool.or_false]

theorem any_foldl_compact : (excludes.foldl compact compacted).any (p.startsWith ·) =
    (compacted.any (p.startsWith ·) || excludes.any (p.startsWith ·)) := by
  induction excludes generalizing compacted with
  | nil => rw [List.foldl_nil, List.any_nil, Bool.or_false]
  | cons exclude rest ih => rw [List.foldl_cons, ih, any_compact, List.any_cons, Bool.or_assoc]

theorem any_destutter' : (rest : List Path) → (exclude : Path) →
    (rest.destutter' (fun a b => a ≠ b) exclude).any (p.startsWith ·) =
      (exclude :: rest).any (p.startsWith ·)
  | [], exclude => rfl
  | next :: rest, exclude => by
    by_cases same : exclude = next
    · subst same
      rw [List.destutter'_cons_neg _ (by simp), any_destutter' rest exclude]
      simp
    · rw [List.destutter'_cons_pos _ same, List.any_cons, any_destutter' rest next]
      rfl

/-- A scope excludes what the list excludes that it was built from. -/
theorem isExcluded_new {restrict : Path} :
    (ScanScope.new restrict excludes).isExcluded p = excludes.any (p.startsWith ·) := by
  have sorted : (excludes.mergeSort fun a b => a ≤ b).any (p.startsWith ·) =
      excludes.any (p.startsWith ·) := (List.mergeSort_perm _ _).any_eq
  unfold ScanScope.new isExcluded
  rw [any_foldl_compact, List.any_nil, Bool.false_or, ← sorted]
  cases excludes.mergeSort fun a b => a ≤ b with
  | nil => rfl
  | cons exclude rest => exact any_destutter' rest exclude

/-- The paths of a scope: at or below the restriction, and not at or below an exclude. -/
theorem selected_new {restrict : Path} : (ScanScope.new restrict excludes).selected p = true ↔
    restrict <+: p ∧ ∀ exclude ∈ excludes, ¬ exclude <+: p := by
  unfold selected
  rw [isExcluded_new, Bool.and_eq_true, Bool.not_eq_true', List.any_eq_false]
  simp only [Path.startsWith_iff]
  rfl

end ScanScope

/-! ## Reports -/

/-- A report names only paths of the scope, in order. -/
structure ReportScoped (scope : ScanScope) (context : State.ScanContext) : Prop where
  sortedChanges : SortedBy Change.path context.changes
  sortedCurrent : SortedEntries context.current
  changes : ∀ c ∈ context.changes, scope.selected c.path = true
  current : ∀ e ∈ context.current, scope.selected e.path = true

section Report

variable {hash : ContentHash} {scope : ScanScope} {loaded : LoadedEntries} {scanned : Entries}
  {strong : Bool} {context : State.ScanContext} {p : Path}

/-- Nothing outside of a scope is found in its part of a manifest. -/
theorem entryAt_selectedEntries_outside (outside : scope.selected p = false) (entries : Entries) :
    entryAt p (selectedEntries scope entries) = none := by
  unfold entryAt
  rw [lookup_eq_none_iff]
  intro e mem here
  have inside := (List.mem_filter.mp mem).2
  rw [here, outside] at inside
  cases inside

theorem Compares.scoped (compares : Compares hash scope loaded scanned strong context) :
    ReportScoped scope context := by
  refine ⟨compares.sortedChanges, compares.sortedCurrent, ?_, ?_⟩
  · intro c mem
    by_contra outside
    have rel := compares.changeAt c.path
    have outside := Bool.eq_false_of_not_eq_true outside
    rw [entryAt_selectedEntries_outside outside, entryAt_selectedEntries_outside outside,
      changeOf_self, compares.sortedChanges.lookup_of_mem mem] at rel
    cases rel
  · intro e mem
    by_contra outside
    have rel := compares.currentAt e.path
    have outside := Bool.eq_false_of_not_eq_true outside
    have found : entryAt e.path context.current = some e := compares.sortedCurrent.lookup_of_mem mem
    rw [entryAt_selectedEntries_outside outside, found] at rel
    cases rel

/-- What is received of a report. -/
theorem ReportScoped.received (within : ReportScoped scope context) :
    ReportScoped scope (receiveChanges scope strong context) := by
  unfold receiveChanges
  split
  · exact within
  · have path : ∀ c : Change, c.toLegacy.toChange.path = c.path := by
      intro c
      cases c <;> rfl
    rw [List.map_map]
    refine ⟨within.sortedChanges.map fun c _ => path c, .nil, ?_, by simp⟩
    intro c mem
    obtain ⟨sent, inside, rfl⟩ := List.mem_map.mp mem
    rw [Function.comp_apply, path]
    exact within.changes sent inside

end Report

/-! ## Plans -/

/-- A plan names only paths of the scope, in order, and the other side's form of an action
has the same path. -/
structure PlanScoped (scope : ScanScope) (actions : Actions) : Prop where
  sorted : SortedBy Action.path actions
  selected : ∀ a ∈ actions, scope.selected a.path = true
  flip : ∀ a ∈ actions, a.flip.path = a.path

section Plan

variable {scope : ScanScope} {strong : Bool} {contextL contextR : State.ScanContext}
  {actions resolved : Actions} {choice : Path → Option Resolution} {a a' : Action} {p : Path}

theorem PlanScoped.sublist (within : PlanScoped scope actions) {part : Actions}
    (sub : part.Sublist actions) : PlanScoped scope part where
  sorted := within.sorted.sublist sub
  selected a mem := within.selected a (sub.subset mem)
  flip a mem := within.flip a (sub.subset mem)

/-- The planned actions of two reports. -/
theorem planScoped_plannedActions (left : ReportScoped scope contextL)
    (right : ReportScoped scope contextR) :
    PlanScoped scope (plannedActions strong contextL contextR) := by
  unfold plannedActions
  split
  · refine ⟨sorted_buildMigrationActions, ?_, ?_⟩
    · intro a mem
      obtain ⟨path, inside, made⟩ := List.mem_filterMap.mp mem
      have here : a.path = path := (migrationActions_keyed path inside a made)
      rw [here]
      rcases mem_migrationPaths.mp inside with found | found | found | found
      · obtain ⟨e, mem, rfl⟩ := lookup_isSome_iff.mp found
        exact left.current e mem
      · obtain ⟨e, mem, rfl⟩ := lookup_isSome_iff.mp found
        exact right.current e mem
      · obtain ⟨c, mem, rfl⟩ := lookup_isSome_iff.mp found
        exact left.changes c mem
      · obtain ⟨c, mem, rfl⟩ := lookup_isSome_iff.mp found
        exact right.changes c mem
    · intro a mem
      obtain ⟨path, inside, made⟩ := List.mem_filterMap.mp mem
      obtain ⟨here, there⟩ := migrationAction_path (fun _ found => key_of_lookup found)
        (fun _ found => key_of_lookup found) made
      rw [here, there]
  · have sorted : SortedBy Action.path (buildActions contextL.changes contextR.changes strong) :=
      sortedBy_buildActions left.sortedChanges right.sortedChanges
    have planned : ∀ a ∈ buildActions contextL.changes contextR.changes strong,
        scope.selected a.path = true ∧ a.flip.path = a.path := by
      intro a mem
      have origin := planned_of_mem_buildActions left.sortedChanges right.sortedChanges mem
      cases isL : lookup Change.path a.path contextL.changes with
      | some lc =>
        have keyed := key_of_lookup isL
        refine ⟨keyed ▸ left.changes lc (mem_of_lookup isL), ?_⟩
        cases isR : lookup Change.path a.path contextR.changes with
        | none =>
          rw [isL, isR] at origin
          cases origin
          rfl
        | some rc =>
          have keyedR := key_of_lookup isR
          rw [isL, isR] at origin
          cases origin with
          | identical _ _ _ | conflict _ _ _ => exact keyedR
      | none =>
        cases isR : lookup Change.path a.path contextR.changes with
        | none =>
          rw [isL, isR] at origin
          cases origin
        | some rc =>
          have keyedR := key_of_lookup isR
          rw [isL, isR] at origin
          refine ⟨keyedR ▸ right.changes rc (mem_of_lookup isR), ?_⟩
          cases origin
          rfl
    exact ⟨sorted, fun a mem => (planned a mem).1, fun a mem => (planned a mem).2⟩

/-- A resolved conflict keeps its path. -/
theorem path_of_resolveChosen (keeps : a.flip.path = a.path)
    (resolves : resolveChosen choice a = some a') : a'.path = a.path ∧ a'.flip.path = a.path := by
  rcases resolveChosen_cases resolves with
    rfl | ⟨lc, rc, rfl, ⟨c, toLocal, rfl⟩ | ⟨c, toRemote, rfl⟩⟩
  · exact ⟨rfl, keeps⟩
  · have keeps : rc.path = lc.path := keeps
    have path : c.path = lc.path := by
      cases lc <;> cases rc <;> cases toLocal <;> first | rfl | exact keeps
    exact ⟨path, path⟩
  · have keeps : rc.path = lc.path := keeps
    have path : c.path = lc.path := by
      cases lc <;> cases rc <;> cases toRemote <;> first | rfl | exact keeps
    exact ⟨path, path⟩

theorem PlanScoped.resolve (within : PlanScoped scope actions)
    (resolves : resolveConflicts choice actions = some resolved) : PlanScoped scope resolved := by
  have related : List.Forall₂ (fun a a' => a ∈ actions ∧ resolveChosen choice a = some a') actions
      resolved := (List.forall₂_and_left _ _).mpr ⟨fun _ mem => mem, forall₂_of_mapM_some resolves⟩
  have paths : ∀ a a', a ∈ actions ∧ resolveChosen choice a = some a' →
      a'.path = a.path ∧ a'.flip.path = a.path := fun a _ step =>
    path_of_resolveChosen (within.flip a step.1) step.2
  refine ⟨within.sorted.of_forall₂ related fun a a' step => (paths a a' step).1, ?_, ?_⟩
  · intro a' mem
    obtain ⟨a, -, step⟩ := exists_of_mem_right related mem
    rw [(paths a a' step).1]
    exact within.selected a step.1
  · intro a' mem
    obtain ⟨a, -, step⟩ := exists_of_mem_right related mem
    rw [(paths a a' step).1, (paths a a' step).2]

/-- What each side holds of a plan of the scope. -/
theorem PlanScoped.side (within : PlanScoped scope actions) (side : Side) :
    PlanScoped scope (sideActions strong actions side) := by
  have renamed : ∀ f : Action → Action, (∀ a ∈ actions, (f a).path = a.path) →
      (∀ a ∈ actions, (f a).flip.path = a.path) → PlanScoped scope (actions.map f) := by
    intro f path flip
    refine ⟨within.sorted.map path, ?_, ?_⟩
    · intro b mem
      obtain ⟨a, inside, rfl⟩ := List.mem_map.mp mem
      rw [path a inside]
      exact within.selected a inside
    · intro b mem
      obtain ⟨a, inside, rfl⟩ := List.mem_map.mp mem
      rw [path a inside, flip a inside]
  have legacy : ∀ a : Action, a.toLegacy.toAction.path = a.path ∧
      a.toLegacy.toAction.flip.path = a.flip.path := by
    have change : ∀ c : Change, c.toLegacy.toChange.path = c.path := by
      intro c
      cases c <;> rfl
    intro a
    cases a with
    | «local» c | remote c | resolvedLocal _ c | resolvedRemote _ c => exact ⟨change c, change c⟩
    | conflict l r | identical l r => exact ⟨change l, change r⟩
  cases side with
  | «local» => exact within
  | remote =>
    cases strong with
    | true => exact renamed Action.flip within.flip fun a _ => by rw [Action.flip_flip]
    | false =>
      have wired : sideActions false actions .remote =
          actions.map fun a => a.flip.toLegacy.toAction := by
        simp [sideActions, fromLegacy, toLegacy, reverse]
      rw [wired]
      apply renamed
      · intro a mem
        rw [(legacy a.flip).1, within.flip a mem]
      · intro a mem
        rw [(legacy a.flip).2, Action.flip_flip]

end Plan

/-! ## Merges and saves -/

/-- The entries of a manifest outside of a scope. -/
def outsideEntries (scope : ScanScope) (entries : Entries) : Entries :=
  entries.filter fun entry => !scope.selected entry.path

/-- A later manifest is in order and has the same entries outside of the scope. -/
structure Framed (scope : ScanScope) (before after : Entries) : Prop where
  sorted : SortedEntries after
  at_path : ∀ p, scope.selected p = false → entryAt p after = entryAt p before

section Merge

variable {scope : ScanScope} {before after current merged entries : Entries} {wave : Actions}
  {waves : List Actions} {ino : Path → UInt64} {p : Path}

theorem Framed.refl (sorted : SortedEntries entries) : Framed scope entries entries :=
  ⟨sorted, fun _ _ => rfl⟩

theorem Framed.trans (first : Framed scope before merged) (second : Framed scope merged after) :
    Framed scope before after :=
  ⟨second.sorted, fun p outside => (second.at_path p outside).trans (first.at_path p outside)⟩

theorem entryAt_outsideEntries (sorted : SortedEntries entries) :
    entryAt p (outsideEntries scope entries) =
      if scope.selected p then none else entryAt p entries := by
  unfold entryAt outsideEntries
  rw [sorted.lookup_filter]
  cases found : lookup DirEntryWithMeta.path p entries with
  | none => simp
  | some e => cases selected : scope.selected p <;> simp [Option.filter, key_of_lookup found, selected]

/-- The entries outside are the same, one by one and in the same order. -/
theorem Framed.outside (framed : Framed scope before after) (sorted : SortedEntries before) :
    outsideEntries scope after = outsideEntries scope before := by
  have sortedAfter : SortedEntries (outsideEntries scope after) :=
    framed.sorted.sublist List.filter_sublist
  have sortedBefore : SortedEntries (outsideEntries scope before) :=
    sorted.sublist List.filter_sublist
  apply SortedBy.ext sortedAfter sortedBefore
  intro p
  calc entryAt p (outsideEntries scope after)
      = if scope.selected p then none else entryAt p after := entryAt_outsideEntries framed.sorted
    _ = if scope.selected p then none else entryAt p before := by
        split
        · rfl
        · next outside => exact framed.at_path p (Bool.eq_false_of_not_eq_true outside)
    _ = entryAt p (outsideEntries scope before) := (entryAt_outsideEntries sorted).symm

theorem framed_replaceScope (sorted : SortedEntries before) (sortedC : SortedEntries current)
    (within : ∀ e ∈ current, scope.selected e.path = true) :
    Framed scope before (replaceScope before scope current) := by
  obtain ⟨sortedAfter, entries⟩ := replaceScope_spec sorted sortedC within
  refine ⟨sortedAfter, fun p outside => ?_⟩
  rw [entries, outside]
  rfl

/-- The merge of one wave. -/
theorem framed_mergeStagedManifest (sorted : SortedEntries before) (within : PlanScoped scope wave)
    (merges : mergeStagedManifest before wave (localResults ino wave) = .ok after) :
    Framed scope before after := by
  obtain ⟨sortedAfter, entries⟩ := mergeStagedManifest_frame sorted within.sorted path_of_localResult
    merges
  refine ⟨sortedAfter, fun p outside => entries p ?_⟩
  rw [lookup_eq_none_iff]
  intro a mem here
  have inside := within.selected a mem
  rw [here, outside] at inside
  cases inside

theorem framed_commitWaves (sorted : SortedEntries before)
    (within : ∀ wave ∈ waves, PlanScoped scope wave)
    (commits : commitWaves ino before waves = .ok after) : Framed scope before after := by
  induction waves generalizing before with
  | nil =>
    cases commits
    exact .refl sorted
  | cons wave waves ih =>
    obtain ⟨merged, here, rest⟩ := foldlM_cons_eq_ok.mp commits
    have first := framed_mergeStagedManifest sorted (within wave List.mem_cons_self) here
    exact first.trans (ih first.sorted (fun w mem => within w (List.mem_cons_of_mem _ mem)) rest)

end Merge

/-! ## Runs -/

/-- Synchronizations one after the other, each of them with its own scope and trees. -/
inductive SyncsInTurn : List SyncRun → Snapshots → Snapshots → Prop
  | done {saved} : SyncsInTurn [] saved saved
  | next {run runs saved result between saved'} (sync : Syncs run saved result between)
      (rest : SyncsInTurn runs between saved') : SyncsInTurn (run :: runs) saved saved'

/-- An entry as the snapshots after some runs have it. Only a run without strong digests
drops its digest. -/
def KeptBy (runs : List SyncRun) (before after : Option DirEntryWithMeta) : Prop :=
  after = before ∨
    (∃ run ∈ runs, run.strong = false) ∧ after = before.map DirEntryWithMeta.withoutDigest

section Runs

variable {run : SyncRun} {runs : List SyncRun} {saved saved' : Snapshots} {side : Side}
  {context : Side → State.ScanContext} {active : Actions} {waves : Side → List Actions}
  {after : Side → Entries} {result : Except SyncError SyncOutcome} {p : Path}

/-- The plan of a run stays in its scope. -/
theorem SyncRun.planScoped (sorted : saved.Sorted) (scans : run.ScansSorted)
    (reports : ∀ side, run.report saved side = .ok (context side))
    (decision : run.decide context = .ok (.apply active)) : PlanScoped run.scope active := by
  have within : ∀ side, ReportScoped run.scope (context side) := fun side =>
    (SyncRun.compares sorted scans (reports side)).scoped
  unfold SyncRun.decide at decision
  cases isDry : run.dryRun with
  | true =>
    rw [isDry] at decision
    obtain ⟨outcome, finished⟩ := decideSync_dryRun decision
    cases finished
  | false =>
    rw [isDry] at decision
    cases decided_of_decideSync decision with
    | plan nonempty resolves migrates valid =>
      have planned : PlanScoped run.scope (plannedActions run.strong (context .local)
          (receiveChanges run.scope run.strong (context .remote))) :=
        planScoped_plannedActions (within .local) (within .remote).received
      exact (planned.resolve resolves).sublist (filterUnresolved_sublist _)

theorem framed_baseline {migration : Bool} {context : State.ScanContext}
    (sorted : SortedEntries context.allOld) (within : ReportScoped run.scope context) :
    Framed run.scope context.allOld (baseline run.scope migration context side) := by
  have replaced : ∀ {old : Entries}, SortedEntries old →
      Framed run.scope old (replaceScope old run.scope context.current) := fun sorted =>
    framed_replaceScope sorted within.sortedCurrent within.current
  cases side with
  | «local» =>
    unfold baseline
    dsimp only
    split
    · exact replaced sorted
    · exact .refl sorted
  | remote =>
    have first : Framed run.scope context.allOld (if context.migrationNeeded then
        replaceScope context.allOld run.scope context.current else context.allOld) := by
      split
      · exact replaced sorted
      · exact .refl sorted
    unfold baseline
    dsimp only
    split
    · exact first.trans (replaced first.sorted)
    · exact first

/-- What a run merges on a side has the same entries outside of the scope. -/
theorem SyncRun.framed (sorted : saved.Sorted) (scans : run.ScansSorted)
    (reports : ∀ side, run.report saved side = .ok (context side))
    (decision : run.decide context = .ok (.apply active))
    (part : ∀ side, (waves side).flatten <+: active)
    (commits : ∀ side, commitWaves (run.ino side)
      (baseline run.scope (run.migration context) (context side) side)
      ((waves side).map fun wave => sideActions run.strong wave side) = .ok (after side))
    (side : Side) : Framed run.scope (saved.entries side) (after side) := by
  have compares := SyncRun.compares sorted scans (reports side)
  have plan := SyncRun.planScoped sorted scans reports decision
  have sortedOld : SortedEntries (context side).allOld := by
    rw [compares.allOld]
    exact sorted.entries side
  have start : Framed run.scope (saved.entries side)
      (baseline run.scope (run.migration context) (context side) side) := by
    have framed := @framed_baseline run side (run.migration context) _ sortedOld compares.scoped
    rw [compares.allOld] at framed
    exact framed
  refine start.trans (framed_commitWaves start.sorted ?_ (commits side))
  intro wave mem
  obtain ⟨wave, inside, rfl⟩ := List.mem_map.mp mem
  have sub : wave.Sublist active :=
    (List.sublist_flatten_of_mem inside).trans (part side).sublist
  exact (plan.sublist sub).side side

theorem stored_legacyV1 (entries : Entries) :
    SnapshotFormat.legacyV1.stored entries = entries.map DirEntryWithMeta.withoutDigest := by
  simp only [SnapshotFormat.stored, List.map_map]
  rfl

theorem sorted_stored {format : SnapshotFormat} {entries : Entries}
    (sorted : SortedEntries entries) : SortedEntries (format.stored entries) := by
  cases format with
  | v2 => exact sorted
  | legacyV1 =>
    rw [stored_legacyV1]
    exact sorted.map fun _ _ => rfl

/-- Saving drops digests, or nothing. -/
theorem entryAt_stored {strong : Bool} {entries : Entries} (sorted : SortedEntries entries) :
    entryAt p ((saveFormat strong).stored entries) =
      if strong then entryAt p entries
      else (entryAt p entries).map DirEntryWithMeta.withoutDigest := by
  cases strong with
  | true => rfl
  | false =>
    have stored : (saveFormat false).stored entries = entries.map DirEntryWithMeta.withoutDigest :=
      stored_legacyV1 entries
    rw [stored]
    exact sorted.lookup_map fun _ _ => rfl

/-- One run keeps the snapshots in order, and every entry outside of its scope. -/
theorem SyncRun.kept (sorted : saved.Sorted) (scans : run.ScansSorted)
    (sync : Syncs run saved result saved') :
    saved'.Sorted ∧ ∀ side p, run.scope.selected p = false →
      KeptBy [run] (entryAt p (saved.entries side)) (entryAt p (saved'.entries side)) := by
  cases sync with
  | stopped unsuccessful => exact ⟨sorted, fun _ _ _ => .inl rfl⟩
  | finished reports decision => exact ⟨sorted, fun _ _ _ => .inl rfl⟩
  | @applied context active waves entries _ reports decision part complete commits =>
    have framed := SyncRun.framed sorted scans reports decision part commits
    constructor
    · intro side loaded isLoaded
      unfold SyncRun.saves at isLoaded
      split at isLoaded
      · exact sorted side loaded isLoaded
      · cases isLoaded
        exact sorted_stored (framed side).sorted
    · intro side p outside
      have same := (framed side).at_path p outside
      unfold SyncRun.saves Snapshots.entries
      dsimp only
      split
      · exact .inl rfl
      · rw [Option.getD_some, entryAt_stored (framed side).sorted, same]
        cases weak : run.strong with
        | true => exact .inl rfl
        | false => exact .inr ⟨⟨run, List.mem_cons_self, weak⟩, rfl⟩

/-- Runs one after the other keep every entry that is outside of all of their scopes. -/
theorem SyncsInTurn.kept (sorted : saved.Sorted) (scans : ∀ run ∈ runs, run.ScansSorted)
    (syncs : SyncsInTurn runs saved saved') :
    saved'.Sorted ∧ ∀ side p, (∀ run ∈ runs, run.scope.selected p = false) →
      KeptBy runs (entryAt p (saved.entries side)) (entryAt p (saved'.entries side)) := by
  induction syncs with
  | done => exact ⟨sorted, fun _ _ _ => .inl rfl⟩
  | @next run runs saved result between saved' sync rest ih =>
    obtain ⟨sortedBetween, first⟩ := SyncRun.kept sorted (scans run List.mem_cons_self) sync
    obtain ⟨sortedAfter, later⟩ := ih sortedBetween fun r mem => scans r (List.mem_cons_of_mem _ mem)
    refine ⟨sortedAfter, fun side p outside => ?_⟩
    have one := first side p (outside run List.mem_cons_self)
    have others := later side p fun r mem => outside r (List.mem_cons_of_mem _ mem)
    rcases one with same | ⟨⟨weak, isRun, notStrong⟩, dropped⟩
    · rcases others with same' | ⟨⟨weak, mem, notStrong⟩, dropped⟩
      · exact .inl (same'.trans same)
      · rw [same] at dropped
        exact .inr ⟨⟨weak, List.mem_cons_of_mem _ mem, notStrong⟩, dropped⟩
    · cases List.mem_singleton.mp isRun
      have isWeak : ∃ r ∈ run :: runs, r.strong = false := ⟨run, List.mem_cons_self, notStrong⟩
      rcases others with same' | ⟨-, dropped'⟩
      · exact .inr ⟨isWeak, same'.trans dropped⟩
      · refine .inr ⟨isWeak, ?_⟩
        rw [dropped', dropped, Option.map_map]
        rfl

end Runs

/-! ## The frame of a scope -/

/-- A scope has the paths that its restriction and its excludes say. What a run reports,
plans and merges leaves everything else in place, and after any runs an unrestricted scan
reports the change from the entry that was saved before them. -/
theorem scopeFrame {saved : Snapshots} (sorted : saved.Sorted) :
    (∀ restrict excludes p, (ScanScope.new restrict excludes).selected p = true ↔
      restrict <+: p ∧ ∀ exclude ∈ excludes, ¬ exclude <+: p) ∧
    (∀ run : SyncRun, run.ScansSorted →
      (∀ side context, run.report saved side = .ok context →
        (∀ c ∈ context.changes, run.scope.selected c.path = true) ∧
          ∀ e ∈ context.current, run.scope.selected e.path = true) ∧
      ∀ context active (waves : Side → List Actions) (entries : Side → Entries),
        (∀ side, run.report saved side = .ok (context side)) →
        run.decide context = .ok (.apply active) →
        (∀ side, (waves side).flatten <+: active) →
        (∀ side, commitWaves (run.ino side)
          (baseline run.scope (run.migration context) (context side) side)
          ((waves side).map fun wave => sideActions run.strong wave side) = .ok (entries side)) →
        ∀ side, SortedEntries (entries side) ∧
          outsideEntries run.scope (entries side) =
            outsideEntries run.scope (saved.entries side)) ∧
    ∀ runs saved', (∀ run ∈ runs, run.ScansSorted) → SyncsInTurn runs saved saved' →
      ∀ hash side scanned strong context, SortedEntries scanned →
        oldAndChanges hash (ScanScope.new [] []) (saved' side) scanned strong = .ok context →
        ∀ p, (∀ run ∈ runs, run.scope.selected p = false) →
          ∃ kept, KeptBy runs (entryAt p (saved.entries side)) kept ∧
            Option.Rel Change.SameScan (changeOf (kept, entryAt p scanned))
              (lookup Change.path p context.changes) := by
  refine ⟨fun _ _ _ => ScanScope.selected_new, ?_, ?_⟩
  · intro run scans
    constructor
    · intro side context report
      have within := (SyncRun.compares sorted scans report).scoped
      exact ⟨within.changes, within.current⟩
    · intro context active waves entries reports decision part commits side
      have framed := SyncRun.framed sorted scans reports decision part commits side
      exact ⟨framed.sorted, framed.outside (sorted.entries side)⟩
  · intro runs saved' scans syncs hash side scanned strong context sortedScan report p outside
    obtain ⟨sortedAfter, kept⟩ := SyncsInTurn.kept sorted scans syncs
    have compares := (oldAndChanges_compares (sortedAfter side) sortedScan report).1
    have inScope : (ScanScope.new [] []).selected p = true := by
      rw [ScanScope.selected_new]
      exact ⟨List.nil_prefix, by simp⟩
    have change := compares.changeAt p
    rw [entryAt_selectedEntries (sorted_getD (sortedAfter side)),
      entryAt_selectedEntries sortedScan, inScope] at change
    exact ⟨_, kept side p outside, change⟩

/-- The file `b` was excluded while the change of the file `a` was sent to the other side, and
is reported by the next scan. -/
theorem scopeFrame_rerun :
    let file (name : UInt8) (size : UInt64) : DirEntryWithMeta :=
      ⟨[.normal [name]], size, 0, 7, 0o100644, none, false, 0, none⟩
    let saved : Snapshots := fun _ => some ⟨[file 97 1, file 98 1], .legacyV1⟩
    let after : LoadedEntries := ⟨[file 97 2, file 98 1], .legacyV1⟩
    ∃ run result, run.scope = ScanScope.new [] [[.normal [98]]] ∧
      Syncs run saved result (fun _ => some after) ∧
      ∀ hash context,
        oldAndChanges hash (ScanScope.new [] []) (some after) (run.scanned .local) false =
          .ok context →
        Option.Rel Change.SameScan (some (.modified (file 98 1) (file 98 2)))
          (lookup Change.path [.normal [98]] context.changes) := by
  intro file saved after
  let run : SyncRun :=
    { scope := ⟨[], [[.normal [98]]]⟩
      strong := false
      dryRun := false
      answer := ⟨.proceed, fun _ => none⟩
      hash := fun _ _ => .ok (0, ⟨Vector.replicate 32 1⟩)
      scanned := bySide [file 97 2, file 98 2] [file 97 1, file 98 1]
      ino := fun _ _ => 7 }
  have scope : run.scope = ScanScope.new [] [[.normal [98]]] := by
    simp [run, ScanScope.new, ScanScope.compact]
  have sorted : saved.Sorted := by
    intro side loaded isLoaded
    cases isLoaded
    decide
  have scans : run.ScansSorted := by
    intro side
    cases side <;> decide
  let hashed : DirEntryWithMeta := { file 97 2 with digest := some ⟨Vector.replicate 32 1⟩ }
  let change : Change := .modified (file 97 1) hashed
  let context : Side → State.ScanContext :=
    bySide ⟨[file 97 1, file 98 1], [change], [hashed], false⟩
      ⟨[file 97 1, file 98 1], [], [file 97 1], false⟩
  let merged : Side → Entries := bySide [hashed, file 98 1] [file 97 2, file 98 1]
  have reports : ∀ side, run.report saved side = .ok (context side) := by
    intro side
    cases side <;> rfl
  have decision : run.decide context = .ok (.apply [.remote change]) := rfl
  have commits : ∀ side, commitWaves (run.ino side)
      (baseline run.scope (run.migration context) (context side) side)
      ([[.remote change]].map fun wave => sideActions run.strong wave side) =
        .ok (merged side) := by
    intro side
    cases side <;> rfl
  have saves : run.saves saved (fun _ => [[.remote change]]) merged = fun _ => some after := by
    funext side
    cases side <;> rfl
  have sync : Syncs run saved (.ok .success) (fun _ => some after) := by
    rw [← saves]
    exact .applied reports decision (fun _ => List.prefix_rfl) (fun _ _ => rfl) commits
  refine ⟨run, _, scope, sync, fun hash context report => ?_⟩
  have excluded : ∀ r ∈ [run], r.scope.selected [.normal [98]] = false := by
    intro r mem
    cases List.mem_singleton.mp mem
    rfl
  obtain ⟨kept, keeps, changed⟩ := (scopeFrame sorted).2.2 [run] _ (by simpa using scans)
    (.next sync .done) hash .local _ false context (scans .local) report _ excluded
  have same : kept = some (file 98 1) := by
    rcases keeps with same | ⟨-, dropped⟩
    · exact same
    · exact dropped
  rw [same] at changed
  exact changed

end Duet
