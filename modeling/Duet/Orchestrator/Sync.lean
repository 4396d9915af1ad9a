import Duet.Legacy
import Duet.Orchestrator.Migration
import Duet.State.Scanned
import Duet.Sync.Manifest

/-!
# One synchronization

The client compares the reports of the two sides, has the user decide about the actions,
and either finishes or applies the plan in waves. After each wave both sides save the
manifest that they have merged so far. What depends on the two trees, on the network and on
the user is the environment of a run.
-/

namespace Duet

open Lib

/-! ## The decision -/

inductive AllResolution where
  | proceed
  | abort
  | force
  | interrupted
deriving DecidableEq

inductive SyncOutcome where
  | success
  | userAbort
  | interrupted
deriving DecidableEq

inductive SyncError where
  /-- strong-digest migration found divergent current files; resolve every conflict before
  migration can save a shared baseline -/
  | divergentMigration
  | invalidActions (cause : ValidationError)
  /-- an unreachable branch of the source, where it panics -/
  | unreachable
  /-- an error on the way, of a check, of the other side or of the disk -/
  | failed (report : Report)

/-- What the client does once the actions are decided. -/
inductive SyncDecision where
  | finish (outcome : SyncOutcome)
  | apply (active : Actions)

/-- The user's part in `resolve_actions`: an answer to the whole list, and a choice for
each conflict. -/
structure UserAnswer where
  resolution : AllResolution
  choice : Path → Option Resolution

def resolveActions (actions : Actions) (answer : UserAnswer) :
    Except SyncError (AllResolution × Actions) :=
  if actions.isEmpty then .ok (.proceed, actions)
  else
    match resolveConflicts answer.choice actions with
    | some resolved => .ok (answer.resolution, resolved)
    | none => .error .unreachable

/-- A check of the action list, as a step of the synchronization. -/
def checkActions (check : Checked) : Except SyncError Unit :=
  match check with
  | .ok () => .ok ()
  | .error cause => .error (.invalidActions cause)

/-- `sync`, from the two reports to the plan that is applied. A dry run ends here at the
latest. -/
def decideSync (strong dryRun : Bool) (answer : UserAnswer)
    (contextL contextR : State.ScanContext) : Except SyncError SyncDecision := do
  let migration := strong && (contextL.migrationNeeded || contextR.migrationNeeded)
  let planned := plannedActions strong contextL contextR
  let (resolution, actions) ←
    if dryRun then .ok (.proceed, planned)
    else if migration && planned.isEmpty then .ok (.proceed, planned)
    else resolveActions planned answer
  if resolution = .interrupted then return .finish .interrupted
  if migration && (actions.countP Action.isUnresolvedConflict > 0) && !dryRun then
    .error .divergentMigration
  if resolution = .abort then return .finish .userAbort
  if strong then
    checkActions (validateStrongActions actions)
  if actions.isEmpty && !dryRun then return .finish .success
  if dryRun && actions.isEmpty then return .finish .success
  let (active, _) := filterUnresolvedConflictDependencies actions
  if dryRun && active.isEmpty then return .finish .success
  if dryRun then return .finish .success
  return .apply active

section Decision

variable {strong : Bool} {answer : UserAnswer} {contextL contextR : State.ScanContext}
  {decision : SyncDecision}

theorem resolveActions_eq_ok {actions resolved : Actions} {resolution : AllResolution}
    (nonempty : actions ≠ [])
    (resolves : resolveActions actions answer = .ok (resolution, resolved)) :
    resolveConflicts answer.choice actions = some resolved := by
  unfold resolveActions at resolves
  rw [if_neg (by simpa using nonempty)] at resolves
  split at resolves
  · next found =>
    cases resolves
    exact found
  · cases resolves

/-- A dry run applies nothing. -/
theorem decideSync_dryRun (decided : decideSync strong true answer contextL contextR = .ok decision) :
    ∃ outcome, decision = .finish outcome := by
  unfold decideSync at decided
  simp only [if_true, bind, Except.bind, reduceCtorEq, if_false, Bool.not_true, Bool.and_false,
    Bool.false_eq_true, Bool.true_and] at decided
  cases strong with
  | false =>
    simp only [Bool.false_eq_true, if_false] at decided
    repeat' split at decided
    all_goals exact ⟨_, (Except.ok.inj decided).symm⟩
  | true =>
    simp only [if_true] at decided
    split at decided
    · cases decided
    · repeat' split at decided
      all_goals exact ⟨_, (Except.ok.inj decided).symm⟩

/-- What a run that is no dry run comes to. -/
inductive Decided (strong : Bool) (answer : UserAnswer) (contextL contextR : State.ScanContext) :
    SyncDecision → Prop
  | nothing (settled : plannedActions strong contextL contextR = []) :
      Decided strong answer contextL contextR (.finish .success)
  | refused {outcome} (unsuccessful : outcome ≠ .success) :
      Decided strong answer contextL contextR (.finish outcome)
  | plan {resolved} (nonempty : plannedActions strong contextL contextR ≠ [])
      (resolves : resolveConflicts answer.choice (plannedActions strong contextL contextR) =
        some resolved)
      (migrates : (strong && (contextL.migrationNeeded || contextR.migrationNeeded)) = true →
        ∀ a ∈ resolved, a.isUnresolvedConflict = false)
      (valid : strong = true → validateStrongActions resolved = .ok ()) :
      Decided strong answer contextL contextR
        (.apply (filterUnresolvedConflictDependencies resolved).1)

theorem decided_of_decideSync
    (decided : decideSync strong false answer contextL contextR = .ok decision) :
    Decided strong answer contextL contextR decision := by
  unfold decideSync at decided
  simp only [Bool.false_eq_true, if_false, Bool.not_false, Bool.and_true, Bool.false_and, bind,
    Except.bind] at decided
  by_cases settled : plannedActions strong contextL contextR = []
  · have valid : validateStrongActions [] = .ok () := rfl
    simp only [settled, List.isEmpty_nil, Bool.and_true, resolveActions, if_true, reduceCtorEq,
      if_false, List.countP_nil, gt_iff_lt, lt_self_iff_false, decide_false, Bool.and_false,
      Bool.false_eq_true, valid, checkActions, ite_self] at decided
    cases Except.ok.inj decided
    exact .nothing settled
  · have nonempty : (plannedActions strong contextL contextR).isEmpty = false := by
      simpa using settled
    rw [nonempty, Bool.and_false, if_neg Bool.false_ne_true] at decided
    cases answered : resolveActions (plannedActions strong contextL contextR) answer with
    | error cause =>
      rw [answered] at decided
      cases decided
    | ok result =>
      obtain ⟨resolution, resolved⟩ := result
      have resolves := resolveActions_eq_ok settled answered
      have remains : resolved.isEmpty = false := by
        have lengths := (forall₂_of_mapM_some resolves).length_eq
        simpa [List.length_eq_zero_iff, ← List.length_eq_zero_iff, ← lengths] using settled
      rw [answered] at decided
      dsimp only at decided
      split at decided
      · cases Except.ok.inj decided
        exact .refused (by decide)
      · split at decided
        · cases decided
        · next migrates =>
          split at decided
          · cases Except.ok.inj decided
            exact .refused (by decide)
          · have migrates : (strong && (contextL.migrationNeeded || contextR.migrationNeeded)) = true →
                ∀ a ∈ resolved, a.isUnresolvedConflict = false := by
              intro migration
              rw [migration, Bool.true_and, decide_eq_true_iff, not_lt, Nat.le_zero,
                List.countP_eq_zero] at migrates
              intro a mem
              exact Bool.eq_false_of_not_eq_true (migrates a mem)
            rw [remains] at decided
            split at decided
            · split at decided
              · cases decided
              · next checks =>
                cases Except.ok.inj decided
                refine .plan settled resolves migrates fun _ => ?_
                unfold checkActions at checks
                split at checks
                · assumption
                · cases checks
            · next weak =>
              cases Except.ok.inj decided
              exact .plan settled resolves migrates fun strong => absurd strong weak

end Decision
/-! ## The waves -/

/-- The changes of the server as the client has them: only a request for changes without
excludes and without digests is answered in the legacy form. -/
def receiveChanges (scope : ScanScope) (strong : Bool) (context : State.ScanContext) :
    State.ScanContext :=
  if !scope.excludes.isEmpty || strong then context
  else
    { context with
      changes := (context.changes.map Change.toLegacy).map LegacyChange.toChange
      current := []
      migrationNeeded := false }

/-- The actions of a wave as each side has them. -/
def sideActions (strong : Bool) (actions : Actions) : Side → Actions
  | .local => actions
  | .remote => if strong then reverse actions else fromLegacy (toLegacy (reverse actions))

/-- The manifest that the actions of a side are merged into. The server has replaced the
scope already when it reported that it needs a migration. -/
def baseline (scope : ScanScope) (migration : Bool) (context : State.ScanContext) :
    Side → Entries
  | .local =>
    if migration then replaceScope context.allOld scope context.current else context.allOld
  | .remote =>
    let allOld :=
      if context.migrationNeeded then replaceScope context.allOld scope context.current
      else context.allOld
    if migration then replaceScope allOld scope context.current else allOld

/-- Merge the waves one after the other. -/
def commitWaves (ino : Path → UInt64) (entries : Entries) (waves : List Actions) :
    Except MergeError Entries :=
  waves.foldlM (fun entries wave => mergeStagedManifest entries wave (localResults ino wave))
    entries

/-- What a snapshot in the given format keeps of a manifest. -/
def SnapshotFormat.stored : SnapshotFormat → Entries → Entries
  | .v2, entries => entries
  | .legacyV1, entries => (entries.map DirEntryWithMeta.toLegacy).map LegacyEntry.toEntry

def saveFormat (strong : Bool) : SnapshotFormat := if strong then .v2 else .legacyV1

/-- The state files of the two sides. -/
abbrev Snapshots := Side → Option LoadedEntries

/-- One run of `sync`, with all that it depends on besides the state files. -/
structure SyncRun where
  scope : ScanScope
  strong : Bool
  dryRun : Bool
  answer : UserAnswer
  hash : Side → ContentHash
  scanned : Side → Entries
  ino : Side → Path → UInt64

namespace SyncRun

/-- The report of a side. -/
def report (run : SyncRun) (saved : Snapshots) (side : Side) :
    Except StateError State.ScanContext :=
  oldAndChanges (run.hash side) run.scope (saved side) (run.scanned side) run.strong

def decide (run : SyncRun) (context : Side → State.ScanContext) :
    Except SyncError SyncDecision :=
  decideSync run.strong run.dryRun run.answer (context .local)
    (receiveChanges run.scope run.strong (context .remote))

/-- Whether the client migrates the state of both sides. -/
def migration (run : SyncRun) (context : Side → State.ScanContext) : Bool :=
  run.strong && ((context .local).migrationNeeded || (context .remote).migrationNeeded)

/-- The state file of a side after some waves. -/
def saves (run : SyncRun) (saved : Snapshots) (waves : Side → List Actions)
    (entries : Side → Entries) : Snapshots := fun side =>
  if waves side = [] then saved side
  else some ⟨(saveFormat run.strong).stored (entries side), saveFormat run.strong⟩

end SyncRun

/-- How a run can end, and what it leaves in the state files. A run that stops on the way
has saved the first waves of its plan, on each side as many as it got to. -/
inductive Syncs (run : SyncRun) (saved : Snapshots) :
    Except SyncError SyncOutcome → Snapshots → Prop
  | stopped {result} (unsuccessful : result ≠ .ok .success) : Syncs run saved result saved
  | finished {context outcome} (reports : ∀ side, run.report saved side = .ok (context side))
      (decision : run.decide context = .ok (.finish outcome)) :
      Syncs run saved (.ok outcome) saved
  | applied {context active waves entries result}
      (reports : ∀ side, run.report saved side = .ok (context side))
      (decision : run.decide context = .ok (.apply active))
      (part : ∀ side, (waves side).flatten <+: active)
      (complete : result = .ok .success → ∀ side, (waves side).flatten = active)
      (commits : ∀ side, commitWaves (run.ino side)
        (baseline run.scope (run.migration context) (context side) side)
        ((waves side).map fun wave => sideActions run.strong wave side) = .ok (entries side)) :
      Syncs run saved result (run.saves saved waves entries)

/-! ## The snapshots before a run -/

/-- The manifest of a snapshot. A side without a state file has an empty one. -/
def Snapshots.entries (saved : Snapshots) (side : Side) : Entries :=
  ((saved side).getD ⟨[], .v2⟩).entries

def Snapshots.Sorted (saved : Snapshots) : Prop :=
  ∀ side, ∀ loaded ∈ saved side, SortedEntries loaded.entries

/-- The scans of both sides arrive in path order. -/
def SyncRun.ScansSorted (run : SyncRun) : Prop := ∀ side, SortedEntries (run.scanned side)

section Runs

variable {run : SyncRun} {saved : Snapshots} {side : Side}

theorem Snapshots.Sorted.entries (sorted : saved.Sorted) (side : Side) :
    SortedEntries (saved.entries side) :=
  sorted_getD (sorted side)

theorem SyncRun.compares (sorted : saved.Sorted) (scans : run.ScansSorted)
    {context : State.ScanContext} (report : run.report saved side = .ok context) :
    Compares (run.hash side) run.scope ((saved side).getD ⟨[], .v2⟩) (run.scanned side) run.strong
      context :=
  (oldAndChanges_compares (sorted side) (scans side) report).1

end Runs

end Duet
