import Duet.Lib.Fallible
import Duet.Sync.DetailKind
import Mathlib.Algebra.Group.Nat.Defs

/-!
# Staging waves

A plan is carried out in waves, so that the files that one wave stages fit into the free
space of both sides. The actions that depend on each other, a directory change and
everything below its path, form a group that no wave splits. Groups are packed into waves
in their order, and a group that exceeds the target of a side gets a wave of its own.
-/

namespace Duet

open Lib

structure StagingBudget where
  reserveBytes : Nat
  usableBytes : Nat
  budgetBytes : Nat
  cowCloneSupported : Bool

/-- The budgets of the two sides. -/
abbrev StagingBudgets := Side → StagingBudget

structure StagingWave where
  actionIndices : List Nat
  reconstructedBytes : Side → Nat
  stagedRegularOutputs : Side → Nat
  exceedsBudget : Side → Bool
  requiresCowCapacity : Side → Bool

structure StagingWavePlan where
  waves : List StagingWave
  reconstructedBytes : Side → Nat
  stagedRegularOutputs : Side → Nat

structure StagingDependencyGroup where
  actionIndices : List Nat
  reconstructedBytes : Side → Nat
  stagedRegularOutputs : Side → Nat
  cowCandidateOutputs : Side → Nat
  requiresCowCapacity : Side → Bool
  isolated : Bool

inductive StagingError where
  | invalidBudget (side : Side) (target usable reserve : Nat)
  | unordered (previous path : Path)
  | unresolvedConflict (path : Path)
  | directoryReplacement (path : Path)
  | noRegularOutput
  | overflow
  | notEnoughSpace (side : Side) (path : Path) (required usable reserve : Nat)
  | unsafeGroup (side : Side) (path : Path) (required outputs target : Nat)
deriving DecidableEq

/-! ## Checks -/

def actionHasDirectoryChange (action : Action) : Bool :=
  match action with
  | .identical left right => left.isDir || right.isDir
  | .resolvedLocal (left, right) resolved | .resolvedRemote (left, right) resolved =>
    left.isDir || right.isDir || resolved.isDir
  | _ => action.change.isDir

def isDirectoryReplacement : Change → Bool
  | .modified old new => old.isDir && !new.isDir
  | _ => false

def actionHasDirectoryToNondirectoryChange (action : Action) : Bool :=
  match action with
  | .identical left right => isDirectoryReplacement left || isDirectoryReplacement right
  | .resolvedLocal (left, right) resolved | .resolvedRemote (left, right) resolved =>
    isDirectoryReplacement left || isDirectoryReplacement right || isDirectoryReplacement resolved
  | _ => isDirectoryReplacement action.change

def validateStagingBudget (side : Side) (budget : StagingBudget) : Except StagingError Unit :=
  if budget.budgetBytes > budget.usableBytes then
    .error (.invalidBudget side budget.budgetBytes budget.usableBytes budget.reserveBytes)
  else
    .ok ()

/-- The checks of the single actions, each after the path of the one before it. -/
def validateStagingActions : Option Path → Actions → Except StagingError Unit
  | _, [] => .ok ()
  | previous, action :: rest =>
    match previous.filter fun path => path ≥ action.path with
    | some path => .error (.unordered path action.path)
    | none =>
      if action.isUnresolvedConflict then .error (.unresolvedConflict action.path)
      else if actionHasDirectoryToNondirectoryChange action then
        .error (.directoryReplacement action.path)
      else validateStagingActions (some action.path) rest

/-! ## Groups -/

/-- A sum of 64-bit numbers. -/
def checkedStagingAdd (left right : Nat) : Except StagingError Nat :=
  if left + right < 2 ^ 64 then .ok (left + right) else .error .overflow

/-- The side that stages the change of an action. The planner has rejected unresolved
conflicts before. -/
def stagedChange : Action → Option (Side × Change)
  | .local change | .resolvedLocal _ change => some (.local, change)
  | .remote change | .resolvedRemote _ change => some (.remote, change)
  | .identical _ _ | .conflict _ _ => none

/-- The outputs of a group that were counted so far. -/
structure GroupOutputs where
  reconstructedBytes : Side → Nat
  stagedRegularOutputs : Side → Nat
  cowCandidateOutputs : Side → Nat

def GroupOutputs.none : GroupOutputs := ⟨fun _ => 0, fun _ => 0, fun _ => 0⟩

/-- Diff staging is planned at the full size of the file that it reconstructs. -/
def addOutput (outputs : GroupOutputs) (action : Action) : Except StagingError GroupOutputs :=
  match stagedChange action with
  | Option.none => .ok outputs
  | some (side, change) =>
    match applyDetailKindForChange change with
    | Option.none => .ok outputs
    | some kind =>
      match changeOutputEntry change with
      | .error _ => .error .noRegularOutput
      | .ok entry => do
        let bytes ← checkedStagingAdd (outputs.reconstructedBytes side) entry.size.toNat
        let count ← checkedStagingAdd (outputs.stagedRegularOutputs side) 1
        return {
          reconstructedBytes := Function.update outputs.reconstructedBytes side bytes
          stagedRegularOutputs := Function.update outputs.stagedRegularOutputs side count
          cowCandidateOutputs :=
            if kind = .diff then
              Function.update outputs.cowCandidateOutputs side (outputs.cowCandidateOutputs side + 1)
            else outputs.cowCandidateOutputs }

/-- Whether one side wants its group isolated, and whether it relies on file clones. -/
def validateStagingGroupSide (side : Side) (required outputs : Nat) (singleCowCandidate : Bool)
    (budget : StagingBudget) (path : Path) : Except StagingError (Bool × Bool) :=
  if required > budget.usableBytes then
    if outputs = 1 && singleCowCandidate && budget.cowCloneSupported then
      .ok (true, true)
    else
      .error (.notEnoughSpace side path required budget.usableBytes budget.reserveBytes)
  else if required ≤ budget.budgetBytes then
    .ok (false, false)
  else if outputs ≠ 1 then
    .error (.unsafeGroup side path required outputs budget.budgetBytes)
  else
    .ok (true, false)

def stagingDependencyGroup (budgets : StagingBudgets) (start : Nat) (path : Path)
    (members : Actions) : Except StagingError StagingDependencyGroup := do
  let outputs ← members.foldlM addOutput GroupOutputs.none
  let validate (side : Side) := validateStagingGroupSide side (outputs.reconstructedBytes side)
    (outputs.stagedRegularOutputs side) (outputs.cowCandidateOutputs side = 1) (budgets side) path
  let (localIsolated, localRequiresCow) ← validate .local
  let (remoteIsolated, remoteRequiresCow) ← validate .remote
  return {
    actionIndices := List.range' start members.length
    reconstructedBytes := outputs.reconstructedBytes
    stagedRegularOutputs := outputs.stagedRegularOutputs
    cowCandidateOutputs := outputs.cowCandidateOutputs
    requiresCowCapacity := fun
      | .local => localRequiresCow
      | .remote => remoteRequiresCow
    isolated := localIsolated || remoteIsolated }

/-- The actions after the first one of a group that belong to the group. -/
def groupRest (action : Action) (rest : Actions) : Actions :=
  if actionHasDirectoryChange action then
    rest.takeWhile fun later => later.path.startsWith action.path
  else []

def stagingGroups (budgets : StagingBudgets) (start : Nat) :
    Actions → Except StagingError (List StagingDependencyGroup)
  | [] => .ok []
  | action :: rest => do
    let members := action :: groupRest action rest
    let group ← stagingDependencyGroup budgets start action.path members
    let groups ← stagingGroups budgets (start + members.length)
      (rest.drop (groupRest action rest).length)
    return group :: groups
termination_by actions => actions.length

/-! ## Waves -/

def stagingWaveFromGroup (group : StagingDependencyGroup) (budgets : StagingBudgets) :
    StagingWave where
  actionIndices := group.actionIndices
  reconstructedBytes := group.reconstructedBytes
  stagedRegularOutputs := group.stagedRegularOutputs
  exceedsBudget side := group.reconstructedBytes side > (budgets side).budgetBytes
  requiresCowCapacity := group.requiresCowCapacity

/-- The sums of both sides. -/
def checkedSideAdd (left right : Side → Nat) : Except StagingError (Side → Nat) := do
  let onLocal ← checkedStagingAdd (left .local) (right .local)
  let onRemote ← checkedStagingAdd (left .remote) (right .remote)
  return fun
    | .local => onLocal
    | .remote => onRemote

/-- The plan so far and the wave that may still grow. -/
structure StagingPacking where
  plan : StagingWavePlan
  pending : Option StagingWave

def StagingPacking.empty : StagingPacking := ⟨⟨[], fun _ => 0, fun _ => 0⟩, none⟩

/-- The plan with the pending wave at its end. -/
def StagingPacking.flush (packing : StagingPacking) : StagingWavePlan :=
  { packing.plan with waves := packing.plan.waves ++ packing.pending.toList }

def packGroup (budgets : StagingBudgets) (packing : StagingPacking)
    (group : StagingDependencyGroup) : Except StagingError StagingPacking := do
  let planBytes ← checkedSideAdd packing.plan.reconstructedBytes group.reconstructedBytes
  let planOutputs ← checkedSideAdd packing.plan.stagedRegularOutputs group.stagedRegularOutputs
  let plan := { packing.plan with
    reconstructedBytes := planBytes
    stagedRegularOutputs := planOutputs }
  let wave := stagingWaveFromGroup group budgets
  if group.isolated then
    return ⟨{ plan with waves := plan.waves ++ packing.pending.toList ++ [wave] }, none⟩
  else
    match packing.pending with
    | none => return ⟨plan, some wave⟩
    | some pending => do
      let bytes ← checkedSideAdd pending.reconstructedBytes group.reconstructedBytes
      if bytes .local ≤ (budgets .local).budgetBytes ∧
          bytes .remote ≤ (budgets .remote).budgetBytes then
        let outputs ← checkedSideAdd pending.stagedRegularOutputs group.stagedRegularOutputs
        return ⟨plan, some { pending with
          actionIndices := pending.actionIndices ++ group.actionIndices
          reconstructedBytes := bytes
          stagedRegularOutputs := outputs }⟩
      else
        return ⟨{ plan with waves := plan.waves ++ [pending] }, some wave⟩

def planStagingWaves (actions : Actions) (budgets : StagingBudgets) :
    Except StagingError StagingWavePlan := do
  validateStagingBudget .local (budgets .local)
  validateStagingBudget .remote (budgets .remote)
  validateStagingActions none actions
  let groups ← stagingGroups budgets 0 actions
  let packing ← groups.foldlM (packGroup budgets) StagingPacking.empty
  return packing.flush

end Duet
