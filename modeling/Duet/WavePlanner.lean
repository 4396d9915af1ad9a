import Duet.Lib.PrefixOrder
import Duet.Sync.StagingWaves
import Mathlib.Algebra.Order.Ring.Nat
import Mathlib.Data.List.TakeWhile
import Mathlib.Data.Nat.SuccPred

/-!
# The wave planner

Every wave of a plan is made of consecutive dependency groups. Its loads are the sums over
its actions, and a wave that is over the target of a side is one group with one output there.
-/

namespace Duet

open Lib

/-! ## What a wave stages -/

/-- How the action stages a regular file on this side, if it does. -/
def stagedOutputKind (side : Side) (action : Action) : Option ApplyDetailKind :=
  match stagedChange action with
  | some (onSide, change) => if onSide = side then applyDetailKindForChange change else none
  | none => none

def stagesOutput (side : Side) (action : Action) : Bool := (stagedOutputKind side action).isSome

/-- The size of the regular file that the action stages on this side. -/
def outputBytes (side : Side) (action : Action) : Nat :=
  if stagesOutput side action then
    (action.change.newEntry.map fun entry => entry.size.toNat).getD 0
  else 0

/-- The action stages a diff against the old file. -/
def stagesDiff (side : Side) (action : Action) : Bool :=
  stagedOutputKind side action = some .diff

def actionsAt (actions : Actions) (indices : List Nat) : Actions :=
  indices.filterMap fun index => actions[index]?

/-- The groups of consecutive actions that are planned together, by their indices. -/
def dependencyGroups (start : Nat) : Actions → List (List Nat)
  | [] => []
  | action :: rest =>
    List.range' start ((groupRest action rest).length + 1) ::
      dependencyGroups (start + ((groupRest action rest).length + 1))
        (rest.drop (groupRest action rest).length)
termination_by actions => actions.length

theorem groupRest_isPrefix (action : Action) (rest : Actions) : groupRest action rest <+: rest := by
  unfold groupRest
  split_ifs
  · exact List.takeWhile_prefix _
  · exact List.nil_prefix

theorem actionsAt_range' (actions : Actions) (start length : Nat)
    (inside : start + length ≤ actions.length) :
    actionsAt actions (List.range' start length) = (actions.drop start).take length := by
  induction length generalizing start with
  | zero => simp [actionsAt]
  | succ length ih =>
    have here : start < actions.length := by omega
    have tail := ih (start + 1) (by omega)
    rw [actionsAt] at tail
    rw [actionsAt, List.range'_succ, List.filterMap_cons, List.getElem?_eq_getElem here,
      List.drop_eq_getElem_cons here, List.take_succ_cons]
    exact congrArg _ tail

/-! ## Sums -/

theorem checkedStagingAdd_eq {left right sum : Nat} (added : checkedStagingAdd left right = .ok sum) :
    sum = left + right ∧ sum < 2 ^ 64 := by
  unfold checkedStagingAdd at added
  split_ifs at added with small
  cases added
  exact ⟨rfl, small⟩

theorem checkedSideAdd_eq {left right sum : Side → Nat} (added : checkedSideAdd left right = .ok sum)
    (side : Side) : sum side = left side + right side ∧ sum side < 2 ^ 64 := by
  obtain ⟨onLocal, addedLocal, rest⟩ := bind_eq_ok.mp added
  obtain ⟨onRemote, addedRemote, done⟩ := bind_eq_ok.mp rest
  cases done
  cases side with
  | «local» => exact checkedStagingAdd_eq addedLocal
  | remote => exact checkedStagingAdd_eq addedRemote

/-! ## Groups -/

/-- What was counted of these actions. -/
structure Counts (actions : Actions) (found : GroupOutputs) : Prop where
  bytes : ∀ side, found.reconstructedBytes side = (actions.map (outputBytes side)).sum
  outputs : ∀ side, found.stagedRegularOutputs side = actions.countP (stagesOutput side)
  diffs : ∀ side, found.cowCandidateOutputs side = actions.countP (stagesDiff side)

/-- An action without an output counts nothing. -/
theorem Counts.skip {actions : Actions} {outputs : GroupOutputs} {action : Action}
    (counts : Counts actions outputs) (none : ∀ side, stagedOutputKind side action = none) :
    Counts (actions ++ [action]) outputs where
  bytes side := by simp [counts.bytes side, outputBytes, stagesOutput, none side]
  outputs side := by simp [counts.outputs side, stagesOutput, none side]
  diffs side := by simp [counts.diffs side, stagesDiff, none side]

theorem Counts.addOutput {actions : Actions} {outputs outputs' : GroupOutputs} {action : Action}
    (counts : Counts actions outputs) (added : addOutput outputs action = .ok outputs') :
    Counts (actions ++ [action]) outputs' := by
  unfold Duet.addOutput at added
  split at added
  next unstaged =>
    cases added
    exact counts.skip fun side => by simp [stagedOutputKind, unstaged]
  next onSide change staged =>
    split at added
    next undetailed =>
      cases added
      exact counts.skip fun side => by simp [stagedOutputKind, staged, undetailed]
    next kind detailed =>
      obtain ⟨entry, found, output⟩ := changeOutputEntry_of_kind detailed
      rw [output] at added
      obtain ⟨bytes, addedBytes, added⟩ := bind_eq_ok.mp added
      obtain ⟨count, addedCount, done⟩ := bind_eq_ok.mp added
      cases done
      obtain ⟨rfl, -⟩ := checkedStagingAdd_eq addedBytes
      obtain ⟨rfl, -⟩ := checkedStagingAdd_eq addedCount
      have isChange : action.change = change := by
        cases action <;> cases staged <;> rfl
      have kindOf : ∀ side, stagedOutputKind side action = if onSide = side then some kind else none := by
        intro side
        simp [stagedOutputKind, staged, detailed]
      refine ⟨fun side => ?_, fun side => ?_, fun side => ?_⟩
      · by_cases here : onSide = side
        · subst here
          simp [counts.bytes, outputBytes, stagesOutput, kindOf, isChange, found]
        · simp [counts.bytes, outputBytes, stagesOutput, kindOf, here, Ne.symm here]
      · by_cases here : onSide = side
        · subst here
          simp [counts.outputs, stagesOutput, kindOf]
        · simp [counts.outputs, stagesOutput, kindOf, here, Ne.symm here]
      · by_cases here : onSide = side
        · subst here
          cases kind <;> simp [counts.diffs, stagesDiff, kindOf]
        · cases kind <;> simp [counts.diffs, stagesDiff, kindOf, here, Ne.symm here]

theorem counts_foldlM {members : Actions} {outputs : GroupOutputs}
    (counted : members.foldlM addOutput GroupOutputs.none = .ok outputs) : Counts members outputs :=
  foldlM_invariant (I := Counts)
    ⟨fun _ => rfl, fun _ => rfl, fun _ => rfl⟩ (fun _ _ _ _ counts added => counts.addOutput added)
    counted

/-- A side that is over its target has one output, which fits into the usable space unless
it is a diff on a filesystem that clones. -/
structure Oversize (budget : StagingBudget) (bytes outputs diffs : Nat) : Prop where
  single : outputs = 1
  usable : bytes ≤ budget.usableBytes ∨ budget.cowCloneSupported ∧ diffs = 1

theorem validateStagingGroupSide_spec {side : Side} {required outputs diffs : Nat}
    {budget : StagingBudget} {path : Path} {isolated cow : Bool}
    (valid : validateStagingGroupSide side required outputs (diffs = 1) budget path =
      .ok (isolated, cow)) :
    (required ≤ budget.budgetBytes ∨ Oversize budget required outputs diffs) ∧
      (isolated = false → required ≤ budget.budgetBytes) := by
  unfold validateStagingGroupSide at valid
  split_ifs at valid with exceeds cloned fits many
  · cases valid
    simp only [Bool.and_eq_true, decide_eq_true_eq] at cloned
    exact ⟨.inr ⟨cloned.1.1, .inr ⟨cloned.2, cloned.1.2⟩⟩, nofun⟩
  · cases valid
    exact ⟨.inl fits, fun _ => fits⟩
  · cases valid
    exact ⟨.inr ⟨not_not.mp many, .inl (not_lt.mp exceeds)⟩, nofun⟩

/-- What holds of a planned group of `actions`. -/
structure GroupFits (actions : Actions) (budgets : StagingBudgets)
    (group : StagingDependencyGroup) : Prop where
  bytes : ∀ side, group.reconstructedBytes side =
    ((actionsAt actions group.actionIndices).map (outputBytes side)).sum
  outputs : ∀ side, group.stagedRegularOutputs side =
    (actionsAt actions group.actionIndices).countP (stagesOutput side)
  fits : ∀ side, group.reconstructedBytes side ≤ (budgets side).budgetBytes ∨
    Oversize (budgets side) (group.reconstructedBytes side) (group.stagedRegularOutputs side)
      ((actionsAt actions group.actionIndices).countP (stagesDiff side))
  small : group.isolated = false → ∀ side, group.reconstructedBytes side ≤ (budgets side).budgetBytes

theorem stagingDependencyGroup_spec {actions members : Actions} {budgets : StagingBudgets}
    {start : Nat} {path : Path} {group : StagingDependencyGroup}
    (found : actionsAt actions (List.range' start members.length) = members)
    (grouped : stagingDependencyGroup budgets start path members = .ok group) :
    group.actionIndices = List.range' start members.length ∧ GroupFits actions budgets group := by
  obtain ⟨outputs, counted, grouped⟩ := bind_eq_ok.mp grouped
  obtain ⟨⟨localIsolated, localCow⟩, onLocal, grouped⟩ := bind_eq_ok.mp grouped
  obtain ⟨⟨remoteIsolated, remoteCow⟩, onRemote, done⟩ := bind_eq_ok.mp grouped
  cases done
  have counts := counts_foldlM counted
  have validLocal := validateStagingGroupSide_spec onLocal
  have validRemote := validateStagingGroupSide_spec onRemote
  refine ⟨rfl, fun side => ?_, fun side => ?_, fun side => ?_, fun apart side => ?_⟩
  · rw [found]
    exact counts.bytes side
  · rw [found]
    exact counts.outputs side
  · rw [found, ← counts.diffs side]
    cases side with
    | «local» => exact validLocal.1
    | remote => exact validRemote.1
  · obtain ⟨apartLocal, apartRemote⟩ : localIsolated = false ∧ remoteIsolated = false := by
      simpa using apart
    cases side with
    | «local» => exact validLocal.2 apartLocal
    | remote => exact validRemote.2 apartRemote

theorem stagingGroups_spec {actions : Actions} {budgets : StagingBudgets} {start : Nat}
    {rest : Actions} {groups : List StagingDependencyGroup} (suffix : actions.drop start = rest)
    (grouped : stagingGroups budgets start rest = .ok groups) :
    groups.map StagingDependencyGroup.actionIndices = dependencyGroups start rest ∧
      ∀ group ∈ groups, GroupFits actions budgets group := by
  induction start, rest using dependencyGroups.induct generalizing groups with
  | case1 start =>
    rw [stagingGroups] at grouped
    cases grouped
    simp [dependencyGroups]
  | case2 start action rest ih =>
    rw [stagingGroups] at grouped
    obtain ⟨group, here, grouped⟩ := bind_eq_ok.mp grouped
    obtain ⟨later, after, done⟩ := bind_eq_ok.mp grouped
    cases done
    have long : start + (rest.length + 1) = actions.length := by
      have lengths := congrArg List.length suffix
      simp only [List.length_drop, List.length_cons] at lengths
      omega
    have short : (groupRest action rest).length ≤ rest.length := (groupRest_isPrefix _ _).length_le
    have members : actionsAt actions (List.range' start (action :: groupRest action rest).length) =
        action :: groupRest action rest := by
      rw [actionsAt_range' _ _ _ (by simp only [List.length_cons]; omega), suffix,
        List.length_cons, List.take_succ_cons]
      exact congrArg _ (List.prefix_iff_eq_take.mp (groupRest_isPrefix action rest)).symm
    obtain ⟨indices, fits⟩ := stagingDependencyGroup_spec members here
    have next : actions.drop (start + ((groupRest action rest).length + 1)) =
        rest.drop (groupRest action rest).length := by
      rw [← List.drop_drop, suffix, List.drop_succ_cons]
    obtain ⟨tailIndices, tailFits⟩ := ih next after
    refine ⟨?_, ?_⟩
    · rw [dependencyGroups, List.map_cons, tailIndices, indices]
      rfl
    · intro other mem
      rcases List.mem_cons.mp mem with rfl | mem
      · exact fits
      · exact tailFits other mem

/-! ## Packing -/

/-- A wave of these groups: it is within the targets or it is a single group. -/
structure WaveOf (budgets : StagingBudgets) (groups : List StagingDependencyGroup)
    (wave : StagingWave) : Prop where
  indices : wave.actionIndices = groups.flatMap StagingDependencyGroup.actionIndices
  bytes : ∀ side, wave.reconstructedBytes side =
    (groups.map fun group => group.reconstructedBytes side).sum
  outputs : ∀ side, wave.stagedRegularOutputs side =
    (groups.map fun group => group.stagedRegularOutputs side).sum
  fits : (∀ side, wave.reconstructedBytes side ≤ (budgets side).budgetBytes) ∨
    ∃ group, groups = [group]

theorem waveOf_group (budgets : StagingBudgets) (group : StagingDependencyGroup) :
    WaveOf budgets [group] (stagingWaveFromGroup group budgets) where
  indices := by simp [stagingWaveFromGroup]
  bytes side := by simp [stagingWaveFromGroup]
  outputs side := by simp [stagingWaveFromGroup]
  fits := .inr ⟨group, rfl⟩

/-- The groups that are packed so far, in the waves of the plan and in the pending wave. -/
structure Packed (budgets : StagingBudgets) (groups : List StagingDependencyGroup)
    (packing : StagingPacking) : Prop where
  parts : ∃ parts last, parts.flatten ++ last = groups ∧
    List.Forall₂ (WaveOf budgets) parts packing.plan.waves ∧
    match packing.pending with
    | some wave => WaveOf budgets last wave
    | none => last = []
  bytes : ∀ side, packing.plan.reconstructedBytes side =
    (groups.map fun group => group.reconstructedBytes side).sum ∧
    packing.plan.reconstructedBytes side < 2 ^ 64
  outputs : ∀ side, packing.plan.stagedRegularOutputs side =
    (groups.map fun group => group.stagedRegularOutputs side).sum ∧
    packing.plan.stagedRegularOutputs side < 2 ^ 64

theorem packed_empty (budgets : StagingBudgets) : Packed budgets [] StagingPacking.empty where
  parts := ⟨[], [], rfl, .nil, rfl⟩
  bytes _ := ⟨rfl, Nat.two_pow_pos 64⟩
  outputs _ := ⟨rfl, Nat.two_pow_pos 64⟩

/-- The sums of the plan after one more group. -/
theorem checkedSideAdd_groups {groups : List StagingDependencyGroup}
    {group : StagingDependencyGroup} {load : StagingDependencyGroup → Side → Nat}
    {before after : Side → Nat}
    (summed : ∀ side, before side = (groups.map fun group => load group side).sum ∧ before side < 2 ^ 64)
    (added : checkedSideAdd before (load group) = .ok after) (side : Side) :
    after side = ((groups ++ [group]).map fun group => load group side).sum ∧
      after side < 2 ^ 64 := by
  obtain ⟨sum, small⟩ := checkedSideAdd_eq added side
  refine ⟨?_, small⟩
  rw [sum, (summed side).1]
  simp

/-- The pending wave is finished: the groups of the plan are those of its waves. -/
theorem Packed.finish {budgets : StagingBudgets} {groups : List StagingDependencyGroup}
    {packing : StagingPacking} (packed : Packed budgets groups packing) :
    ∃ parts, parts.flatten = groups ∧
      List.Forall₂ (WaveOf budgets) parts (packing.plan.waves ++ packing.pending.toList) := by
  obtain ⟨parts, last, whole, waves, pending⟩ := packed.parts
  cases found : packing.pending with
  | none =>
    rw [found] at pending
    subst pending
    exact ⟨parts, by simpa using whole, by simpa using waves⟩
  | some wave =>
    rw [found] at pending
    exact ⟨parts ++ [last], by simpa using whole, List.rel_append waves (.cons pending .nil)⟩

theorem packGroup_spec {budgets : StagingBudgets} {groups : List StagingDependencyGroup}
    {group : StagingDependencyGroup} {packing packing' : StagingPacking}
    (packed : Packed budgets groups packing)
    (done : packGroup budgets packing group = .ok packing') :
    Packed budgets (groups ++ [group]) packing' := by
  obtain ⟨planBytes, addedBytes, done⟩ := bind_eq_ok.mp done
  obtain ⟨planOutputs, addedOutputs, done⟩ := bind_eq_ok.mp done
  have bytes := @checkedSideAdd_groups _ _ StagingDependencyGroup.reconstructedBytes _ _
    packed.bytes addedBytes
  have outputs := @checkedSideAdd_groups _ _ StagingDependencyGroup.stagedRegularOutputs _ _
    packed.outputs addedOutputs
  have wave := waveOf_group budgets group
  dsimp only at done
  split_ifs at done with isolated
  · cases done
    obtain ⟨parts, whole, waves⟩ := packed.finish
    refine ⟨⟨parts ++ [[group]], [], ?_, List.rel_append waves (.cons wave .nil), rfl⟩, bytes, outputs⟩
    simp [whole]
  · obtain ⟨parts, last, whole, waves, pending⟩ := packed.parts
    split at done
    next found =>
      cases done
      rw [found] at pending
      subst pending
      refine ⟨⟨parts, [group], ?_, waves, wave⟩, bytes, outputs⟩
      rw [← whole, List.append_nil]
    next previous found =>
      rw [found] at pending
      obtain ⟨merged, mergedBytes, done⟩ := bind_eq_ok.mp done
      split_ifs at done with fits
      · obtain ⟨count, addedCount, done⟩ := bind_eq_ok.mp done
        cases done
        refine ⟨⟨parts, last ++ [group], ?_, waves, ?_, fun side => ?_, fun side => ?_, .inl ?_⟩,
          bytes, outputs⟩
        · rw [← List.append_assoc, whole]
        · simp [pending.indices]
        · simp [(checkedSideAdd_eq mergedBytes side).1, pending.bytes side]
        · simp [(checkedSideAdd_eq addedCount side).1, pending.outputs side]
        · intro side
          cases side with
          | «local» => exact fits.1
          | remote => exact fits.2
      · cases done
        refine ⟨⟨parts ++ [last], [group], ?_, List.rel_append waves (.cons pending .nil), wave⟩,
          bytes, outputs⟩
        simp [whole]

/-! ## Directories -/

/-- A list that satisfies the predicate up to a position is taken at least that far. -/
theorem lt_length_takeWhile {α : Type} {p : α → Bool} {l : List α} {n : Nat} (inside : n < l.length)
    (holds : ∀ a ∈ l.take (n + 1), p a = true) : n < (l.takeWhile p).length := by
  induction l generalizing n with
  | nil => cases inside
  | cons a l ih =>
    have here : p a = true := holds a (by simp)
    rw [List.takeWhile_cons_of_pos here, List.length_cons]
    cases n with
    | zero => exact Nat.succ_pos _
    | succ n =>
      have later := ih (Nat.lt_of_succ_lt_succ inside) fun b mem => holds b (by simp [mem])
      exact Nat.succ_lt_succ later

/-- What is under the first action of a directory change belongs to its group. -/
theorem lt_length_groupRest {action later : Action} {rest : Actions} {n : Nat}
    (sorted : SortedBy Action.path (action :: rest)) (directory : actionHasDirectoryChange action)
    (found : rest[n]? = some later) (under : action.path <+: later.path) :
    n < (groupRest action rest).length := by
  obtain ⟨inside, rfl⟩ := List.getElem?_eq_some_iff.mp found
  rw [groupRest, if_pos directory]
  refine lt_length_takeWhile inside fun middle mem => Path.startsWith_iff.mpr ?_
  have below : middle.path ≤ rest[n].path := by
    obtain ⟨m, early, rfl⟩ := List.mem_take_iff_getElem.mp mem
    rcases Nat.lt_or_ge m n with before | after
    · exact (List.pairwise_iff_getElem.mp sorted.tail m n _ inside before).le
    · have same : m = n := by omega
      subst same
      exact le_rfl
  have above := sorted.head_lt middle (List.mem_of_mem_take mem)
  exact prefix_of_le_of_le (List.prefix_refl _) under above.le below

/-- An action of the group of `action` is under its path when the group has other actions. -/
theorem prefix_of_mem_groupRest {action member : Action} {rest : Actions}
    (mem : member ∈ groupRest action rest) :
    actionHasDirectoryChange action ∧ action.path <+: member.path := by
  unfold groupRest at mem
  split_ifs at mem with directory
  · have starts : member.path.startsWith action.path = true :=
      List.mem_takeWhile_imp (p := fun later : Action => later.path.startsWith action.path) mem
    exact ⟨directory, Path.startsWith_iff.mp starts⟩
  · cases mem

/-- No group splits a directory change from what is under its path. -/
theorem dependencyGroups_closed {start : Nat} {actions : Actions}
    (sorted : SortedBy Action.path actions) {i j : Nat} {action later : Action} (order : i ≤ j)
    (here : actions[i]? = some action) (there : actions[j]? = some later)
    (directory : actionHasDirectoryChange action) (under : action.path <+: later.path) :
    ∃ group ∈ dependencyGroups start actions, start + i ∈ group ∧ start + j ∈ group := by
  induction start, actions using dependencyGroups.induct generalizing i j with
  | case1 start => cases here
  | case2 start first rest ih =>
    rw [dependencyGroups]
    by_cases inFirst : i < (groupRest first rest).length + 1
    · have whole : j < (groupRest first rest).length + 1 := by
        cases j with
        | zero => exact Nat.succ_pos _
        | succ j =>
          refine Nat.succ_lt_succ ?_
          rw [List.getElem?_cons_succ] at there
          cases i with
          | zero =>
            obtain rfl : first = action := Option.some.inj here
            exact lt_length_groupRest sorted directory there under
          | succ i =>
            rw [List.getElem?_cons_succ] at here
            have grouped : (groupRest first rest)[i]? = some action := by
              rw [List.prefix_iff_eq_take.mp (groupRest_isPrefix first rest),
                List.getElem?_take_of_lt (by omega)]
              exact here
            obtain ⟨changed, above⟩ := prefix_of_mem_groupRest (List.mem_of_getElem? grouped)
            exact lt_length_groupRest sorted changed there (above.trans under)
      refine ⟨_, List.mem_cons_self, ?_, ?_⟩ <;> rw [List.mem_range'_1] <;> omega
    · obtain ⟨i', rfl⟩ := Nat.exists_eq_add_of_le (not_lt.mp inFirst)
      obtain ⟨j', rfl⟩ := Nat.exists_eq_add_of_le ((not_lt.mp inFirst).trans order)
      have shift : ∀ k : Nat, (first :: rest)[(groupRest first rest).length + 1 + k]? =
          (rest.drop (groupRest first rest).length)[k]? := by
        intro k
        rw [List.getElem?_drop, show (groupRest first rest).length + 1 + k =
          (groupRest first rest).length + k + 1 by omega, List.getElem?_cons_succ]
      rw [shift] at here there
      obtain ⟨group, mem, both⟩ := ih (sorted.tail.sublist (List.drop_sublist _ _)) (by omega)
        here there
      refine ⟨group, List.mem_cons_of_mem _ mem, ?_⟩
      simpa only [Nat.add_assoc] using both

/-- The groups list every action once, in order. -/
theorem flatten_dependencyGroups (start : Nat) (actions : Actions) :
    (dependencyGroups start actions).flatten = List.range' start actions.length := by
  induction start, actions using dependencyGroups.induct with
  | case1 start => simp [dependencyGroups]
  | case2 start action rest ih =>
    have short : (groupRest action rest).length ≤ rest.length := (groupRest_isPrefix _ _).length_le
    rw [dependencyGroups, List.flatten_cons, ih, List.length_drop, List.length_cons,
      List.range'_append_1]
    congr 1
    omega

theorem validateStagingActions_spec {previous : Option Path} {actions : Actions}
    (valid : validateStagingActions previous actions = .ok ()) :
    SortedBy Action.path actions ∧
      ∀ path ∈ previous, ∀ action ∈ actions, path < action.path := by
  induction actions generalizing previous with
  | nil => exact ⟨.nil, fun _ _ _ mem => nomatch mem⟩
  | cons action rest ih =>
    rw [validateStagingActions] at valid
    split at valid
    · cases valid
    next ordered =>
      split_ifs at valid
      obtain ⟨sorted, after⟩ := ih valid
      have later := after action.path rfl
      refine ⟨sortedBy_cons.mpr ⟨later, sorted⟩, fun path mem other found => ?_⟩
      have before : path < action.path := by
        have kept := Option.filter_eq_none_iff.mp ordered path mem
        simpa using kept
      rcases List.mem_cons.mp found with rfl | found
      · exact before
      · exact before.trans (later other found)

/-! ## Plans -/

/-- The loads of a wave are those of its actions, and it is within the target of the side,
or it is one dependency group that is over the target with one output. -/
structure WaveFits (actions : Actions) (budget : StagingBudget) (side : Side)
    (wave : StagingWave) : Prop where
  bytes : wave.reconstructedBytes side =
    ((actionsAt actions wave.actionIndices).map (outputBytes side)).sum
  outputs : wave.stagedRegularOutputs side =
    (actionsAt actions wave.actionIndices).countP (stagesOutput side)
  fits : wave.reconstructedBytes side ≤ budget.budgetBytes ∨
    wave.actionIndices ∈ dependencyGroups 0 actions ∧
    Oversize budget (wave.reconstructedBytes side) (wave.stagedRegularOutputs side)
      ((actionsAt actions wave.actionIndices).countP (stagesDiff side))

theorem WaveOf.waveFits {actions : Actions} {budgets : StagingBudgets}
    {groups : List StagingDependencyGroup} {wave : StagingWave} (made : WaveOf budgets groups wave)
    (fits : ∀ group ∈ groups, GroupFits actions budgets group)
    (known : ∀ group ∈ groups, group.actionIndices ∈ dependencyGroups 0 actions) (side : Side) :
    WaveFits actions (budgets side) side wave := by
  have split : actionsAt actions wave.actionIndices =
      groups.flatMap fun group => actionsAt actions group.actionIndices := by
    rw [made.indices, actionsAt, List.filterMap_flatMap]
    rfl
  refine ⟨?_, ?_, ?_⟩
  · rw [made.bytes side, split, List.map_flatMap, List.flatMap_def, List.sum_flatten, List.map_map]
    exact congrArg _ (List.map_congr_left fun group mem => (fits group mem).bytes side)
  · rw [made.outputs side, split, List.countP_flatMap]
    exact congrArg _ (List.map_congr_left fun group mem => (fits group mem).outputs side)
  · rcases made.fits with small | ⟨group, rfl⟩
    · exact .inl (small side)
    · have one := fits group List.mem_cons_self
      have indices : wave.actionIndices = group.actionIndices := by simp [made.indices]
      have bytes : wave.reconstructedBytes side = group.reconstructedBytes side := by
        simp [made.bytes]
      have outputs : wave.stagedRegularOutputs side = group.stagedRegularOutputs side := by
        simp [made.outputs]
      rw [indices, bytes, outputs]
      exact (one.fits side).imp_right fun oversize => ⟨known group List.mem_cons_self, oversize⟩

/-- The waves of a plan list every action once, in order; they keep a directory change
together with what is under its path; each of them fits; and the totals of the plan are the
sums over its waves. -/
structure PlanCorrect (actions : Actions) (budgets : StagingBudgets) (plan : StagingWavePlan) :
    Prop where
  indices : plan.waves.flatMap StagingWave.actionIndices = List.range actions.length
  directories : ∀ i j action later, i ≤ j → actions[i]? = some action → actions[j]? = some later →
    actionHasDirectoryChange action → action.path <+: later.path →
    ∃ wave ∈ plan.waves, i ∈ wave.actionIndices ∧ j ∈ wave.actionIndices
  fits : ∀ wave ∈ plan.waves, ∀ side, WaveFits actions (budgets side) side wave
  bytes : ∀ side, plan.reconstructedBytes side =
    (plan.waves.map fun wave => wave.reconstructedBytes side).sum ∧
    plan.reconstructedBytes side < 2 ^ 64
  outputs : ∀ side, plan.stagedRegularOutputs side =
    (plan.waves.map fun wave => wave.stagedRegularOutputs side).sum ∧
    plan.stagedRegularOutputs side < 2 ^ 64

theorem sum_of_parts {α β : Type} {R : List α → β → Prop} {f : α → Nat} {g : β → Nat}
    (related : ∀ as b, R as b → g b = (as.map f).sum) {parts : List (List α)} {waves : List β}
    (made : List.Forall₂ R parts waves) : (waves.map g).sum = (parts.flatten.map f).sum := by
  induction made with
  | nil => rfl
  | cons head _ ih =>
    rw [List.map_cons, List.sum_cons, ih, related _ _ head, List.flatten_cons, List.map_append,
      List.sum_append]

theorem exists_related {α β : Type} {R : α → β → Prop} {l : List α} {m : List β} {a : α}
    (related : List.Forall₂ R l m) (mem : a ∈ l) : ∃ b ∈ m, R a b := by
  induction related with
  | nil => cases mem
  | cons head _ ih =>
    rcases List.mem_cons.mp mem with rfl | mem
    · exact ⟨_, List.mem_cons_self, head⟩
    · obtain ⟨b, found, here⟩ := ih mem
      exact ⟨b, List.mem_cons_of_mem _ found, here⟩

/-- Whenever the planner returns a plan, the plan is correct. -/
theorem planStagingWaves_correct {actions : Actions} {budgets : StagingBudgets}
    {plan : StagingWavePlan} (planned : planStagingWaves actions budgets = .ok plan) :
    PlanCorrect actions budgets plan := by
  obtain ⟨_, -, planned⟩ := bind_eq_ok.mp planned
  obtain ⟨_, -, planned⟩ := bind_eq_ok.mp planned
  obtain ⟨_, valid, planned⟩ := bind_eq_ok.mp planned
  obtain ⟨groups, grouped, planned⟩ := bind_eq_ok.mp planned
  obtain ⟨packing, packed, done⟩ := bind_eq_ok.mp planned
  cases done
  obtain ⟨sorted, -⟩ := validateStagingActions_spec valid
  obtain ⟨known, fits⟩ := stagingGroups_spec (List.drop_zero (l := actions)) grouped
  have spec : Packed budgets groups packing :=
    foldlM_invariant (packed_empty budgets) (fun _ _ _ _ => packGroup_spec) packed
  obtain ⟨parts, whole, made⟩ := spec.finish
  have indices : (packing.flush.waves).flatMap StagingWave.actionIndices =
      (dependencyGroups 0 actions).flatten := by
    have flat : ∀ {parts : List (List StagingDependencyGroup)} {waves : List StagingWave},
        List.Forall₂ (WaveOf budgets) parts waves →
        waves.flatMap StagingWave.actionIndices =
          parts.flatten.flatMap StagingDependencyGroup.actionIndices := by
      intro parts waves made
      induction made with
      | nil => rfl
      | cons head _ ih =>
        rw [List.flatMap_cons, ih, head.indices, List.flatten_cons, List.flatMap_append]
    rw [← known, ← whole]
    exact (flat made).trans List.flatMap_def
  refine ⟨?_, ?_, ?_, fun side => ⟨?_, (spec.bytes side).2⟩, fun side => ⟨?_, (spec.outputs side).2⟩⟩
  · rw [indices, flatten_dependencyGroups, List.range_eq_range']
  · intro i j action later order here there directory under
    obtain ⟨group, found, both⟩ :=
      @dependencyGroups_closed 0 _ sorted _ _ _ _ order here there directory under
    rw [Nat.zero_add, Nat.zero_add] at both
    rw [← known] at found
    obtain ⟨planned, mem, rfl⟩ := List.mem_map.mp found
    obtain ⟨part, partMem, inside⟩ := List.mem_flatten.mp (whole ▸ mem)
    obtain ⟨wave, waveMem, made⟩ := exists_related made partMem
    have inWave : ∀ index ∈ planned.actionIndices, index ∈ wave.actionIndices := by
      intro index mem
      rw [made.indices]
      exact List.mem_flatMap.mpr ⟨planned, inside, mem⟩
    exact ⟨wave, waveMem, inWave i both.1, inWave j both.2⟩
  · intro wave mem side
    obtain ⟨part, partMem, here⟩ := exists_related made.flip mem
    have inside : ∀ group ∈ part, group ∈ groups := fun group found =>
      whole ▸ List.mem_flatten_of_mem partMem found
    refine here.waveFits (fun group found => fits group (inside group found)) (fun group found => ?_) side
    rw [← known]
    exact List.mem_map_of_mem (inside group found)
  · exact (spec.bytes side).1.trans (whole ▸ (sum_of_parts (fun _ _ here => here.bytes side) made).symm)
  · exact (spec.outputs side).1.trans
      (whole ▸ (sum_of_parts (fun _ _ here => here.outputs side) made).symm)

/-- A new directory with a small file in it, and a large file. -/
def largeFileActions : Actions :=
  [.local (.added ⟨[.normal [100]], 0, 1, 1, 493, none, true, 0, none⟩),
    .local (.added ⟨[.normal [100], .normal [102]], 3, 1, 2, 420, none, false, 0, none⟩),
    .local (.added ⟨[.normal [103]], 12, 1, 3, 420, none, false, 0, none⟩)]

/-- The directory stays in one wave with its file, and the large file, which is over the
target, is staged alone. -/
theorem planStagingWaves_correct_largeFile :
    ∃ plan, planStagingWaves largeFileActions (fun _ => ⟨0, 20, 10, false⟩) = .ok plan ∧
      plan.waves.map StagingWave.actionIndices = [[0, 1], [2]] ∧
      PlanCorrect largeFileActions (fun _ => ⟨0, 20, 10, false⟩) plan := by
  have waves : (planStagingWaves largeFileActions fun _ => ⟨0, 20, 10, false⟩).map
      (fun plan => plan.waves.map StagingWave.actionIndices) = .ok [[0, 1], [2]] := by
    simp [largeFileActions, planStagingWaves, stagingGroups, groupRest, actionHasDirectoryChange,
      Action.change, Change.isDir, Action.path, Change.path, Path.startsWith]
    rfl
  cases planned : planStagingWaves largeFileActions fun _ => ⟨0, 20, 10, false⟩ with
  | error error =>
    rw [planned] at waves
    cases waves
  | ok plan =>
    rw [planned] at waves
    exact ⟨plan, rfl, Except.ok.inj waves, planStagingWaves_correct planned⟩

end Duet
