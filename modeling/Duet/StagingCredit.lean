import Duet.Sync.StagingSpace

/-!
# The credit of the staging space

The checks that pass between two refreshes spend no more than the first refresh found above the
reserve. What carries this is that the charges and the credit that is left stay below it together.
-/

namespace Duet

open Lib

/-! ## Words -/

/-- A share in basis points is always computed, and it is exact up to the whole. -/
theorem basisPointsOf_eq (total : UInt64) (points : UInt16) :
    ∃ share, basisPointsOf total points = some share ∧
      (points.toNat ≤ 10000 → share.toNat = total.toNat * points.toNat / 10000) := by
  have total_lt := total.toNat_lt
  have points_lt := points.toNat_lt
  have product : total.toNat * points.toNat < 2 ^ 64 * 2 ^ 16 :=
    Nat.mul_lt_mul_of_lt_of_le total_lt points_lt.le (by decide)
  refine ⟨_, if_pos (Nat.lt_trans product (by decide)), fun whole => ?_⟩
  have share : total.toNat * points.toNat / 10000 < 2 ^ 64 := by
    have most := Nat.mul_le_mul_left total.toNat whole
    omega
  exact UInt64.toNat_ofNat_of_lt' share

namespace StagingPolicy

variable (policy : StagingPolicy) (filesystem : StagingFilesystemInfo)

theorem exists_reserveBytes : ∃ reserve, policy.reserveBytes filesystem = some reserve := by
  unfold reserveBytes
  cases policy.reserve with
  | bytes bytes => exact ⟨bytes, rfl⟩
  | basisPoints points =>
    obtain ⟨share, computed, -⟩ := basisPointsOf_eq filesystem.totalBytes points
    exact ⟨share, computed⟩

/-- The budget of a policy is always computed, and the planner accepts it. -/
theorem exists_budget : ∃ budget, policy.budget filesystem = some budget ∧
    ∀ side, validateStagingBudget side budget.toStagingBudget = .ok () := by
  obtain ⟨reserve, kept⟩ := policy.exists_reserveBytes filesystem
  unfold budget
  rw [kept]
  refine ⟨_, rfl, fun side => ?_⟩
  unfold validateStagingBudget Budget.toStagingBudget
  apply if_neg
  cases policy.limitBytes with
  | none => simp
  | some limit =>
    simp only [Option.elim_some, toNat_min]
    omega

end StagingPolicy

section Charges

variable (requested : UInt64) {block : UInt64}

/-- Rounding gives a word that holds the request. -/
theorem exists_roundBlocks (positive : 1 ≤ block.toNat) :
    ∃ rounded, roundBlocks requested block = some rounded ∧ requested.toNat ≤ rounded.toNat := by
  have requested_lt := requested.toNat_lt
  have one_le : 1 ≤ block := UInt64.le_iff_toNat_le.mpr (show (1 : UInt64).toNat ≤ _ from positive)
  obtain ⟨slack, less⟩ : ∃ slack, checkedSub block 1 = some slack := ⟨block - 1, if_pos one_le⟩
  have slack_add : slack.toNat + 1 = block.toNat := checkedSub_eq_some.mp less
  unfold roundBlocks
  rw [less, Option.bind_eq_bind, Option.bind_some]
  cases sum : checkedAdd requested slack with
  | none => exact ⟨-1, rfl, Nat.le_of_lt_succ requested_lt⟩
  | some bytes =>
    have bytes_eq := checkedAdd_eq_some.mp sum
    obtain ⟨blocks, divided⟩ : ∃ blocks, checkedDiv bytes block = some blocks :=
      ⟨bytes / block, if_neg fun zero => by simp [zero] at positive⟩
    have blocks_eq := (checkedDiv_eq_some.mp divided).2
    have enough : requested.toNat ≤ blocks.toNat * block.toNat := by
      have remainder := Nat.mod_lt bytes.toNat positive
      have division := Nat.div_add_mod' bytes.toNat block.toNat
      rw [blocks_eq]
      omega
    dsimp only
    rw [divided, Option.bind_some]
    cases product : checkedMul blocks block with
    | none => exact ⟨-1, rfl, Nat.le_of_lt_succ requested_lt⟩
    | some rounded => exact ⟨rounded, rfl, (checkedMul_eq_some.mp product) ▸ enough⟩

/-- A charge holds the request and at least one block. -/
theorem exists_roundStagingCharge (positive : 1 ≤ block.toNat) :
    ∃ rounded charge, roundBlocks requested block = some rounded ∧
      roundStagingCharge requested block = some charge ∧
      charge.toNat = max rounded.toNat block.toNat ∧ requested.toNat ≤ charge.toNat := by
  obtain ⟨rounded, found, enough⟩ := exists_roundBlocks requested positive
  have value : (max rounded block).toNat = max rounded.toNat block.toNat := toNat_max rounded block
  refine ⟨rounded, max rounded block, found, ?_, value, ?_⟩
  · unfold roundStagingCharge
    rw [found]
    rfl
  · rw [value]
    omega

end Charges

/-! ## One call -/

namespace StagingSpaceMonitor

variable {ε : Type} (policy : StagingPolicy)

/-- The bytes above the reserve that a report leaves. -/
def aboveReserve (filesystem : StagingFilesystemInfo) : Nat :=
  ((stagingWriteCapacity policy filesystem 0).map (·.availableAboveReserve.toNat)).getD 0

/-- The report that a call measures with; a check whose charge is covered needs none. -/
def Call.measured (call : Call ε) (state : StagingSpaceMonitorState) :
    Option StagingFilesystemInfo :=
  match call with
  | .check _ requested report => if spend requested state = some none then report.toOption else none
  | .recheck _ report => report.toOption

/-- The charge of a check that was answered, in the blocks of the state after it. -/
def Event.charge (event : Event ε) : Option UInt64 :=
  match event.call with
  | .check _ requested _ => roundStagingCharge requested event.after.blockSize
  | .recheck _ _ => none

/-- What the last successful refresh found above the reserve, and the charges of the checks that
passed since. -/
structure Ledger where
  available : Nat := 0
  charges : List Nat := []

def Ledger.record (ledger : Ledger) (event : Event ε) : Ledger :=
  match event.answer with
  | .error _ => ledger
  | .ok _ =>
    match event.call.measured event.before with
    | some filesystem => {
        available := aboveReserve policy filesystem
        charges := event.charge.toList.map UInt64.toNat }
    | none => { ledger with charges := ledger.charges ++ event.charge.toList.map UInt64.toNat }

def ledger (events : List (Event ε)) : Ledger := events.foldl (Ledger.record policy) {}

/-- The charges and the credit that is left stay within what the refresh found. -/
def Ledger.Covers (ledger : Ledger) (state : StagingSpaceMonitorState) : Prop :=
  ledger.charges.sum + state.remainingCredit.toNat ≤ ledger.available

/-- A check that passed has a charge that holds its request. -/
def Event.Charged (event : Event ε) : Prop :=
  ∀ path requested report, event.call = .check path requested report →
    ∃ charge, event.charge = some charge ∧ requested.toNat ≤ charge.toNat

/-- The ways in which a call ends. -/
inductive Event.Answered : Event ε → Prop
  | refused {call : Call ε} {state : StagingSpaceMonitorState} {error : StagingSpaceError ε} :
    Answered ⟨call, state, .error error, state⟩
  | spent {path : Path} {requested charge : UInt64} {report : Except ε StagingFilesystemInfo}
    {state after : StagingSpaceMonitorState}
    (unmeasured : (Call.check path requested report).measured state = none)
    (charged : roundStagingCharge requested after.blockSize = some charge)
    (enough : requested.toNat ≤ charge.toNat)
    (paid : charge.toNat + after.remainingCredit.toNat = state.remainingCredit.toNat) :
    Answered ⟨.check path requested report, state, .ok (), after⟩
  | refreshed {call : Call ε} {state after : StagingSpaceMonitorState}
    {filesystem : StagingFilesystemInfo} (measured : call.measured state = some filesystem)
    (charged : Event.Charged ⟨call, state, .ok (), after⟩)
    (within : ((Event.charge ⟨call, state, .ok (), after⟩).toList.map UInt64.toNat).sum +
      after.remainingCredit.toNat ≤ aboveReserve policy filesystem) :
    Answered ⟨call, state, .ok (), after⟩

theorem aboveReserve_eq {filesystem : StagingFilesystemInfo} {requested : UInt64}
    {capacity : StagingWriteCapacity}
    (computed : stagingWriteCapacity policy filesystem requested = some capacity) :
    aboveReserve policy filesystem = capacity.availableAboveReserve.toNat := by
  have positive : 1 ≤ (max filesystem.blockSize 1).toNat := by
    rw [toNat_max]
    exact Nat.le_max_right ..
  obtain ⟨rounded, rounds, -⟩ := exists_roundBlocks requested positive
  obtain ⟨none_rounded, none_rounds, -⟩ := exists_roundBlocks 0 positive
  obtain ⟨budget, budgeted, -⟩ := policy.exists_budget filesystem
  unfold stagingWriteCapacity at computed
  unfold aboveReserve stagingWriteCapacity
  simp only [rounds, budgeted, Option.bind_eq_bind, Option.bind_some, Option.some.injEq] at computed
  simp only [none_rounds, budgeted, Option.bind_eq_bind, Option.bind_some, Option.map_some,
    Option.getD_some, ← computed]

/-- A refresh refuses and leaves the state alone, or its charge and the new credit fit into what
the report leaves above the reserve. -/
theorem refresh_cases (path : Path) (requested : UInt64) (filesystem : StagingFilesystemInfo)
    (state : StagingSpaceMonitorState) :
    (∃ error : StagingSpaceError ε, refreshWithFilesystemLocked policy path requested filesystem
      state = some (.error error, state)) ∨
    ∃ after charge, refreshWithFilesystemLocked policy path requested filesystem state =
        some ((.ok (), after) : Answer ε) ∧
      roundStagingCharge requested after.blockSize = some charge ∧
      requested.toNat ≤ charge.toNat ∧
      charge.toNat + after.remainingCredit.toNat ≤ aboveReserve policy filesystem := by
  have positive : 1 ≤ (max filesystem.blockSize 1).toNat := by
    rw [toNat_max]
    exact Nat.le_max_right ..
  obtain ⟨rounded, charge, rounds, charges, charge_eq, enough⟩ :=
    exists_roundStagingCharge requested positive
  obtain ⟨budget, budgeted, -⟩ := policy.exists_budget filesystem
  have computed : ∃ capacity, stagingWriteCapacity policy filesystem requested = some capacity ∧
      capacity.requiredBytes = saturatingAdd64 rounded (max filesystem.blockSize 1) := by
    unfold stagingWriteCapacity
    simp only [rounds, budgeted, Option.bind_eq_bind, Option.bind_some]
    exact ⟨_, rfl, rfl⟩
  obtain ⟨capacity, computed, required⟩ := computed
  have above := aboveReserve_eq policy computed
  unfold refreshWithFilesystemLocked
  simp only [charges, computed, Option.bind_eq_bind, Option.bind_some]
  split
  · exact .inl ⟨_, rfl⟩
  · next fits =>
    refine .inr ⟨_, charge, rfl, charges, enough, ?_⟩
    -- The charge is at most the required bytes, also where their sum stays at the largest word.
    have fits := mt UInt64.lt_iff_toNat_lt.mpr fits
    have rounded_lt := rounded.toNat_lt
    have block_lt := (max filesystem.blockSize 1).toNat_lt
    rw [required, toNat_saturatingAdd64] at fits
    rw [toNat_saturatingSub64, toNat_min, toNat_max, toNat_saturatingSub64, above, charge_eq]
    omega

/-- Spending takes the charge from the credit. -/
theorem spend_cases (requested : UInt64) (state : StagingSpaceMonitorState) :
    spend requested state = some none ∨
    ∃ after charge, spend requested state = some (some after) ∧
      roundStagingCharge requested after.blockSize = some charge ∧
      requested.toNat ≤ charge.toNat ∧
      charge.toNat + after.remainingCredit.toNat = state.remainingCredit.toNat := by
  unfold spend
  split
  · next measured =>
    have positive : 1 ≤ state.blockSize.toNat := by
      have differs : state.blockSize.toNat ≠ 0 := fun zero =>
        measured (UInt64.toNat_inj.mp (by simpa using zero))
      omega
    obtain ⟨rounded, charge, -, charges, -, enough⟩ :=
      exists_roundStagingCharge requested positive
    rw [charges, Option.bind_eq_bind, Option.bind_some]
    split
    · next covered =>
      obtain ⟨rest, less⟩ : ∃ rest, checkedSub state.remainingCredit charge = some rest :=
        ⟨_, if_pos covered⟩
      have rest_add := checkedSub_eq_some.mp less
      rw [less]
      exact .inr ⟨_, charge, rfl, charges, enough, by simpa [Nat.add_comm] using rest_add⟩
    · exact .inl rfl
  · exact .inl rfl

/-- A call that asks for a report ends as its refresh does. -/
theorem refreshed_cases {call : Call ε} {state : StagingSpaceMonitorState} (path : Path)
    (requested : UInt64) (report : Except ε StagingFilesystemInfo)
    (performs : call.perform policy state = refreshLocked policy path requested report state)
    (measured : call.measured state = report.toOption)
    (charges : ∀ after charge, roundStagingCharge requested after.blockSize = some charge →
      requested.toNat ≤ charge.toNat →
      Event.Charged ⟨call, state, .ok (), after⟩ ∧
        ((Event.charge ⟨call, state, .ok (), after⟩).toList.map UInt64.toNat).sum ≤ charge.toNat) :
    ∃ answer after, call.perform policy state = some (answer, after) ∧
      Event.Answered policy ⟨call, state, answer, after⟩ := by
  rw [performs]
  cases report with
  | error error => exact ⟨_, _, rfl, .refused⟩
  | ok filesystem =>
    have cases := @refresh_cases ε policy path requested filesystem state
    rcases cases with ⟨error, refused⟩ | ⟨after, charge, passed, charged, enough, within⟩
    · exact ⟨_, _, refused, .refused⟩
    · obtain ⟨holds, most⟩ := charges after charge charged enough
      exact ⟨_, _, passed, .refreshed measured holds (by omega)⟩

/-- Every call is answered in one of the ways. -/
theorem exists_answer (call : Call ε) (state : StagingSpaceMonitorState) :
    ∃ answer after, call.perform policy state = some (answer, after) ∧
      Event.Answered policy ⟨call, state, answer, after⟩ := by
  cases call with
  | check path requested report =>
    rcases spend_cases requested state with
      uncovered | ⟨after, charge, spent, charged, enough, paid⟩
    · apply refreshed_cases policy path requested report
      · simp [Call.perform, check, uncovered]
      · simp [Call.measured, uncovered]
      · intro after charge charged enough
        refine ⟨fun path' requested' report' same => ?_, ?_⟩
        · cases same
          exact ⟨charge, charged, enough⟩
        · simp [Event.charge, charged]
    · refine ⟨.ok (), after, ?_, .spent ?_ charged enough paid⟩
      · simp [Call.perform, check, spent]
      · simp [Call.measured, spent]
  | recheck path report =>
    apply refreshed_cases policy path 0 report rfl rfl
    intro after charge charged enough
    refine ⟨?_, Nat.zero_le _⟩
    intro path' requested' report' same
    cases same

/-- The books stay balanced over a call. -/
theorem Ledger.Covers.record {event : Event ε} (answered : event.Answered policy) {ledger : Ledger}
    (covers : ledger.Covers event.before) : (ledger.record policy event).Covers event.after := by
  cases answered with
  | refused => exact covers
  | spent unmeasured charged enough paid =>
    unfold Covers at covers ⊢
    simp only [Ledger.record, unmeasured, Event.charge, charged, Option.toList_some, List.map_cons,
      List.map_nil, List.sum_append, List.sum_singleton] at covers ⊢
    omega
  | refreshed measured charged within =>
    unfold Covers
    simpa only [Ledger.record, measured] using within

theorem Event.Answered.after_eq {event : Event ε} (answered : event.Answered policy)
    {error : StagingSpaceError ε} (refused : event.answer = .error error) :
    event.after = event.before := by
  cases answered with
  | refused => rfl
  | spent | refreshed => cases refused

theorem Event.Answered.charged {event : Event ε} (answered : event.Answered policy)
    (passed : event.answer = .ok ()) : event.Charged := by
  cases answered with
  | refused => cases passed
  | spent unmeasured charged enough paid =>
    intro path requested report same
    cases same
    exact ⟨_, charged, enough⟩
  | refreshed measured charged within => exact charged

/-! ## Runs -/

/-- The calls of a run are all answered, and the books stay balanced from one to the next. -/
theorem exists_events (calls : List (Call ε)) (state : StagingSpaceMonitorState) :
    ∃ done, events policy state calls = some done ∧ (∀ event ∈ done, event.Answered policy) ∧
      ∀ (books : Ledger), books.Covers state → ∀ front, front <+: done →
        (front.foldl (Ledger.record policy) books).charges.sum ≤
          (front.foldl (Ledger.record policy) books).available := by
  induction calls generalizing state with
  | nil =>
    refine ⟨[], rfl, fun event mem => absurd mem List.not_mem_nil, ?_⟩
    intro books covers front isFront
    rw [List.prefix_nil.mp isFront]
    exact Nat.le_trans (Nat.le_add_right ..) covers
  | cons call calls ih =>
    obtain ⟨answer, after, performed, answered⟩ := exists_answer policy call state
    obtain ⟨later, run, all, balanced⟩ := ih after
    refine ⟨⟨call, state, answer, after⟩ :: later, ?_, List.forall_mem_cons.mpr ⟨answered, all⟩, ?_⟩
    · unfold events
      simp [performed, run]
    · intro books covers front isFront
      rcases List.prefix_cons_iff.mp isFront with rfl | ⟨front', rfl, isFront'⟩
      · exact Nat.le_trans (Nat.le_add_right ..) covers
      · exact balanced _ (covers.record policy answered) front' isFront'

/-- Whatever the policy keeps, the calls ask for and the filesystem reports: no arithmetic fails, a
refusal changes nothing, a check that passes is charged at least what it asked for, and at any time
the charges since the last successful refresh fit into what that refresh found above the
reserve. -/
theorem charges_le_available (calls : List (Call ε)) :
    (∀ points, policy.reserve = .basisPoints points → points.toNat ≤ 10000 → ∀ filesystem,
      ∃ reserve, policy.reserveBytes filesystem = some reserve ∧
        reserve.toNat = filesystem.totalBytes.toNat * points.toNat / 10000) ∧
    ∃ done, events policy {} calls = some done ∧
      (∀ event ∈ done, (∀ error, event.answer = .error error → event.after = event.before) ∧
        (event.answer = .ok () → event.Charged)) ∧
      ∀ front, front <+: done →
        (ledger policy front).charges.sum ≤ (ledger policy front).available := by
  refine ⟨?_, ?_⟩
  · intro points keeps whole filesystem
    obtain ⟨share, computed, exactly⟩ := basisPointsOf_eq filesystem.totalBytes points
    refine ⟨share, ?_, exactly whole⟩
    unfold StagingPolicy.reserveBytes
    rw [keeps]
    exact computed
  · obtain ⟨done, run, answered, balanced⟩ := exists_events policy calls {}
    refine ⟨done, run, fun event mem => ?_, fun front => balanced {} (Nat.le_refl 0) front⟩
    exact ⟨fun error => (answered event mem).after_eq policy, (answered event mem).charged policy⟩

end StagingSpaceMonitor

end Duet
