import Duet.Lib.Fallible
import Duet.Sync.Marker

/-!
# The slots of a marker

The five slots of a V3 marker are a journal of the phases of an attempt. What the loop over
the slots accepts is described by how many of them are applied.
-/

namespace Duet.Marker

open Lib
open ApplyAttemptPhase (preparing prepared committing committed stateSave finished)

/-! ## Texts of the slots -/

/-- Every byte is a printable ASCII character. -/
def Printable (text : Bytes) : Prop := ∀ byte ∈ text, 32 ≤ byte.toNat ∧ byte.toNat < 127

instance (text : Bytes) : Decidable (Printable text) :=
  List.decidableBAll (fun byte : UInt8 => 32 ≤ byte.toNat ∧ byte.toNat < 127) text

theorem Printable.append {front back : Bytes} (left : Printable front) (right : Printable back) :
    Printable (front ++ back) := by
  intro byte member
  rcases List.mem_append.mp member with member | member
  · exact left byte member
  · exact right byte member

theorem Printable.newline_notMem {text : Bytes} (printable : Printable text) :
    newline ∉ text := fun member => absurd (printable _ member).1 (by decide)

theorem printable_hex (width n : Nat) : Printable (hex width n) := by
  intro byte member
  simp only [hex, List.mem_map] at member
  obtain ⟨i, _, rfl⟩ := member
  have digit : ∀ d : Fin 16, 32 ≤ (hexDigit d).toNat ∧ (hexDigit d).toNat < 127 := by decide
  exact digit ⟨_, Nat.mod_lt _ (by decide)⟩

@[simp] theorem length_hex (width n : Nat) : (hex width n).length = width := by
  simp [hex]

theorem ApplyAttemptPhase.printable_asStr (phase : ApplyAttemptPhase) : Printable phase.asStr := by
  cases phase <;> decide

theorem printable_pendingValue (sequence : Nat) (phase : ApplyAttemptPhase) :
    Printable (phaseSlotV3PendingValue sequence phase) := by
  refine ((((printable_hex _ _).append ?_).append ?_).append ?_).append phase.printable_asStr
  all_goals decide

theorem length_pendingValue_le (sequence : Nat) (phase : ApplyAttemptPhase) :
    (phaseSlotV3PendingValue sequence phase).length ≤ 100 := by
  simp only [phaseSlotV3PendingValue, List.length_append, length_hex, List.length_replicate]
  cases phase <;> decide

section Slots

variable {blake2b : Bytes → Digest}

theorem printable_appliedValue (sequence : Nat) (previous : Digest) (attemptId : Bytes)
    (next : ApplyAttemptPhase) :
    Printable (phaseSlotV3AppliedValue blake2b sequence previous attemptId next) := by
  refine ((((printable_hex _ _).append ?_).append ?_).append ?_).append next.printable_asStr
  · decide
  · intro byte member
    obtain ⟨_, _, digit⟩ := List.mem_flatMap.mp member
    exact printable_hex _ _ _ digit
  · decide

/-- The applied line of a slot takes exactly the room of its pending line. -/
theorem length_appliedValue (sequence : Nat) (previous : Digest) (attemptId : Bytes)
    (next : ApplyAttemptPhase) :
    (phaseSlotV3AppliedValue blake2b sequence previous attemptId next).length =
      (phaseSlotV3PendingValue sequence next).length := by
  simp only [phaseSlotV3AppliedValue, phaseSlotV3PendingValue, List.length_append, length_hex,
    List.length_flatMap, List.length_replicate, List.map_const', List.sum_replicate_nat,
    Vector.length_toList]
  rfl

theorem appliedValue_ne_pendingValue (sequence : Nat) (previous : Digest) (attemptId : Bytes)
    (next : ApplyAttemptPhase) :
    phaseSlotV3AppliedValue blake2b sequence previous attemptId next ≠
      phaseSlotV3PendingValue sequence next := by
  intro same
  simp only [phaseSlotV3AppliedValue, phaseSlotV3PendingValue, List.append_assoc,
    List.append_cancel_left_eq] at same
  -- the two differ in the byte behind the first space
  have second := congrArg (fun text => text[1]?) same
  revert second
  simp [ascii]

end Slots

/-! ## The values of five accepted slots

A journal is given by how many of its slots are applied. -/

/-- The phase of a marker with so many applied slots. -/
def phaseAfter (applied : Nat) : ApplyAttemptPhase :=
  (preparing :: v3Phases)[applied]?.getD finished

section Journal

variable (blake2b : Bytes → Digest) (attemptId : Bytes)

/-- The digest behind so many applied slots, from the slot at an index on. -/
def digestAfter (index : Nat) (previous : Digest) : List ApplyAttemptPhase → Nat → Digest
  | phase :: phases, applied + 1 =>
    digestAfter (index + 1) (phaseSlotV3Digest blake2b index previous attemptId phase) phases applied
  | _, _ => previous

/-- The values of the slots from an index on, the first of them applied. -/
def slotValues (index : Nat) (previous : Digest) : List ApplyAttemptPhase → Nat → List Bytes
  | [], _ => []
  | phase :: phases, 0 =>
    phaseSlotV3PendingValue index phase :: slotValues (index + 1) previous phases 0
  | phase :: phases, applied + 1 =>
    phaseSlotV3AppliedValue blake2b index previous attemptId phase ::
      slotValues (index + 1) (phaseSlotV3Digest blake2b index previous attemptId phase) phases applied

/-- The digest the slots of a fresh marker are chained to. -/
def noDigest : Digest := Vector.replicate 32 0

/-- The values of the five slots of a journal. -/
def journalValues (applied : Nat) : List Bytes :=
  slotValues blake2b attemptId 0 noDigest v3Phases applied

/-- The digest of the last applied slot of a journal. -/
def journalDigest (applied : Nat) : Digest :=
  digestAfter blake2b attemptId 0 noDigest v3Phases applied

variable {blake2b attemptId} {index : Nat} {previous : Digest} {phases : List ApplyAttemptPhase}

@[simp] theorem length_slotValues (applied : Nat) :
    (slotValues blake2b attemptId index previous phases applied).length = phases.length := by
  induction phases generalizing index previous applied with
  | nil => rfl
  | cons phase phases ih => cases applied <;> simp [slotValues, ih]

@[simp] theorem length_journalValues (applied : Nat) :
    (journalValues blake2b attemptId applied).length = 5 := by
  simp [journalValues, v3Phases]

/-- Every value of a journal is a pending or an applied value. -/
theorem forall_slotValues {P : Bytes → Prop}
    (pending : ∀ index phase, P (phaseSlotV3PendingValue index phase))
    (isApplied : ∀ index previous phase,
      P (phaseSlotV3AppliedValue blake2b index previous attemptId phase)) {applied : Nat} :
    ∀ value ∈ slotValues blake2b attemptId index previous phases applied, P value := by
  induction phases generalizing index previous applied with
  | nil => simp [slotValues]
  | cons phase phases ih =>
    cases applied with
    | zero => exact List.forall_mem_cons.mpr ⟨pending _ _, ih⟩
    | succ applied => exact List.forall_mem_cons.mpr ⟨isApplied _ _ _, ih⟩

theorem printable_slotValues {applied : Nat} :
    ∀ value ∈ slotValues blake2b attemptId index previous phases applied, Printable value :=
  forall_slotValues printable_pendingValue fun index previous phase =>
    printable_appliedValue index previous attemptId phase

theorem length_slotValues_le {applied : Nat} :
    ∀ value ∈ slotValues blake2b attemptId index previous phases applied, value.length ≤ 100 := by
  refine forall_slotValues length_pendingValue_le fun index previous phase => ?_
  rw [length_appliedValue]
  exact length_pendingValue_le index phase

/-- Without applied slots the digest behind them plays no part. -/
theorem slotValues_zero (other : Digest) :
    slotValues blake2b attemptId index previous phases 0 =
      slotValues blake2b attemptId index other phases 0 := by
  induction phases generalizing index with
  | nil => rfl
  | cons phase phases ih => simp [slotValues, ih]

/-- The first slot that is not applied holds its pending value. -/
theorem slotValues_getElem? {applied : Nat} (small : applied < phases.length) :
    (slotValues blake2b attemptId index previous phases applied)[applied]? =
      some (phaseSlotV3PendingValue (index + applied) phases[applied]) := by
  induction phases generalizing index previous applied with
  | nil => simp at small
  | cons phase phases ih =>
    cases applied with
    | zero => simp [slotValues]
    | succ applied =>
      have rest := @ih (index + 1) (phaseSlotV3Digest blake2b index previous attemptId phase)
        applied (by simpa using small)
      simpa [slotValues, Nat.add_assoc, Nat.add_comm 1] using rest

/-- Applying the first pending slot. -/
theorem slotValues_set_applied {applied : Nat} (small : applied < phases.length) :
    (slotValues blake2b attemptId index previous phases applied).set applied
        (phaseSlotV3AppliedValue blake2b (index + applied)
          (digestAfter blake2b attemptId index previous phases applied) attemptId phases[applied]) =
      slotValues blake2b attemptId index previous phases (applied + 1) := by
  induction phases generalizing index previous applied with
  | nil => simp at small
  | cons phase phases ih =>
    cases applied with
    | zero =>
      simpa [slotValues, digestAfter] using slotValues_zero _
    | succ applied =>
      have rest := @ih (index + 1) (phaseSlotV3Digest blake2b index previous attemptId phase)
        applied (by simpa using small)
      simpa [slotValues, digestAfter, Nat.add_assoc, Nat.add_comm 1] using rest

/-- Whatever stands in the first pending slot: when the slots are a journal again, it is
the pending value of that slot or its applied value. -/
theorem slotValues_set_cases {applied other : Nat} {value : Bytes}
    (small : applied < phases.length) (otherSmall : other ≤ phases.length)
    (same : (slotValues blake2b attemptId index previous phases applied).set applied value =
      slotValues blake2b attemptId index previous phases other) :
    other = applied ∨ other = applied + 1 ∧
      value = phaseSlotV3AppliedValue blake2b (index + applied)
        (digestAfter blake2b attemptId index previous phases applied) attemptId phases[applied] := by
  induction phases generalizing index previous applied other with
  | nil => simp at small
  | cons phase phases ih =>
    cases applied with
    | zero =>
      cases other with
      | zero => exact .inl rfl
      | succ other =>
        simp only [slotValues, List.set_cons_zero, List.cons.injEq] at same
        obtain ⟨here, rest⟩ := same
        right
        refine ⟨?_, by simpa [digestAfter] using here⟩
        -- a second applied slot would stand where the first pending one stood
        cases other with
        | zero => rfl
        | succ other =>
          cases phases with
          | nil => simp at otherSmall
          | cons second phases =>
            simp only [slotValues, List.cons.injEq] at rest
            exact absurd rest.1.symm (appliedValue_ne_pendingValue _ _ _ _)
    | succ applied =>
      cases other with
      | zero =>
        simp only [slotValues, List.set_cons_succ, List.cons.injEq] at same
        exact absurd same.1 (appliedValue_ne_pendingValue _ _ _ _)
      | succ other =>
        simp only [slotValues, List.set_cons_succ, List.cons.injEq, true_and] at same
        have rest := ih (by simpa using small) (by simpa using otherSmall) same
        simpa [digestAfter, Nat.add_assoc, Nat.add_comm 1] using rest

theorem digestAfter_succ {applied : Nat} (small : applied < phases.length) :
    digestAfter blake2b attemptId index previous phases (applied + 1) =
      phaseSlotV3Digest blake2b (index + applied)
        (digestAfter blake2b attemptId index previous phases applied) attemptId phases[applied] := by
  induction phases generalizing index previous applied with
  | nil => simp at small
  | cons phase phases ih =>
    cases applied with
    | zero => cases phases <;> rfl
    | succ applied =>
      have rest := @ih (index + 1) (phaseSlotV3Digest blake2b index previous attemptId phase)
        applied (by simpa using small)
      simpa [digestAfter, Nat.add_assoc, Nat.add_comm 1] using rest

/-- The phase that follows is the one of the first pending slot. -/
theorem nextStagedPhase_phaseAfter {applied : Nat} (small : applied ≤ v3Phases.length) :
    nextStagedPhase (phaseAfter applied) = v3Phases[applied]? := by
  have all : ∀ applied : Fin 6, nextStagedPhase (phaseAfter applied) = v3Phases[applied.val]? := by
    decide
  exact all ⟨applied, Nat.lt_succ_of_le small⟩

/-! ## The loop over the slots -/

/-- Behind a pending slot the loop accepts pending slots only. -/
theorem slotStep_pending {s t : SlotState} {value : Bytes} {phase : ApplyAttemptPhase}
    (seen : s.pendingSeen = true) :
    slotStep blake2b attemptId s ((value, phase), index) = .ok t ↔
      value = phaseSlotV3PendingValue index phase ∧ t = s := by
  have keep : { s with pendingSeen := true } = s := by cases s; simp_all
  simp only [slotStep, seen, if_true, keep]
  split
  · next pending => simp [pending, eq_comm]
  · next pending => split <;> simp [pending]

theorem foldlM_slotStep_pending {s t : SlotState} {slots : List Bytes} (previous : Digest)
    (seen : s.pendingSeen = true) (sameLength : slots.length = phases.length) :
    ((slots.zip phases).zipIdx index).foldlM (slotStep blake2b attemptId) s = .ok t ↔
      slots = slotValues blake2b attemptId index previous phases 0 ∧ t = s := by
  induction phases generalizing index slots with
  | nil =>
    cases slots with
    | nil => simp [slotValues, eq_comm, pure, Except.pure]
    | cons _ _ => simp at sameLength
  | cons phase phases ih =>
    cases slots with
    | nil => simp at sameLength
    | cons value slots =>
      rw [List.zip_cons_cons, List.zipIdx_cons, foldlM_cons_eq_ok]
      simp only [slotStep_pending seen, slotValues, List.cons.injEq]
      constructor
      · intro ⟨u, ⟨pending, same⟩, rest⟩
        rw [same, ih (by simpa using sameLength)] at rest
        exact ⟨⟨pending, rest.1⟩, rest.2⟩
      · intro ⟨⟨pending, rest⟩, same⟩
        exact ⟨s, ⟨pending, rfl⟩, (ih (by simpa using sameLength)).mpr ⟨rest, same⟩⟩

/-- The loop over the slots accepts exactly the journals, and finds how many slots of one
are applied. -/
theorem foldlM_slotStep {s t : SlotState} {slots : List Bytes}
    (fresh : s.pendingSeen = false) (sameLength : slots.length = phases.length) :
    ((slots.zip phases).zipIdx index).foldlM (slotStep blake2b attemptId) s = .ok t ↔
      ∃ applied ≤ phases.length,
        slots = slotValues blake2b attemptId index s.appliedDigest phases applied ∧
        t = {
          latestPhase := (s.latestPhase :: phases)[applied]?.getD finished
          appliedDigest := digestAfter blake2b attemptId index s.appliedDigest phases applied
          appliedSlots := s.appliedSlots + applied
          pendingSeen := decide (applied < phases.length) } := by
  induction phases generalizing index slots s with
  | nil =>
    cases slots with
    | nil =>
      cases s
      simp_all [slotValues, digestAfter, eq_comm, pure, Except.pure]
    | cons _ _ => simp at sameLength
  | cons phase phases ih =>
    cases slots with
    | nil => simp at sameLength
    | cons value slots =>
      have restLength : slots.length = phases.length := by simpa using sameLength
      -- the state behind an applied slot
      have later := @ih (index + 1) {
        latestPhase := phase
        appliedDigest := phaseSlotV3Digest blake2b index s.appliedDigest attemptId phase
        appliedSlots := s.appliedSlots + 1
        pendingSeen := s.pendingSeen } slots fresh restLength
      rw [List.zip_cons_cons, List.zipIdx_cons, foldlM_cons_eq_ok]
      constructor
      · intro ⟨u, step, rest⟩
        simp only [slotStep] at step
        split at step
        · next pending =>
          cases step
          rw [foldlM_slotStep_pending s.appliedDigest rfl restLength] at rest
          refine ⟨0, by simp, ?_, ?_⟩
          · simp [slotValues, pending, rest.1]
          · simp [digestAfter, rest.2]
        · split at step
          · next applied =>
            rw [if_neg (by simp [fresh])] at step
            cases step
            obtain ⟨more, small, same, done⟩ := later.mp rest
            refine ⟨more + 1, by simpa using small, ?_, ?_⟩
            · simp [slotValues, applied, same]
            · rw [done]
              cases more with
              | zero => simp [digestAfter]
              | succ more =>
                simp [digestAfter, Nat.add_assoc, Nat.add_comm 1]
                omega
          · cases step
      · intro ⟨applied, small, same, done⟩
        cases applied with
        | zero =>
          simp only [slotValues, List.cons.injEq] at same
          refine ⟨{ s with pendingSeen := true }, by simp [slotStep, same.1], ?_⟩
          rw [foldlM_slotStep_pending s.appliedDigest rfl restLength]
          exact ⟨same.2, by simp [done, digestAfter]⟩
        | succ applied =>
          simp only [slotValues, List.cons.injEq] at same
          refine ⟨_, ?_, later.mpr ⟨applied, by simpa using small, same.2, ?_⟩⟩
          · simp [slotStep, same.1, appliedValue_ne_pendingValue, fresh]
          · rw [done]
            cases applied with
            | zero => simp [digestAfter]
            | succ applied =>
              simp [digestAfter, Nat.add_assoc, Nat.add_comm 1]
              omega

/-! ## The end of the parser -/

/-- What a V3 inventory must have for the marker it makes. -/
theorem finishInventory_v3 {s : Inventory} {marker : V2ApplyAttemptMarker} :
    finishInventory blake2b .v3 s = .ok marker ↔
      ∃ attemptId applied, s.records.attemptId = some attemptId ∧ attemptId ≠ [] ∧
        s.records.phase = some preparing ∧ applied ≤ 5 ∧
        s.slots = journalValues blake2b attemptId applied ∧
        marker = {
          version := .v3
          attemptId
          phase := phaseAfter applied
          stageParent := s.records.stageParent
          stage := s.records.stage
          entries := s.records.entries
          appliedSlots := applied
          appliedDigest := journalDigest blake2b attemptId applied
          slotOffsets := s.slotOffsets } := by
  rcases attempt : s.records.attemptId with _ | attemptId
  · simp [finishInventory, attempt]
  rcases initial : s.records.phase with _ | phase
  · by_cases empty : attemptId = [] <;> simp [finishInventory, attempt, initial, empty]
  by_cases empty : attemptId = []
  · simp [finishInventory, attempt, empty]
  by_cases start : phase = preparing
  swap
  · simp [finishInventory, attempt, initial, empty, start]
  by_cases five : s.slots.length = v3Phases.length
  swap
  · have none : ∀ applied, s.slots ≠ journalValues blake2b attemptId applied := by
      intro applied same
      exact five (by simp [same, v3Phases])
    simp [finishInventory, attempt, initial, empty, start, five, none]
  simp only [finishInventory, attempt, initial, empty, start, five, ne_eq, not_true_eq_false,
    and_false, if_false, bind_eq_ok, Option.some.injEq, true_and]
  constructor
  · intro ⟨loop, slots, done⟩
    obtain ⟨applied, small, same, rfl⟩ := (foldlM_slotStep rfl five).mp slots
    cases done
    exact ⟨attemptId, applied, rfl, empty, small, same, by simp [phaseAfter, journalDigest, noDigest]⟩
  · intro ⟨_, applied, rfl, _, small, same, done⟩
    refine ⟨_, (foldlM_slotStep rfl five).mpr ⟨applied, small, same, rfl⟩, ?_⟩
    simp [done, phaseAfter, journalDigest, noDigest]

end Journal

end Duet.Marker
