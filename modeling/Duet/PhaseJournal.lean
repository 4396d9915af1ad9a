import Duet.Lib.Steps
import Duet.Sync.MarkerTransition

/-!
# Integrity of the phase journal

No torn write of a slot makes a marker report a phase that was not made durable, and over
any run of transitions, complete or torn, the phase of a marker moves forward one step at a
time.
-/

namespace Duet.Marker

open Lib Relation
open ApplyAttemptPhase (preparing prepared committing committed stateSave finished)

/-- How far a phase is. -/
def ApplyAttemptPhase.rank : ApplyAttemptPhase → Nat
  | preparing => 0
  | prepared => 1
  | committing => 2
  | committed => 3
  | stateSave => 4
  | finished => 5

theorem rank_of_follows {phase next : ApplyAttemptPhase}
    (follows : nextStagedPhase phase = some next) : next.rank = phase.rank + 1 := by
  cases phase <;> cases follows <;> rfl

/-! ## Runs of transitions -/

/-- One call that passed the checks before its write, on contents of which any part of that
write reached the disk. -/
def SlotUpdate (blake2b : Bytes → Digest) (contents updated : Bytes) : Prop :=
  ∃ marker attemptId expected next offset line chosen,
    parseStagedApplyAttempt blake2b contents = .ok marker ∧
    slotWrite blake2b marker attemptId expected next = .ok (offset, line) ∧
    updated = tornWrite chosen contents offset line

section Runs

variable {blake2b : Bytes → Digest} {contents updated : Bytes}
  {marker marker' : V2ApplyAttemptMarker}

/-- A call of `update_v3_phase_slot` that succeeds made one such update. -/
theorem slotUpdate_of_updateV3PhaseSlot {file written : MarkerFile} {attemptId : Bytes}
    {expected : List ApplyAttemptPhase} {next : ApplyAttemptPhase}
    (ok : updateV3PhaseSlot blake2b file attemptId expected next = .ok written) :
    SlotUpdate blake2b file.contents written.contents := by
  unfold updateV3PhaseSlot at ok
  split at ok
  · cases ok
  split at ok
  · cases ok
  obtain ⟨text, read, ok⟩ := bind_eq_ok.mp ok
  obtain ⟨_, rfl⟩ := readToString_eq_ok.mp read
  obtain ⟨marker, parsed, ok⟩ := bind_eq_ok.mp ok
  obtain ⟨⟨offset, line⟩, write, ok⟩ := bind_eq_ok.mp ok
  obtain ⟨_, _, ok⟩ := bind_eq_ok.mp ok
  obtain ⟨_, _, ok⟩ := bind_eq_ok.mp ok
  split at ok
  · cases ok
  cases ok
  obtain ⟨v3, rfl, _, follows, found, rfl⟩ := slotWrite_eq_ok.mp write
  obtain ⟨before, after, journal⟩ := exists_journal parsed v3
  obtain ⟨front, back, slot⟩ := journal.exists_pendingSlot follows
  cases found.symm.trans slot.offset
  exact ⟨marker, _, expected, next, _, _, fun _ => true, parsed, write,
    (tornWrite_all 0 _ _ slot.inside).symm⟩

/-- An update leaves an accepted V3 marker of the same attempt in its phase or in the next
one. -/
theorem SlotUpdate.accepted (update : SlotUpdate blake2b contents updated)
    (accepted : parseStagedApplyAttempt blake2b updated = .ok marker') :
    ∃ marker, parseStagedApplyAttempt blake2b contents = .ok marker ∧ marker'.version = .v3 ∧
      marker'.attemptId = marker.attemptId ∧
      (marker'.phase = marker.phase ∨ nextStagedPhase marker.phase = some marker'.phase) := by
  obtain ⟨marker, _, expected, next, offset, _, chosen, parsed, write, rfl⟩ := update
  obtain ⟨v3, rfl, _, follows, found, rfl⟩ := slotWrite_eq_ok.mp write
  refine ⟨marker, parsed, ?_⟩
  rcases parse_tornWrite parsed v3 follows found accepted with rfl | ⟨rfl, _⟩
  · exact ⟨v3, rfl, .inl rfl⟩
  · exact ⟨v3, rfl, .inr follows⟩

/-- Over a run of updates an accepted marker stays with its attempt and never falls back. -/
theorem attempt_of_run (parsed : parseStagedApplyAttempt blake2b contents = .ok marker)
    {reached : Bytes} (run : ReflTransGen (SlotUpdate blake2b) contents reached)
    (accepted : parseStagedApplyAttempt blake2b reached = .ok marker') :
    marker'.attemptId = marker.attemptId ∧ marker.phase.rank ≤ marker'.phase.rank := by
  refine invariant_of_run (I := fun reached => ∀ marker',
    parseStagedApplyAttempt blake2b reached = .ok marker' →
      marker'.attemptId = marker.attemptId ∧ marker.phase.rank ≤ marker'.phase.rank)
    ?_ run ?_ marker' accepted
  · intro reached following invariant update marker'' accepted
    obtain ⟨marker', before, _, sameAttempt, moved⟩ := update.accepted accepted
    obtain ⟨attempt, forward⟩ := invariant marker' before
    refine ⟨sameAttempt.trans attempt, ?_⟩
    rcases moved with same | follows
    · rwa [same]
    · exact Nat.le_trans forward (by rw [rank_of_follows follows]; omega)
  · intro marker' again
    cases parsed.symm.trans again
    exact ⟨rfl, Nat.le_refl _⟩

end Runs

/-! ## The journal -/

/-- The phase journal under torn writes. For an accepted V3 marker with a next phase, the
contents left by any part of the write of its transition are rejected or read as the old
phase or the next one, the latter only when the slot holds the whole applied line. Every
contents accepted as V3 is a journal. Over any run of complete and torn transitions an
accepted marker keeps its attempt, and its phase moves forward one step at a time. -/
theorem phaseJournal_integrity (blake2b : Bytes → Digest) :
    (∀ contents marker next, parseStagedApplyAttempt blake2b contents = .ok marker →
      marker.version = .v3 → nextStagedPhase marker.phase = some next →
      ∃ offset, slotWrite blake2b marker marker.attemptId [marker.phase] next =
          .ok (offset, marker.line blake2b next) ∧
        ∀ chosen marker', parseStagedApplyAttempt blake2b
            (tornWrite chosen contents offset (marker.line blake2b next)) = .ok marker' →
          (marker'.phase = marker.phase ∨ marker'.phase = next) ∧
          marker'.attemptId = marker.attemptId ∧
          (marker'.phase = next →
            ((tornWrite chosen contents offset (marker.line blake2b next)).drop offset).take
              (marker.line blake2b next).length = marker.line blake2b next)) ∧
    (∀ contents marker, parseStagedApplyAttempt blake2b contents = .ok marker →
      marker.version = .v3 → ∃ before after, IsJournal blake2b contents marker before after) ∧
    (∀ contents marker, parseStagedApplyAttempt blake2b contents = .ok marker →
      ∀ reached marker', ReflTransGen (SlotUpdate blake2b) contents reached →
      parseStagedApplyAttempt blake2b reached = .ok marker' →
      marker'.attemptId = marker.attemptId ∧ marker.phase.rank ≤ marker'.phase.rank ∧
      ∀ following marker'', SlotUpdate blake2b reached following →
        parseStagedApplyAttempt blake2b following = .ok marker'' →
        marker''.attemptId = marker.attemptId ∧
        (marker''.phase = marker'.phase ∨ nextStagedPhase marker'.phase = some marker''.phase)) := by
  refine ⟨?_, fun contents marker => exists_journal, ?_⟩
  · intro contents marker next parsed v3 follows
    obtain ⟨before, after, journal⟩ := exists_journal parsed v3
    obtain ⟨front, back, slot⟩ := journal.exists_pendingSlot follows
    refine ⟨front.length, slotWrite_eq_ok.mpr ⟨v3, rfl, by simp, follows, slot.offset, rfl⟩, ?_⟩
    intro chosen marker' accepted
    rcases parse_tornWrite parsed v3 follows slot.offset accepted with rfl | ⟨rfl, complete⟩
    · refine ⟨.inl rfl, rfl, ?_⟩
      intro same
      have moved := rank_of_follows follows
      rw [same] at moved
      omega
    · exact ⟨.inr rfl, rfl, fun _ => complete⟩
  · intro contents marker parsed reached marker' run accepted
    obtain ⟨attempt, forward⟩ := attempt_of_run parsed run accepted
    refine ⟨attempt, forward, ?_⟩
    intro following marker'' update again
    obtain ⟨before, same, _, sameAttempt, moved⟩ := update.accepted again
    cases accepted.symm.trans same
    exact ⟨sameAttempt.trans attempt, moved⟩

/-- A fresh marker, as an attempt without actions starts with it. -/
def freshContents : Bytes :=
  v3Contents (baseLines ++
    v3Phases.zipIdx.map fun (phase, index) => slotLine (phaseSlotV3PendingValue index phase))

theorem phaseJournal_integrity_fresh :
    ∃ marker, parseStagedApplyAttempt (fun _ => noDigest) freshContents = .ok marker ∧
      ∃ offset, ∀ chosen marker', parseStagedApplyAttempt (fun _ => noDigest)
          (tornWrite chosen freshContents offset (marker.line (fun _ => noDigest) prepared)) =
            .ok marker' →
        marker'.phase = preparing ∨ marker'.phase = prepared := by
  have accepted : (parseStagedApplyAttempt (fun _ => noDigest) freshContents).toOption.map
      (fun marker => (marker.version, marker.phase)) = some (.v3, preparing) := by
    decide +kernel
  cases parsed : parseStagedApplyAttempt (fun _ => noDigest) freshContents with
  | error message => simp [parsed, Except.toOption] at accepted
  | ok marker =>
    simp only [parsed, Except.toOption, Option.map_some, Option.some.injEq, Prod.mk.injEq] at accepted
    obtain ⟨v3, phase⟩ := accepted
    obtain ⟨offset, _, torn⟩ := (phaseJournal_integrity _).1 _ marker prepared parsed v3
      (by rw [phase]; rfl)
    refine ⟨marker, rfl, offset, ?_⟩
    intro chosen marker' read
    rw [← phase]
    exact (torn chosen marker' read).1

end Duet.Marker
