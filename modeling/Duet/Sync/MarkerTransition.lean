import Duet.Lib.Utf8
import Duet.Sync.MarkerJournal

/-!
# Phase transitions

A transition overwrites the first pending slot with its applied line. Whatever part of the
write reached the disk, the marker reads as before, as after the whole write, or not at all.
-/

namespace Duet.Marker

open Lib
open ApplyAttemptPhase (preparing prepared committing committed stateSave finished)

variable {blake2b : Bytes → Digest} {contents : Bytes} {marker : V2ApplyAttemptMarker}
  {before after : List Bytes} {next : ApplyAttemptPhase}

/-- The marker behind one more applied slot. -/
def V2ApplyAttemptMarker.advance (blake2b : Bytes → Digest) (marker : V2ApplyAttemptMarker)
    (next : ApplyAttemptPhase) : V2ApplyAttemptMarker :=
  { marker with
    phase := next
    appliedSlots := marker.appliedSlots + 1
    appliedDigest :=
      phaseSlotV3Digest blake2b marker.appliedSlots marker.appliedDigest marker.attemptId next }

/-- The line a transition of a marker writes. -/
def V2ApplyAttemptMarker.line (blake2b : Bytes → Digest) (marker : V2ApplyAttemptMarker)
    (next : ApplyAttemptPhase) : Bytes :=
  phaseSlotV3AppliedLine blake2b marker.appliedSlots marker.appliedDigest marker.attemptId next

/-- A transition does not change the length of the slot. -/
theorem length_line : (marker.line blake2b next).length =
    (phaseSlotV3PendingLine marker.appliedSlots next).length := by
  simp [V2ApplyAttemptMarker.line, phaseSlotV3AppliedLine, phaseSlotV3PendingLine,
    length_appliedValue]

/-! ## The slot of a transition -/

/-- A marker with a next phase has a pending slot for it. -/
theorem IsJournal.pending (journal : IsJournal blake2b contents marker before after)
    (follows : nextStagedPhase marker.phase = some next) :
    v3Phases[marker.appliedSlots]? = some next := by
  rw [← nextStagedPhase_phaseAfter journal.atMostFive, ← journal.phase, follows]

/-- The first pending slot holds the pending value of the next phase. -/
theorem IsJournal.pendingValue (journal : IsJournal blake2b contents marker before after)
    (follows : nextStagedPhase marker.phase = some next) :
    (journalValues blake2b marker.attemptId marker.appliedSlots)[marker.appliedSlots]? =
      some (phaseSlotV3PendingValue marker.appliedSlots next) := by
  obtain ⟨small, phase⟩ := List.getElem?_eq_some_iff.mp (journal.pending follows)
  rw [journalValues, slotValues_getElem? small, Nat.zero_add, phase]

/-- The digest behind the slot that a transition applies. -/
theorem IsJournal.nextDigest (journal : IsJournal blake2b contents marker before after)
    (follows : nextStagedPhase marker.phase = some next) :
    journalDigest blake2b marker.attemptId (marker.appliedSlots + 1) =
      phaseSlotV3Digest blake2b marker.appliedSlots marker.appliedDigest marker.attemptId next := by
  obtain ⟨small, phase⟩ := List.getElem?_eq_some_iff.mp (journal.pending follows)
  rw [journalDigest, digestAfter_succ small, Nat.zero_add, phase, ← journalDigest,
    ← journal.digest]

theorem IsJournal.nextPhase (journal : IsJournal blake2b contents marker before after)
    (follows : nextStagedPhase marker.phase = some next) :
    phaseAfter (marker.appliedSlots + 1) = next := by
  simp [phaseAfter, journal.pending follows]

/-- The contents of a journal around its first pending slot. -/
structure PendingSlot (blake2b : Bytes → Digest) (contents : Bytes)
    (marker : V2ApplyAttemptMarker) (next : ApplyAttemptPhase) (before after : List Bytes)
    (front back : Bytes) : Prop where
  contents_eq : contents = front ++ phaseSlotV3PendingLine marker.appliedSlots next ++ back
  offset : marker.slotOffsets[marker.appliedSlots]? = some front.length
  /-- The contents with another value in the slot. -/
  setSlot : ∀ value, front ++ (phaseSlotV3Prefix ++ value ++ [newline]) ++ back =
    v3Contents (before ++ ((journalValues blake2b marker.attemptId marker.appliedSlots).set
      marker.appliedSlots value).map slotLine ++ after)

theorem IsJournal.exists_pendingSlot (journal : IsJournal blake2b contents marker before after)
    (follows : nextStagedPhase marker.phase = some next) :
    ∃ front back, PendingSlot blake2b contents marker next before after front back := by
  obtain ⟨small, -⟩ := List.getElem?_eq_some_iff.mp (journal.pending follows)
  obtain ⟨five, here⟩ := List.getElem?_eq_some_iff.mp (journal.pendingValue follows)
  have setSlot : ∀ value : Bytes,
      v3Contents (before ++ ((journalValues blake2b marker.attemptId marker.appliedSlots).take
        marker.appliedSlots).map slotLine) ++ (phaseSlotV3Prefix ++ value ++ [newline]) ++
        unlines newline (((journalValues blake2b marker.attemptId marker.appliedSlots).drop
          (marker.appliedSlots + 1)).map slotLine ++ after) =
      v3Contents (before ++ ((journalValues blake2b marker.attemptId marker.appliedSlots).set
        marker.appliedSlots value).map slotLine ++ after) := by
    intro value
    rw [List.set_eq_take_append_cons_drop, if_pos five]
    simp [v3Contents, slotLine]
  refine ⟨_, _, ?_, journal.offsets _ small, setSlot⟩
  rw [phaseSlotV3PendingLine, setSlot, ← here, List.set_getElem_self]
  exact journal.contents_eq

theorem PendingSlot.inside {front back : Bytes}
    (slot : PendingSlot blake2b contents marker next before after front back) :
    front.length + (marker.line blake2b next).length ≤ contents.length := by
  rw [slot.contents_eq, length_line]
  simp

/-! ## Torn writes -/

/-- A torn write of the applied line changes nothing but the value in the slot. -/
theorem PendingSlot.tornWrite_eq {front back : Bytes}
    (slot : PendingSlot blake2b contents marker next before after front back)
    (chosen : Nat → Bool) :
    ∃ chosen', tornWrite chosen contents front.length (marker.line blake2b next) =
      front ++ (phaseSlotV3Prefix ++ tornWrite chosen'
        (phaseSlotV3PendingValue marker.appliedSlots next) 0
        (phaseSlotV3AppliedValue blake2b marker.appliedSlots marker.appliedDigest
          marker.attemptId next) ++ [newline]) ++ back := by
  have sameLength := @length_appliedValue blake2b marker.appliedSlots
    marker.appliedDigest marker.attemptId next
  refine ⟨fun i => chosen (front.length + (phaseSlotV3Prefix.length + i)), ?_⟩
  rw [slot.contents_eq, tornWrite_append, phaseSlotV3PendingLine,
    V2ApplyAttemptMarker.line, phaseSlotV3AppliedLine, tornWrite_common]
  · exact sameLength
  · simp [V2ApplyAttemptMarker.line, phaseSlotV3AppliedLine, phaseSlotV3PendingLine, sameLength]

/-- Whatever part of a transition reached the disk: a marker that is still accepted is the
one before the transition, or the one behind it, and then the slot holds the whole line. -/
theorem parse_tornWrite (parsed : parseStagedApplyAttempt blake2b contents = .ok marker)
    (v3 : marker.version = .v3) (follows : nextStagedPhase marker.phase = some next)
    {chosen : Nat → Bool} {offset : Nat}
    (found : marker.slotOffsets[marker.appliedSlots]? = some offset)
    {marker' : V2ApplyAttemptMarker}
    (accepted : parseStagedApplyAttempt blake2b
      (tornWrite chosen contents offset (marker.line blake2b next)) = .ok marker') :
    marker' = marker ∨ marker' = marker.advance blake2b next ∧
      ((tornWrite chosen contents offset (marker.line blake2b next)).drop offset).take
        (marker.line blake2b next).length = marker.line blake2b next := by
  obtain ⟨before, after, journal⟩ := exists_journal parsed v3
  obtain ⟨front, back, slot⟩ := journal.exists_pendingSlot follows
  cases found.symm.trans slot.offset
  obtain ⟨chosen', torn⟩ := slot.tornWrite_eq chosen
  rw [torn] at accepted ⊢
  generalize held : tornWrite chosen' (phaseSlotV3PendingValue marker.appliedSlots next) 0
    (phaseSlotV3AppliedValue blake2b marker.appliedSlots marker.appliedDigest marker.attemptId
      next) = value at accepted ⊢
  have single : newline ∉ value := by
    intro member
    rcases mem_tornWrite (held ▸ member) with member | member
    · exact (printable_pendingValue _ _).newline_notMem member
    · exact (printable_appliedValue _ _ _ _).newline_notMem member
  obtain ⟨small, phase⟩ := List.getElem?_eq_some_iff.mp (journal.pending follows)
  obtain ⟨inside, pending⟩ := List.getElem?_eq_some_iff.mp (journal.pendingValue follows)
  have sameLength : value.length = (journalValues blake2b marker.attemptId
      marker.appliedSlots)[marker.appliedSlots].length := by
    rw [pending, ← held, length_tornWrite]
  rw [slot.setSlot, parse_setSlot journal parsed rfl inside single sameLength] at accepted
  obtain ⟨applied, atMostFive, same, rfl⟩ := accepted
  rcases slotValues_set_cases small atMostFive same with rfl | ⟨rfl, complete⟩
  · left
    rw [← journal.phase, ← journal.digest]
  · right
    rw [Nat.zero_add, phase, ← journalDigest, ← journal.digest] at complete
    constructor
    · rw [journal.nextPhase follows, journal.nextDigest follows]
      rfl
    · rw [List.append_assoc, List.drop_left, complete]
      exact List.take_left

/-! ## Complete transitions -/

theorem slotWrite_eq_ok {attemptId line : Bytes} {expected : List ApplyAttemptPhase}
    {offset : Nat} :
    slotWrite blake2b marker attemptId expected next = .ok (offset, line) ↔
      marker.version = .v3 ∧ marker.attemptId = attemptId ∧ marker.phase ∈ expected ∧
        nextStagedPhase marker.phase = some next ∧
        marker.slotOffsets[marker.appliedSlots]? = some offset ∧
        line = marker.line blake2b next := by
  unfold slotWrite
  split
  · next mismatch =>
    have never : ¬ (marker.version = .v3 ∧ marker.attemptId = attemptId ∧ marker.phase ∈ expected ∧
        nextStagedPhase marker.phase = some next) := by
      intro ⟨version, attempt, phase, follows⟩
      simp [version, attempt, phase, follows] at mismatch
    simp only [reduceCtorEq, false_iff]
    intro ⟨version, attempt, phase, follows, _⟩
    exact never ⟨version, attempt, phase, follows⟩
  · next agrees =>
    simp only [not_or, not_not, ne_eq] at agrees
    obtain ⟨version, rfl, phase, follows⟩ := agrees
    split
    · next none => simp [none]
    · next found =>
      rw [← V2ApplyAttemptMarker.line]
      simp [length_line, version, phase, follows, found, eq_comm]

/-- The contents behind a complete transition. -/
theorem PendingSlot.writeAt_eq {front back : Bytes}
    (slot : PendingSlot blake2b contents marker next before after front back) :
    writeAt 0 contents front.length (marker.line blake2b next) =
      front ++ marker.line blake2b next ++ back := by
  rw [slot.contents_eq, writeAt_of_le (by simp), length_line, ← List.length_append,
    List.drop_left, List.append_assoc front, List.take_left]

/-- A complete transition is read as the next phase. -/
theorem parse_writeAt (parsed : parseStagedApplyAttempt blake2b contents = .ok marker)
    (v3 : marker.version = .v3) (follows : nextStagedPhase marker.phase = some next)
    {offset : Nat} (found : marker.slotOffsets[marker.appliedSlots]? = some offset) :
    parseStagedApplyAttempt blake2b (writeAt 0 contents offset (marker.line blake2b next)) =
      .ok (marker.advance blake2b next) := by
  obtain ⟨before, after, journal⟩ := exists_journal parsed v3
  obtain ⟨front, back, slot⟩ := journal.exists_pendingSlot follows
  cases found.symm.trans slot.offset
  obtain ⟨small, phase⟩ := List.getElem?_eq_some_iff.mp (journal.pending follows)
  obtain ⟨inside, pending⟩ := List.getElem?_eq_some_iff.mp (journal.pendingValue follows)
  have applied : marker.line blake2b next = phaseSlotV3Prefix ++
      phaseSlotV3AppliedValue blake2b marker.appliedSlots marker.appliedDigest marker.attemptId
        next ++ [newline] := rfl
  rw [slot.writeAt_eq, applied, slot.setSlot,
    parse_setSlot journal parsed rfl inside (printable_appliedValue _ _ _ _).newline_notMem
      (by rw [pending, length_appliedValue])]
  refine ⟨marker.appliedSlots + 1, small, ?_, ?_⟩
  · have set := @slotValues_set_applied blake2b marker.attemptId 0 noDigest v3Phases
      marker.appliedSlots small
    rw [Nat.zero_add, phase, ← journalDigest, ← journal.digest] at set
    exact set
  · rw [journal.nextPhase follows, journal.nextDigest follows]
    rfl

theorem readToString_eq_ok {bytes text : Bytes} :
    readToString bytes = .ok text ↔ ValidUtf8 bytes ∧ text = bytes := by
  unfold readToString
  split
  · next valid =>
    have valid := isValidUTF8_iff.mp (ByteArray.validateUTF8_eq_true_iff.mp valid)
    simp [valid, eq_comm]
  · next invalid =>
    have invalid : ¬ ValidUtf8 bytes := fun valid =>
      invalid (ByteArray.validateUTF8_eq_true_iff.mpr (isValidUTF8_iff.mpr valid))
    simp [invalid]

theorem length_le_of_parse (parsed : parseStagedApplyAttempt blake2b contents = .ok marker) :
    contents.length ≤ maxStagedMarkerBytes := by
  unfold parseStagedApplyAttempt at parsed
  split at parsed
  · cases parsed
  · next short => exact Nat.le_of_not_lt short

theorem Printable.isAscii {text : Bytes} (printable : Printable text) : IsAscii text :=
  fun byte member => Nat.lt_succ_of_lt (printable byte member).2

/-- The lines of slots are ASCII. -/
theorem ascii_slot {value : Bytes} (printable : Printable value) :
    IsAscii (phaseSlotV3Prefix ++ value ++ [newline]) :=
  ((show IsAscii phaseSlotV3Prefix by decide).append printable.isAscii).append (by decide)

/-- On an accepted marker that is in one of the expected phases, the update of its slot
succeeds, and the marker then has the next phase. -/
theorem updateV3PhaseSlot_ok {file : MarkerFile} {expected : List ApplyAttemptPhase}
    (text : ValidUtf8 file.contents) (mode : file.mode &&& 0o7777 = 0o600)
    (parsed : parseStagedApplyAttempt blake2b file.contents = .ok marker)
    (v3 : marker.version = .v3) (phase : marker.phase ∈ expected)
    (follows : nextStagedPhase marker.phase = some next) :
    ∃ written, updateV3PhaseSlot blake2b file marker.attemptId expected next = .ok written ∧
      parseStagedApplyAttempt blake2b written.contents = .ok (marker.advance blake2b next) ∧
      written.mode = file.mode ∧ ValidUtf8 written.contents := by
  obtain ⟨before, after, journal⟩ := exists_journal parsed v3
  obtain ⟨front, back, slot⟩ := journal.exists_pendingSlot follows
  have updated := parse_writeAt parsed v3 follows slot.offset
  have writtenText : ValidUtf8 (writeAt 0 file.contents front.length (marker.line blake2b next)) := by
    rw [slot.writeAt_eq]
    exact (slot.contents_eq ▸ text).replace (by simp)
      (ascii_slot (printable_pendingValue _ _)) (ascii_slot (printable_appliedValue _ _ _ _))
  have write : slotWrite blake2b marker marker.attemptId expected next =
      .ok (front.length, marker.line blake2b next) :=
    slotWrite_eq_ok.mpr ⟨v3, rfl, phase, follows, slot.offset, rfl⟩
  have read := readToString_eq_ok.mpr ⟨text, rfl⟩
  have readAgain := readToString_eq_ok.mpr ⟨writtenText, rfl⟩
  refine ⟨{ file with contents := writeAt 0 file.contents front.length (marker.line blake2b next) },
    ?_, updated, rfl, writtenText⟩
  rw [updateV3PhaseSlot, if_neg (Nat.not_lt.mpr (length_le_of_parse parsed)),
    if_neg (not_not.mpr mode)]
  simp [read, parsed, write, readAgain, updated, bind, Except.bind, V2ApplyAttemptMarker.advance, v3]

end Duet.Marker
