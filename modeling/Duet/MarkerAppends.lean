import Duet.Sync.MarkerBehind
import Duet.Sync.MarkerRecord
import Duet.Sync.MarkerTransition

/-!
# The marker of a committing attempt

The commit phase appends its records to the marker without looking at the text. When the
marker can still be read afterwards, so that the attempt can go on to its next phase, is
said here exactly.
-/

namespace Duet.Marker

open Lib
open ApplyAttemptPhase (preparing prepared committing committed stateSave finished)

variable {blake2b : Bytes → Digest}

/-! ## Appending whole lines -/

/-- The lines of an appended text. -/
theorem exists_recordLines (records : List CommitRecord) :
    (∀ line ∈ recordLines records, newline ∉ line) ∧
      recordText records = unlines newline (recordLines records) := by
  obtain ⟨lines, single, text⟩ := exists_lines _ (wholeLines_recordText records).ended
  have same : recordLines records = lines := by
    rw [recordLines, text, splitInclusive_unlines single, List.map_map]
    calc lines.map (trimEndMatches newline ∘ (· ++ [newline])) = lines.map id := by
          apply List.map_congr_left
          exact fun line member => trimEndMatches_concat (single line member)
      _ = lines := List.map_id lines
  rw [same]
  exact ⟨single, text⟩

section Append

variable {contents : Bytes} {marker marker' : V2ApplyAttemptMarker} {lines : List Bytes}

theorem v3Contents_append (front lines : List Bytes) :
    v3Contents front ++ unlines newline lines = v3Contents (front ++ lines) := by
  simp [v3Contents]

/-- Lines that are accepted behind an accepted V3 marker may follow its slots. -/
theorem appendable_of_parse (parsed : parseStagedApplyAttempt blake2b contents = .ok marker)
    (v3 : marker.version = .v3) (single : ∀ line ∈ lines, newline ∉ line)
    (parsed' : parseStagedApplyAttempt blake2b (contents ++ unlines newline lines) = .ok marker') :
    (contents ++ unlines newline lines).length ≤ maxStagedMarkerBytes ∧
      Appendable marker.stageParent marker.stage marker.entries lines := by
  obtain ⟨front, frontSingle, rfl⟩ := exists_lines_of_v3 parsed v3
  obtain ⟨_, s, read, finish⟩ := (parse_v3Contents frontSingle).mp parsed
  obtain ⟨attemptId, applied, _, _, _, _, slots, rfl⟩ := finishInventory_v3.mp finish
  have full : s.slots.length = v3Phases.length := by simp [slots, v3Phases]
  rw [v3Contents_append] at parsed' ⊢
  obtain ⟨short, t, readAll, _⟩ :=
    (parse_v3Contents (List.forall_mem_append.mpr ⟨frontSingle, single⟩)).mp parsed'
  obtain ⟨u, readFront, behind⟩ := foldlM_append_eq_ok.mp readAll
  cases read.symm.trans readFront
  exact ⟨short, (readLines_behind single full).mp ⟨t, behind⟩⟩

/-- Lines that may follow the slots are accepted. They change neither the attempt nor the
phase, and add what they record to the staging inventory. -/
theorem parse_of_appendable (parsed : parseStagedApplyAttempt blake2b contents = .ok marker)
    (v3 : marker.version = .v3) (single : ∀ line ∈ lines, newline ∉ line)
    (short : (contents ++ unlines newline lines).length ≤ maxStagedMarkerBytes)
    (appendable : Appendable marker.stageParent marker.stage marker.entries lines) :
    ∃ marker', parseStagedApplyAttempt blake2b (contents ++ unlines newline lines) = .ok marker' ∧
      marker'.version = .v3 ∧ marker'.attemptId = marker.attemptId ∧
      marker'.phase = marker.phase ∧ marker'.appliedSlots = marker.appliedSlots ∧
      marker'.stageParent = marker.stageParent.or (lines.filterMap parentOf).head? ∧
      marker'.stage = marker.stage.or (lines.filterMap stageOf).head? ∧
      marker'.entries = marker.entries ++ lines.filterMap entryOf := by
  obtain ⟨front, frontSingle, rfl⟩ := exists_lines_of_v3 parsed v3
  obtain ⟨_, s, read, finish⟩ := (parse_v3Contents frontSingle).mp parsed
  obtain ⟨attemptId, applied, attempt, nonempty, initial, atMostFive, slots, rfl⟩ :=
    finishInventory_v3.mp finish
  have full : s.slots.length = v3Phases.length := by simp [slots, v3Phases]
  rw [v3Contents_append] at short ⊢
  obtain ⟨t, behind⟩ := (readLines_behind single full).mpr appendable
  obtain ⟨sameSlots, _, sameAttempt, samePhase⟩ := sameAttempt_of_readLines single full behind
  have made := finishInventory_v3.mpr ⟨attemptId, applied, sameAttempt.trans attempt, nonempty,
    samePhase.trans initial, atMostFive, sameSlots.trans slots, rfl⟩
  obtain ⟨parent, stage, entries⟩ := records_of_readLines single full behind
  exact ⟨_, (parse_v3Contents (List.forall_mem_append.mpr ⟨frontSingle, single⟩)).mpr
    ⟨short, t, foldlM_append_eq_ok.mpr ⟨s, read, behind⟩, made⟩, rfl, rfl, rfl, rfl, parent, stage,
    entries⟩

end Append

/-! ## Records of the commit phase -/

/-- The marker can be read behind the records of a commit: it is still the one of the attempt
in its committing phase, and the transition to the next phase succeeds. -/
def StaysReadable (blake2b : Bytes → Digest) (file : MarkerFile) (attemptId : Bytes)
    (records : List CommitRecord) : Prop :=
  let appended := { file with contents := file.contents ++ recordText records }
  ∃ marker, parseStagedApplyAttempt blake2b appended.contents = .ok marker ∧
    marker.attemptId = attemptId ∧ marker.phase = committing ∧
    ∃ written, updateV3PhaseSlot blake2b appended attemptId [committing] committed = .ok written

/-- The file holds a readable marker of the attempt in its committing phase. -/
structure IsCommitting (blake2b : Bytes → Digest) (file : MarkerFile)
    (marker : V2ApplyAttemptMarker) : Prop where
  text : ValidUtf8 file.contents
  mode : file.mode &&& 0o7777 = 0o600
  parsed : parseStagedApplyAttempt blake2b file.contents = .ok marker
  v3 : marker.version = .v3
  phase : marker.phase = committing

/-- The marker of a committing attempt stays readable exactly when the appended text keeps
it within its size limit and each appended line is one that the parser accepts behind the
slots. -/
theorem commitRecords_readable_iff {file : MarkerFile} {marker : V2ApplyAttemptMarker}
    (start : IsCommitting blake2b file marker) (records : List CommitRecord) :
    StaysReadable blake2b file marker.attemptId records ↔
      (file.contents ++ recordText records).length ≤ maxStagedMarkerBytes ∧
        Appendable marker.stageParent marker.stage marker.entries (recordLines records) := by
  obtain ⟨single, lines⟩ := exists_recordLines records
  constructor
  · intro ⟨marker', parsed, _⟩
    simp only [lines] at parsed ⊢
    exact appendable_of_parse start.parsed start.v3 single parsed
  · intro ⟨short, appendable⟩
    rw [lines] at short
    obtain ⟨marker', parsed, v3, attempt, phase, _⟩ :=
      parse_of_appendable start.parsed start.v3 single short appendable
    rw [← lines] at parsed
    have readable : ValidUtf8 (file.contents ++ recordText records) :=
      start.text.append (wholeLines_recordText records).valid
    have committing := phase.trans start.phase
    obtain ⟨written, ok, _⟩ := @updateV3PhaseSlot_ok _ _ committed
      { file with contents := file.contents ++ recordText records } [.committing] readable start.mode
      parsed v3 (by simp [committing]) (by rw [committing]; rfl)
    rw [attempt] at ok
    exact ⟨marker', parsed, attempt, committing, written, ok⟩

/-! ## A pruned name with a newline -/

/-- The lines of the marker of an attempt `a` without actions in its committing phase. -/
def committingLines (blake2b : Bytes → Digest) : List Bytes :=
  baseLines ++ (journalValues blake2b (ascii "a") 2).map slotLine

/-- The marker of that attempt in its committing phase. -/
def committingFile (blake2b : Bytes → Digest) : MarkerFile where
  contents := v3Contents (committingLines blake2b)
  mode := 0o600

theorem committingLines_plain (blake2b : Bytes → Digest) :
    ∀ line ∈ committingLines blake2b, line.length ≤ 115 ∧ IsAscii line := by
  refine List.forall_mem_append.mpr ⟨by decide, ?_⟩
  intro line member
  obtain ⟨value, inside, rfl⟩ := List.mem_map.mp member
  have head : phaseSlotV3Prefix.length = 15 := rfl
  constructor
  · rw [slotLine, List.length_append, head]
    have short := length_slotValues_le value inside
    omega
  · exact fun byte member => ascii_slot (printable_slotValues value inside) byte
      (List.mem_append_left _ member)

theorem length_committingFile_le (blake2b : Bytes → Digest) :
    (committingFile blake2b).contents.length ≤ 1541 := by
  have bound := @length_unlines_le _ newline (committingLines blake2b) 115 fun line member =>
    (committingLines_plain blake2b line member).1
  have count : (committingLines blake2b).length = 13 := by
    simp [committingLines, baseLines]
  have magic : stagedMarkerV3Magic.length = 33 := rfl
  rw [committingFile, v3Contents, List.length_append, magic]
  omega

theorem isCommitting_committingFile (blake2b : Bytes → Digest) :
    ∃ marker, IsCommitting blake2b (committingFile blake2b) marker ∧
      marker.attemptId = ascii "a" ∧ marker.stageParent = none ∧ marker.stage = none ∧
      marker.entries = [] := by
  have base : (readLines (Inventory.start stagedMarkerV3Magic.length) baseLines).toOption.map
      (fun s => (s.records, s.slots)) =
        some (⟨some (ascii "a"), some preparing, none, none, []⟩, []) := by decide +kernel
  cases read : readLines (Inventory.start stagedMarkerV3Magic.length) baseLines with
  | error message => simp [read, Except.toOption] at base
  | ok s =>
    simp only [read, Except.toOption, Option.map_some, Option.some.injEq, Prod.mk.injEq] at base
    obtain ⟨records, noSlots⟩ := base
    have short : (committingFile blake2b).contents.length ≤ maxStagedMarkerBytes :=
      Nat.le_trans (length_committingFile_le blake2b) (by decide)
    obtain ⟨marker, parsed, v3, attempt, phase, _, parent, stage, entries⟩ :=
      @exists_parse blake2b baseLines s (ascii "a") 2 (by decide) read noSlots
        (by rw [records]) (by decide) (by rw [records]) (by decide) short
    rw [records] at parent stage entries
    have mode : (committingFile blake2b).mode &&& 0o7777 = 0o600 := by
      simp only [committingFile]
      decide
    refine ⟨marker, ⟨validUtf8_of_ascii ?_, mode, parsed, v3, phase⟩, attempt, parent, stage,
      entries⟩
    refine (show IsAscii stagedMarkerV3Magic by decide).append ?_
    intro byte member
    obtain ⟨line, inside, member⟩ := List.mem_flatMap.mp member
    rcases List.mem_append.mp member with member | member
    · exact (committingLines_plain blake2b line inside).2 byte member
    · rw [List.mem_singleton.mp member]
      decide

/-- The record of pruning the ignored file `d/x⏎y`. -/
def pruneRecord : CommitRecord :=
  .committedStep .pruneBlocker [.normal (ascii "d"), .normal (ascii "x\ny")]

/-- Whatever the hash is, the marker of a committing attempt is not readable any more when
an ignored file with a newline in its name was pruned. -/
theorem pruneRecord_unreadable : ¬ ∃ blake2b : Bytes → Digest,
    StaysReadable blake2b (committingFile blake2b) (ascii "a") [pruneRecord] := by
  intro ⟨blake2b, readable⟩
  obtain ⟨marker, start, _⟩ := isCommitting_committingFile blake2b
  obtain ⟨marker', parsed, _⟩ := readable
  obtain ⟨single, lines⟩ := exists_recordLines [pruneRecord]
  simp only [lines] at parsed
  have rest : ascii "y" ∈ recordLines [pruneRecord] := by decide +kernel
  have known := (appendable_of_parse start.parsed start.v3 single parsed).2.known _ rest
  revert known
  decide

/-- The record of removing the file `a`. -/
def removeRecord : CommitRecord := .committedStep .removeFile [.normal (ascii "a")]

/-- A marker stays readable behind a record of a plain name. -/
theorem commitRecords_readable_iff_plain :
    StaysReadable (fun _ => noDigest) (committingFile fun _ => noDigest) (ascii "a")
      [removeRecord] := by
  obtain ⟨marker, start, attempt, parent, stage, entries⟩ :=
    isCommitting_committingFile fun _ => noDigest
  have lines : recordLines [removeRecord] = [ascii "committed-step: remove-file a"] := by
    decide +kernel
  have accepted := commitRecords_readable_iff start [removeRecord]
  rw [attempt, parent, stage, entries, lines] at accepted
  refine accepted.mpr ⟨?_, by decide, by decide, by decide, by decide, by decide, by decide⟩
  have appended : (recordText [removeRecord]).length = 30 := by decide +kernel
  have short := length_committingFile_le fun _ => noDigest
  rw [List.length_append, appended, maxStagedMarkerBytes]
  omega

end Duet.Marker
