import Duet.Lib.Steps
import Duet.MarkerAppends
import Duet.Sync.MarkerPrinted

/-!
# The inventory of a staged attempt

The contents that an attempt begins with are an accepted marker, and the stage and the
staged entries that it appends are read back as they were recorded, in every phase that
follows.
-/

namespace Duet.Marker

open Lib Relation
open ApplyAttemptPhase (preparing prepared)

variable {blake2b : Bytes → Digest}

/-! ## The base lines of an attempt -/

/-- The texts that `start_staged_apply_attempt` lets through its checks on single lines and
on an empty attempt. -/
structure PassesChecks (statePath base : Bytes) (actions : List Action) (attemptId : Bytes) :
    Prop where
  attemptText : ValidUtf8 attemptId
  attempt : attemptId ≠ []
  attemptLine : isSingleLine attemptId = true
  baseLine : isSingleLine base = true
  stateLine : isSingleLine statePath = true
  actionLines : ∀ action ∈ actions, isSingleLine action.path.bytes = true
  stateName : (fileName statePath).isSome

theorem newline_notMem_of_isSingleLine {text : Bytes} (single : isSingleLine text = true) :
    newline ∉ text := by
  simp only [isSingleLine, Bool.not_eq_true', Bool.or_eq_false_iff] at single
  intro member
  rw [List.contains_iff_mem.mpr member] at single
  cases single.1

/-- A line in front of the slots that says nothing to the parser. -/
structure BaseLine (line : Bytes) : Prop where
  valid : validV3BaseInventoryLine line = true
  single : newline ∉ line
  text : ValidUtf8 line

theorem plain_of_baseHead {head : Bytes} (isHead : head ∈ baseTexts ++ baseCounts ++ baseEnds) :
    newline ∉ head ∧ ValidUtf8 head := by
  have plain : ∀ head ∈ baseTexts ++ baseCounts ++ baseEnds, newline ∉ head ∧ IsAscii head := by
    decide
  obtain ⟨single, isAscii⟩ := plain head isHead
  exact ⟨single, validUtf8_of_ascii isAscii⟩

theorem baseLine_text {head value : Bytes} (isText : head ∈ baseTexts) (nonempty : value ≠ [])
    (single : newline ∉ value) (text : ValidUtf8 value) : BaseLine (head ++ value) := by
  obtain ⟨headSingle, headText⟩ := plain_of_baseHead (show head ∈ _ by simp [isText])
  exact ⟨(validV3Base_text isText).mpr nonempty, by simp [headSingle, single], headText.append text⟩

theorem baseLine_count {head : Bytes} (isCount : head ∈ baseCounts) (n : Nat) :
    BaseLine (head ++ decimal n) := by
  obtain ⟨headSingle, headText⟩ := plain_of_baseHead (show head ∈ _ by simp [isCount])
  have single : newline ∉ decimal n := notMem_decimal rfl n
  exact ⟨validV3Base_count isCount n, by simp [headSingle, single],
    headText.append (validUtf8_of_ascii (ascii_decimal n))⟩

theorem baseLine_end {line : Bytes} (isEnd : line ∈ baseEnds) : BaseLine line := by
  obtain ⟨single, text⟩ := plain_of_baseHead (show line ∈ _ by simp [isEnd])
  have valid : ∀ line ∈ baseEnds, validV3BaseInventoryLine line = true := by decide
  exact ⟨valid line isEnd, single, text⟩

theorem baseLine_truncatedLines {head truncated : Bytes} {items : List Bytes}
    (each : ∀ item ∈ items, BaseLine (head ++ item)) (isEnd : truncated ∈ baseEnds) :
    ∀ line ∈ truncatedLines head truncated items, BaseLine line := by
  intro line member
  rcases List.mem_append.mp member with member | member
  · obtain ⟨item, inside, rfl⟩ := List.mem_map.mp member
    exact each item (List.mem_of_mem_take inside)
  · split at member
    · rw [List.mem_singleton.mp member]
      exact baseLine_end isEnd
    · cases member

theorem mem_of_mem_sortDedup {α κ : Type} [LinearOrder κ] [DecidableEq α] {key : α → κ}
    {list : List α} {a : α} (member : a ∈ sortDedup key list) : a ∈ list :=
  List.mem_mergeSort.mp ((List.destutter_sublist _ _).subset member)

/-- The line of an operation on a path without line breaks. -/
theorem baseLine_operation {head name : Bytes} {path : Path} (isText : head ∈ baseTexts)
    (printable : Printable name) (single : newline ∉ path.bytes) :
    BaseLine (head ++ (name ++ ascii " " ++ path.display)) := by
  have space : newline ∉ ascii " " := by decide
  apply baseLine_text isText
  · simp [ascii]
  · simp [printable.newline_notMem, space, Path.display_eq, newline_notMem_displayOs single]
  · exact ((validUtf8_of_ascii printable.isAscii).append (validUtf8_of_ascii (by decide))).append
      path.validUtf8_display

section Base

variable {side : Side} {statePath base : Bytes} {actions : List Action} {attemptId : Bytes}

/-- The lines about the actions. -/
theorem baseLine_actionLines (single : ∀ action ∈ actions, newline ∉ action.path.bytes)
    (filled : ∀ action ∈ actions, action.path.bytes ≠ []) :
    (∀ line ∈ truncatedLines (ascii "path: ") (ascii "paths-truncated: true")
      ((sortDedup id (actions.map Action.path)).map Path.display), BaseLine line) ∧
    (∀ line ∈ truncatedLines (ascii "operation: ") (ascii "operations-truncated: true")
      (applyAttemptOperations actions), BaseLine line) ∧
    ∀ line ∈ truncatedLines (ascii "unstaged-operation: ")
      (ascii "unstaged-operations-truncated: true") (applyAttemptUnstagedOperations actions),
      BaseLine line := by
  refine ⟨?_, ?_, ?_⟩
  · refine baseLine_truncatedLines ?_ (by decide)
    intro item member
    obtain ⟨path, inside, rfl⟩ := List.mem_map.mp member
    obtain ⟨action, isAction, rfl⟩ := List.mem_map.mp (mem_of_mem_sortDedup inside)
    exact baseLine_text (by decide) (displayOs_ne_nil (filled action isAction))
      (newline_notMem_displayOs (single action isAction)) action.path.validUtf8_display
  · refine baseLine_truncatedLines ?_ (by decide)
    intro item member
    obtain ⟨action, isAction, rfl⟩ := List.mem_map.mp (mem_of_mem_sortDedup member)
    rw [Action.path_change]
    exact baseLine_operation (by decide) (printable_changeOperation _) (single action isAction)
  · refine baseLine_truncatedLines ?_ (by decide)
    intro item member
    obtain ⟨action, isAction, found⟩ := List.mem_filterMap.mp (mem_of_mem_sortDedup member)
    obtain ⟨operation, here, rfl⟩ := Option.map_eq_some_iff.mp found
    exact baseLine_operation (by decide) (printable_unstagedChangeOperation here)
      (single action isAction)

/-- The lines of an attempt are its initial phase and its id among lines that say nothing to
the parser. -/
theorem exists_applyAttemptLines (checks : PassesChecks statePath base actions attemptId)
    (baseFilled : base ≠ []) (filled : ∀ action ∈ actions, action.path.bytes ≠ []) :
    ∃ front middle back,
      applyAttemptLines side statePath base preparing actions (some attemptId) =
        front ++ (ascii "phase: " ++ preparing.asStr) :: (middle ++
          (ascii "attempt-id: " ++ attemptId) :: back) ∧
      ∀ line ∈ front ++ middle ++ back, BaseLine line := by
  have stateFilled : statePath ≠ [] := by
    intro empty
    have name := checks.stateName
    rw [empty] at name
    revert name
    decide
  have sideLine : BaseLine (ascii "side: " ++ sideStr side) := by
    have plain : ∀ side : Side, sideStr side ≠ [] ∧ newline ∉ sideStr side ∧ IsAscii (sideStr side) := by
      intro side
      cases side <;> decide
    obtain ⟨nonempty, single, text⟩ := plain side
    exact baseLine_text (by decide) nonempty single (validUtf8_of_ascii text)
  have baseLine : BaseLine (ascii "base: " ++ displayOs base) :=
    baseLine_text (by decide) (displayOs_ne_nil baseFilled)
      (newline_notMem_displayOs (newline_notMem_of_isSingleLine checks.baseLine)) (validUtf8_utf8 _)
  have stateLine : BaseLine (ascii "state: " ++ displayOs statePath) :=
    baseLine_text (by decide) (displayOs_ne_nil stateFilled)
      (newline_notMem_displayOs (newline_notMem_of_isSingleLine checks.stateLine)) (validUtf8_utf8 _)
  obtain ⟨paths, operations, unstaged⟩ := baseLine_actionLines
    (fun action member => newline_notMem_of_isSingleLine (checks.actionLines action member)) filled
  refine ⟨[ascii "side: " ++ sideStr side, ascii "base: " ++ displayOs base,
      ascii "state: " ++ displayOs statePath],
    [ascii "path-count: " ++ decimal (sortDedup id (actions.map Action.path)).length,
      ascii "operation-count: " ++ decimal (applyAttemptOperations actions).length,
      ascii "unstaged-operation-count: " ++ decimal (applyAttemptUnstagedOperations actions).length],
    truncatedLines (ascii "path: ") (ascii "paths-truncated: true")
        ((sortDedup id (actions.map Action.path)).map Path.display) ++
      truncatedLines (ascii "operation: ") (ascii "operations-truncated: true")
        (applyAttemptOperations actions) ++
      truncatedLines (ascii "unstaged-operation: ") (ascii "unstaged-operations-truncated: true")
        (applyAttemptUnstagedOperations actions), by simp [applyAttemptLines], ?_⟩
  simp only [List.forall_mem_append, List.forall_mem_cons]
  exact ⟨⟨⟨sideLine, baseLine, stateLine, by simp⟩, baseLine_count (by decide) _,
    baseLine_count (by decide) _, baseLine_count (by decide) _, by simp⟩,
    ⟨paths, operations⟩, unstaged⟩

/-- The parser finds the attempt and its initial phase in the lines of an attempt. -/
theorem readLines_applyAttemptLines (checks : PassesChecks statePath base actions attemptId)
    (baseFilled : base ≠ []) (filled : ∀ action ∈ actions, action.path.bytes ≠ [])
    (short : ∀ line ∈ applyAttemptLines side statePath base preparing actions (some attemptId),
      line.length ≤ maxStagedMarkerLineBytes) (start : Nat) :
    ∃ t, readLines (Inventory.start start)
        (applyAttemptLines side statePath base preparing actions (some attemptId)) = .ok t ∧
      t.records = ⟨some attemptId, some preparing, none, none, []⟩ ∧ t.slots = [] := by
  obtain ⟨front, middle, back, lines, plain⟩ :=
    @exists_applyAttemptLines side _ _ _ _ checks baseFilled filled
  rw [lines] at short ⊢
  have skip : ∀ part ⊆ front ++ middle ++ back, (∀ line ∈ part,
      line.length ≤ maxStagedMarkerLineBytes) → ∀ s : Inventory, s.slots = [] →
      ∃ t, readLines s part = .ok t ∧ t.records = s.records ∧ t.slots = [] := by
    intro part inside shortPart s noSlots
    exact readLines_base (fun line member => (plain line (inside member)).valid)
      (fun line member => (plain line (inside member)).single) shortPart noSlots
  obtain ⟨s₁, readFront, records₁, slots₁⟩ := skip front (by simp)
    (fun line member => short line (by simp [member])) (Inventory.start start) rfl
  obtain ⟨s₂, readPhase, records₂, slots₂⟩ := inventoryStep_initialPhase slots₁ (by
    rw [records₁]
    rfl)
  obtain ⟨s₃, readMiddle, records₃, slots₃⟩ := skip middle (by simp)
    (fun line member => short line (by simp [member])) s₂ slots₂
  obtain ⟨s₄, readAttempt, records₄, slots₄⟩ := inventoryStep_attemptId
    (newline_notMem_of_isSingleLine checks.attemptLine) (short _ (by simp)) slots₃ (by
      rw [records₃, records₂, records₁]
      rfl)
  obtain ⟨s₅, readBack, records₅, slots₅⟩ := skip back (by simp)
    (fun line member => short line (by simp [member])) s₄ slots₄
  refine ⟨s₅, ?_, ?_, slots₅⟩
  · exact foldlM_append_eq_ok.mpr ⟨s₁, readFront, foldlM_cons_eq_ok.mpr ⟨s₂, readPhase,
      foldlM_append_eq_ok.mpr ⟨s₃, readMiddle, foldlM_cons_eq_ok.mpr ⟨s₄, readAttempt, readBack⟩⟩⟩⟩
  · rw [records₅, records₄, records₃, records₂, records₁]
    rfl

theorem single_applyAttemptLines (checks : PassesChecks statePath base actions attemptId)
    (baseFilled : base ≠ []) (filled : ∀ action ∈ actions, action.path.bytes ≠ []) :
    ∀ line ∈ applyAttemptLines side statePath base preparing actions (some attemptId),
      newline ∉ line ∧ ValidUtf8 line := by
  obtain ⟨front, middle, back, lines, plain⟩ :=
    @exists_applyAttemptLines side _ _ _ _ checks baseFilled filled
  have phase : newline ∉ ascii "phase: " ++ preparing.asStr ∧
      IsAscii (ascii "phase: " ++ preparing.asStr) := by decide
  have head : newline ∉ ascii "attempt-id: " ∧ IsAscii (ascii "attempt-id: ") := by decide
  have attempt := newline_notMem_of_isSingleLine checks.attemptLine
  rw [lines]
  intro line member
  simp only [List.mem_append, List.mem_cons] at member
  rcases member with member | rfl | member | rfl | member
  · exact ⟨(plain line (by simp [member])).single, (plain line (by simp [member])).text⟩
  · exact ⟨phase.1, validUtf8_of_ascii phase.2⟩
  · exact ⟨(plain line (by simp [member])).single, (plain line (by simp [member])).text⟩
  · exact ⟨by simp [head.1, attempt], (validUtf8_of_ascii head.2).append checks.attemptText⟩
  · exact ⟨(plain line (by simp [member])).single, (plain line (by simp [member])).text⟩

theorem length_truncatedLines_le (head truncated : Bytes) (items : List Bytes) :
    (truncatedLines head truncated items).length ≤ 51 := by
  have few : (items.take 50).length ≤ 50 := List.length_take_le 50 items
  simp only [truncatedLines, List.length_append, List.length_map]
  split
  · simp only [List.length_singleton]
    omega
  · simp only [List.length_nil]
    omega

/-- An attempt writes at most 161 lines in front of the slots. -/
theorem length_applyAttemptLines_le :
    (applyAttemptLines side statePath base preparing actions (some attemptId)).length ≤ 161 := by
  have paths := length_truncatedLines_le (ascii "path: ") (ascii "paths-truncated: true")
    ((sortDedup id (actions.map Action.path)).map Path.display)
  have operations := length_truncatedLines_le (ascii "operation: ")
    (ascii "operations-truncated: true") (applyAttemptOperations actions)
  have unstaged := length_truncatedLines_le (ascii "unstaged-operation: ")
    (ascii "unstaged-operations-truncated: true") (applyAttemptUnstagedOperations actions)
  simp only [applyAttemptLines, List.length_append, List.length_cons, List.length_nil,
    Option.toList_some, List.map_cons, List.map_nil]
  omega

end Base

/-! ## The contents of a fresh marker -/

/-- The lines of a fresh marker behind the first one. -/
def startLines (blake2b : Bytes → Digest) (side : Side) (statePath base : Bytes)
    (actions : List Action) (attemptId : Bytes) : List Bytes :=
  applyAttemptLines side statePath base preparing actions (some attemptId) ++
    (journalValues blake2b attemptId 0).map slotLine

section Start

variable {side : Side} {statePath base : Bytes} {actions : List Action} {attemptId : Bytes}

/-- The rewritten magic and the pending slots make the contents a V3 text of lines. -/
theorem contents_eq_startLines :
    ascii "duet-apply-attempt-v2-journal-v3" ++
        (applyAttemptContents side statePath base preparing actions (some attemptId)).drop
          (ascii "duet-apply-attempt-v1").length ++ pendingLines =
      v3Contents (startLines blake2b side statePath base actions attemptId) := by
  have magic : ascii "duet-apply-attempt-v2-journal-v3" ++
      (ascii "duet-apply-attempt-v1\n").drop (ascii "duet-apply-attempt-v1").length =
        stagedMarkerV3Magic := by decide
  have slots : pendingLines =
      unlines newline ((journalValues blake2b attemptId 0).map slotLine) := by
    simp [pendingLines, v3Phases, journalValues, slotValues, phaseSlotV3PendingLine, slotLine]
  rw [applyAttemptContents, List.drop_append_of_le_length (by decide), ← List.append_assoc, magic,
    slots, startLines, v3Contents, unlines_append, List.append_assoc]

/-- The lines of a fresh marker are within the limit of a marker when each is within that of
a line. -/
theorem length_startLines_le
    (short : ∀ line ∈ startLines blake2b side statePath base actions attemptId,
      line.length ≤ maxStagedMarkerLineBytes) :
    (v3Contents (startLines blake2b side statePath base actions attemptId)).length ≤
      maxStagedMarkerBytes := by
  have bound := @length_unlines_le _ newline _ _ short
  have few := @length_applyAttemptLines_le side statePath base actions attemptId
  have count : (startLines blake2b side statePath base actions attemptId).length ≤ 166 := by
    simp only [startLines, List.length_append, List.length_map, length_journalValues]
    omega
  have magic : stagedMarkerV3Magic.length = 33 := rfl
  rw [v3Contents, List.length_append, magic]
  calc 33 + (unlines newline (startLines blake2b side statePath base actions attemptId)).length
      ≤ 33 + (startLines blake2b side statePath base actions attemptId).length *
          (maxStagedMarkerLineBytes + 1) := Nat.add_le_add_left bound 33
    _ ≤ 33 + 166 * (maxStagedMarkerLineBytes + 1) :=
          Nat.add_le_add_left (Nat.mul_le_mul_right _ count) 33
    _ ≤ maxStagedMarkerBytes := by decide

/-- The contents that a fresh marker is written with are those of its attempt in the initial
phase, with nothing recorded yet. -/
theorem startContents_eq_ok (checks : PassesChecks statePath base actions attemptId)
    (baseFilled : base ≠ []) (filled : ∀ action ∈ actions, action.path.bytes ≠ [])
    (short : ∀ line ∈ applyAttemptLines side statePath base preparing actions (some attemptId),
      line.length ≤ maxStagedMarkerLineBytes) :
    ∃ contents marker,
      startContents blake2b side statePath base actions attemptId = .ok contents ∧
      ValidUtf8 contents ∧ parseStagedApplyAttempt blake2b contents = .ok marker ∧
      marker.version = .v3 ∧ marker.attemptId = attemptId ∧ marker.phase = preparing ∧
      marker.appliedSlots = 0 ∧ marker.stageParent = none ∧ marker.stage = none ∧
      marker.entries = [] := by
  have lines := @single_applyAttemptLines side _ _ _ _ checks baseFilled filled
  have slot : ∀ value ∈ journalValues blake2b attemptId 0, Printable value ∧ value.length ≤ 100 :=
    fun value member => ⟨printable_slotValues value member, length_slotValues_le value member⟩
  have allShort : ∀ line ∈ startLines blake2b side statePath base actions attemptId,
      line.length ≤ maxStagedMarkerLineBytes := by
    refine List.forall_mem_append.mpr ⟨short, ?_⟩
    intro line member
    obtain ⟨value, inside, rfl⟩ := List.mem_map.mp member
    have small := (slot value inside).2
    have head : phaseSlotV3Prefix.length = 15 := rfl
    rw [slotLine, List.length_append, head, maxStagedMarkerLineBytes]
    omega
  have text : ValidUtf8 (v3Contents (startLines blake2b side statePath base actions attemptId)) := by
    refine (validUtf8_of_ascii (by decide)).append (validUtf8_unlines ?_)
    refine List.forall_mem_append.mpr ⟨fun line member => (lines line member).2, ?_⟩
    intro line member
    obtain ⟨value, inside, rfl⟩ := List.mem_map.mp member
    exact validUtf8_of_ascii fun byte member => ascii_slot (slot value inside).1 byte
      (List.mem_append_left _ member)
  obtain ⟨s, read, records, noSlots⟩ := readLines_applyAttemptLines checks baseFilled filled short
    stagedMarkerV3Magic.length
  obtain ⟨marker, parsed, v3, attempt, phase, none, parent, stage, entries⟩ :=
    @exists_parse blake2b _ s attemptId 0 (fun line member => (lines line member).1) read noSlots
      (by rw [records]) checks.attempt (by rw [records]) (by decide) (length_startLines_le allShort)
  rw [records] at parent stage entries
  refine ⟨_, marker, ?_, text, parsed, v3, attempt, phase, none, parent, stage, entries⟩
  have actionLines : (actions.any fun action => decide ¬isSingleLine action.path.bytes = true) = false := by
    rw [List.any_eq_false]
    intro action member
    simp [checks.actionLines action member]
  obtain ⟨name, found⟩ := Option.isSome_iff_exists.mp checks.stateName
  simp only [startContents, checks.attempt, checks.attemptLine, checks.baseLine, checks.stateLine,
    not_true_eq_false, or_self, if_false, actionLines, Bool.false_eq_true, applyAttemptName, found]
  have accepted : parseStagedApplyAttempt blake2b
      (v3Contents (startLines blake2b side statePath base actions attemptId)) = .ok marker := parsed
  rw [@contents_eq_startLines blake2b, accepted]
  rfl

end Start

/-! ## What an attempt records -/

/-- A name or a path that can be told apart in a line: a text of one line that is not empty. -/
structure Recordable (name : Bytes) : Prop where
  text : ValidUtf8 name
  nonempty : name ≠ []
  single : newline ∉ name

/-- A stage with such names. -/
structure StageRecord.IsRecordable (stage : StageRecord) : Prop where
  parent : Recordable stage.parent
  name : Recordable stage.name

/-- The lines that an attempt appends for its stage and its staged entries. -/
def recordedLines (stage : StageRecord) (entries : List (Bytes × FileIdentity)) : List Bytes :=
  stageLines stage ++ entries.map stageEntryLine

theorem inventoryOf_identityText {head name : Bytes} (recordable : Recordable name)
    (identity : FileIdentity) :
    inventoryOf head (head ++ identityText name identity) = some (name, identity) := by
  rw [inventoryOf_eq_some (stripPrefix_append _ _)]
  exact parseMarkerPathIdentity_identityText recordable.text recordable.nonempty identity

theorem single_identityLine {head name : Bytes} (isHead : newline ∉ head)
    (recordable : Recordable name) (identity : FileIdentity) :
    newline ∉ head ++ identityText name identity := by
  simp [isHead, newline_notMem_identityText recordable.single]

section Recorded

variable {stage : StageRecord} {entries : List (Bytes × FileIdentity)}

theorem single_recordedLines (recordable : stage.IsRecordable)
    (names : ∀ entry ∈ entries, Recordable entry.1) :
    ∀ line ∈ recordedLines stage entries, newline ∉ line ∧ ValidUtf8 line := by
  have line : ∀ head ∈ [ascii "stage-parent: ", ascii "stage: ", ascii "stage-entry: "],
      ∀ name identity, Recordable name → newline ∉ head ++ identityText name identity ∧
        ValidUtf8 (head ++ identityText name identity) := by
    have plain : ∀ head ∈ [ascii "stage-parent: ", ascii "stage: ", ascii "stage-entry: "],
        newline ∉ head ∧ IsAscii head := by decide
    intro head isHead name identity recordable
    obtain ⟨single, isAscii⟩ := plain head isHead
    exact ⟨single_identityLine single recordable identity,
      (validUtf8_of_ascii isAscii).append (validUtf8_identityText name identity)⟩
  refine List.forall_mem_append.mpr ⟨?_, ?_⟩
  · simp only [stageLines, List.forall_mem_cons]
    exact ⟨line _ (by simp) _ _ recordable.parent, line _ (by simp) _ _ recordable.name, by simp⟩
  · intro text member
    obtain ⟨entry, inside, rfl⟩ := List.mem_map.mp member
    exact line _ (by simp) _ _ (names entry inside)

theorem kinds_entryLines (names : ∀ entry ∈ entries, Recordable entry.1) :
    (entries.map stageEntryLine).filterMap parentOf = [] ∧
      (entries.map stageEntryLine).filterMap stageOf = [] ∧
      (entries.map stageEntryLine).filterMap entryOf = entries := by
  induction entries with
  | nil => exact ⟨rfl, rfl, rfl⟩
  | cons entry entries ih =>
    have here : entryOf (stageEntryLine entry) = some entry :=
      inventoryOf_identityText (names entry List.mem_cons_self) entry.2
    obtain ⟨noParent, noStage⟩ := kinds_of_entry here
    obtain ⟨parents, stages, others⟩ := ih fun entry member => names entry (List.mem_cons_of_mem _ member)
    simp [here, noParent, noStage, parents, stages, others]

/-- What the recorded lines are read as. -/
theorem kinds_recordedLines (recordable : stage.IsRecordable)
    (names : ∀ entry ∈ entries, Recordable entry.1) :
    (recordedLines stage entries).filterMap parentOf = [(stage.parent, stage.parentIdentity)] ∧
      (recordedLines stage entries).filterMap stageOf = [(stage.name, stage.identity)] ∧
      (recordedLines stage entries).filterMap entryOf = entries ∧
      ∀ line ∈ recordedLines stage entries, KnownLine line := by
  have parent : parentOf (ascii "stage-parent: " ++ identityText stage.parent stage.parentIdentity) =
      some (stage.parent, stage.parentIdentity) := inventoryOf_identityText recordable.parent _
  have name : stageOf (ascii "stage: " ++ identityText stage.name stage.identity) =
      some (stage.name, stage.identity) := inventoryOf_identityText recordable.name _
  obtain ⟨notStage, notEntry⟩ := kinds_of_parent parent
  obtain ⟨notParent, notEntry'⟩ := kinds_of_stage name
  obtain ⟨parents, stages, others⟩ := kinds_entryLines names
  refine ⟨?_, ?_, ?_, ?_⟩
  · simp [recordedLines, stageLines, parent, notParent, parents]
  · simp [recordedLines, stageLines, name, notStage, stages]
  · simp [recordedLines, stageLines, notEntry, notEntry', others]
  · intro line member
    simp only [recordedLines, stageLines, List.mem_append, List.mem_cons, List.mem_map,
      List.not_mem_nil, or_false] at member
    rcases member with (rfl | rfl) | ⟨entry, inside, rfl⟩
    · exact .inr (.inl (by simp [parent]))
    · exact .inr (.inr (.inl (by simp [name])))
    · have here : entryOf (stageEntryLine entry) = some entry :=
        inventoryOf_identityText (names entry inside) entry.2
      exact .inr (.inr (.inr (by simp [here])))

/-- The recorded lines may follow the slots of a marker with nothing recorded yet. -/
theorem appendable_recordedLines (recordable : stage.IsRecordable)
    (names : ∀ entry ∈ entries, Recordable entry.1) (distinct : (entries.map Prod.fst).Nodup)
    (short : ∀ line ∈ recordedLines stage entries, line.length ≤ maxStagedMarkerLineBytes) :
    Appendable none none [] (recordedLines stage entries) := by
  obtain ⟨parents, stages, others, known⟩ := kinds_recordedLines recordable names
  refine ⟨short, known, ?_, ?_, ?_, ?_⟩
  · simp [parents]
  · simp [stages]
  · simp
  · rw [others]
    exact List.pairwise_map.mp distinct

/-! ## The marker file -/

/-- The file holds an accepted V3 marker of an attempt in a phase, with exactly the given
stage and staged entries. -/
structure RecordsStage (blake2b : Bytes → Digest) (file : MarkerFile) (attemptId : Bytes)
    (phase : ApplyAttemptPhase) (stage : StageRecord) (entries : List (Bytes × FileIdentity)) :
    Prop where
  text : ValidUtf8 file.contents
  mode : file.mode &&& 0o7777 = 0o600
  parsed : ∃ marker, parseStagedApplyAttempt blake2b file.contents = .ok marker ∧
    marker.version = .v3 ∧ marker.attemptId = attemptId ∧ marker.phase = phase ∧
    marker.stageParent = some (stage.parent, stage.parentIdentity) ∧
    marker.stage = some (stage.name, stage.identity) ∧ marker.entries = entries

/-- One transition of the marker to its next phase. -/
def Transition (blake2b : Bytes → Digest) (attemptId : Bytes) (file written : MarkerFile) : Prop :=
  ∃ expected next, updateV3PhaseSlot blake2b file attemptId expected next = .ok written

theorem length_textLines_le {lines : List Bytes} (single : ∀ line ∈ lines, newline ∉ line)
    (short : ∀ line ∈ lines, line.length ≤ maxStagedMarkerLineBytes) :
    ∀ line ∈ PreparingMarker.textLines (unlines newline lines),
      line.length ≤ maxStagedMarkerLineBytes := by
  intro line member
  rw [PreparingMarker.textLines, splitInclusive_unlines single, List.map_map] at member
  obtain ⟨whole, inside, rfl⟩ := List.mem_map.mp member
  have bound := short whole inside
  simp only [Function.comp_apply, List.getLast?_append, List.getLast?_singleton, Option.some_or,
    if_true, List.dropLast_concat]
  split
  · rw [List.length_dropLast]
    omega
  · exact bound

/-- Lines within the limits are appended. -/
theorem append_unlines {self : PreparingMarker} {lines : List Bytes}
    (single : ∀ line ∈ lines, newline ∉ line)
    (short : ∀ line ∈ lines, line.length ≤ maxStagedMarkerLineBytes)
    (room : (self.file.contents ++ unlines newline lines).length ≤ maxStagedMarkerBytes) :
    self.append (unlines newline lines) =
      .ok { self with file := { self.file with
        contents := self.file.contents ++ unlines newline lines } } := by
  have within : ¬ ((PreparingMarker.textLines (unlines newline lines)).any
      (fun line => decide (line.length > maxStagedMarkerLineBytes)) = true ∨
        self.file.contents.length + (unlines newline lines).length > maxStagedMarkerBytes) := by
    rw [List.length_append] at room
    intro exceeds
    rcases exceeds with long | full
    · obtain ⟨line, member, exceeds⟩ := List.any_eq_true.mp long
      have bound := length_textLines_le single short line member
      exact absurd (of_decide_eq_true exceeds) (Nat.not_lt.mpr bound)
    · omega
  rw [PreparingMarker.append, if_neg within]

/-- Entries are appended one by one. -/
theorem foldlM_recordStageEntry {self : PreparingMarker}
    (names : ∀ entry ∈ entries, Recordable entry.1)
    (short : ∀ entry ∈ entries, (stageEntryLine entry).length ≤ maxStagedMarkerLineBytes)
    (room : (self.file.contents ++ unlines newline (entries.map stageEntryLine)).length ≤
      maxStagedMarkerBytes) :
    entries.foldlM PreparingMarker.recordStageEntry self =
      .ok { self with file := { self.file with
        contents := self.file.contents ++ unlines newline (entries.map stageEntryLine) } } := by
  induction entries generalizing self with
  | nil => simp [pure, Except.pure]
  | cons entry entries ih =>
    have first : newline ∉ stageEntryLine entry :=
      single_identityLine (by decide) (names entry List.mem_cons_self) entry.2
    have one : unlines newline [stageEntryLine entry] = stageEntryLine entry ++ [newline] := by simp
    have whole : self.file.contents ++ unlines newline ((entry :: entries).map stageEntryLine) =
        self.file.contents ++ unlines newline [stageEntryLine entry] ++
          unlines newline (entries.map stageEntryLine) := by simp
    rw [whole] at room ⊢
    have roomHere : (self.file.contents ++ unlines newline [stageEntryLine entry]).length ≤
        maxStagedMarkerBytes := by
      rw [List.length_append] at room
      omega
    have appended := @append_unlines self [stageEntryLine entry] (by simpa using first)
      (by simpa using short entry List.mem_cons_self) roomHere
    rw [one] at appended
    refine foldlM_cons_eq_ok.mpr ⟨_, appended, ?_⟩
    rw [← one]
    exact ih (fun entry member => names entry (List.mem_cons_of_mem _ member))
      (fun entry member => short entry (List.mem_cons_of_mem _ member)) room

end Recorded

section Attempt

variable {attemptId : Bytes} {stage : StageRecord} {entries : List (Bytes × FileIdentity)}

/-- A file with the marker of an attempt that has recorded nothing yet. -/
structure IsFresh (blake2b : Bytes → Digest) (file : MarkerFile) (attemptId : Bytes) : Prop where
  text : ValidUtf8 file.contents
  mode : file.mode &&& 0o7777 = 0o600
  parsed : ∃ marker, parseStagedApplyAttempt blake2b file.contents = .ok marker ∧
    marker.version = .v3 ∧ marker.attemptId = attemptId ∧ marker.phase = preparing ∧
    marker.stageParent = none ∧ marker.stage = none ∧ marker.entries = []

theorem IsFresh.open {file : MarkerFile} (fresh : IsFresh blake2b file attemptId) :
    PreparingMarker.open blake2b file attemptId = .ok ⟨file, attemptId⟩ := by
  obtain ⟨marker, parsed, v3, attempt, phase, _⟩ := fresh.parsed
  rw [PreparingMarker.open, if_neg (Nat.not_lt.mpr (length_le_of_parse parsed))]
  simp [readToString_eq_ok.mpr ⟨fresh.text, rfl⟩, parsed, v3, fresh.mode, attempt, phase, bind,
    Except.bind]

/-- Behind a fresh marker the recorded lines are read as the stage and its entries. -/
theorem IsFresh.records {file : MarkerFile} (fresh : IsFresh blake2b file attemptId)
    (recordable : stage.IsRecordable) (names : ∀ entry ∈ entries, Recordable entry.1)
    (distinct : (entries.map Prod.fst).Nodup)
    (short : ∀ line ∈ recordedLines stage entries, line.length ≤ maxStagedMarkerLineBytes)
    (room : (file.contents ++ unlines newline (recordedLines stage entries)).length ≤
      maxStagedMarkerBytes) :
    RecordsStage blake2b
      { file with contents := file.contents ++ unlines newline (recordedLines stage entries) }
      attemptId preparing stage entries := by
  obtain ⟨marker, parsed, v3, attempt, phase, noParent, noStage, noEntries⟩ := fresh.parsed
  have lines := single_recordedLines recordable names
  have appendable : Appendable marker.stageParent marker.stage marker.entries
      (recordedLines stage entries) := by
    rw [noParent, noStage, noEntries]
    exact appendable_recordedLines recordable names distinct short
  obtain ⟨marker', parsed', v3', attempt', phase', _, parent, name, all⟩ :=
    parse_of_appendable parsed v3 (fun line member => (lines line member).1) room appendable
  obtain ⟨parents, stages, others, _⟩ := kinds_recordedLines recordable names
  refine ⟨fresh.text.append (validUtf8_unlines fun line member => (lines line member).2), fresh.mode,
    marker', parsed', v3', attempt'.trans attempt, phase'.trans phase, ?_, ?_, ?_⟩
  · simp [parent, noParent, parents]
  · simp [name, noStage, stages]
  · simp [all, noEntries, others]

theorem RecordsStage.sync {file : MarkerFile}
    (records : RecordsStage blake2b file attemptId preparing stage entries) :
    PreparingMarker.sync blake2b ⟨file, attemptId⟩ = .ok () := by
  obtain ⟨marker, parsed, _, attempt, phase, _⟩ := records.parsed
  have read : PreparingMarker.readValidatedContents blake2b ⟨file, attemptId⟩ = .ok file.contents := by
    simp [PreparingMarker.readValidatedContents, readToString_eq_ok.mpr ⟨records.text, rfl⟩, parsed,
      attempt, phase, bind, Except.bind]
  simp [PreparingMarker.sync, read, bind, Except.bind]

/-- Recording the stage and then its entries. -/
theorem IsFresh.record {file : MarkerFile} (fresh : IsFresh blake2b file attemptId)
    (recordable : stage.IsRecordable) (names : ∀ entry ∈ entries, Recordable entry.1)
    (distinct : (entries.map Prod.fst).Nodup)
    (short : ∀ line ∈ recordedLines stage entries, line.length ≤ maxStagedMarkerLineBytes)
    (room : (file.contents ++ unlines newline (recordedLines stage entries)).length ≤
      maxStagedMarkerBytes) :
    ∃ staged prepared,
      PreparingMarker.recordStage blake2b ⟨file, attemptId⟩ stage = .ok staged ∧
      entries.foldlM PreparingMarker.recordStageEntry staged = .ok prepared ∧
      RecordsStage blake2b prepared.file attemptId preparing stage entries := by
  have whole : file.contents ++ unlines newline (recordedLines stage entries) =
      file.contents ++ unlines newline (stageLines stage) ++
        unlines newline (entries.map stageEntryLine) := by
    simp [recordedLines]
  have stageOnly : recordedLines stage [] = stageLines stage := by simp [recordedLines]
  have shortStage : ∀ line ∈ stageLines stage, line.length ≤ maxStagedMarkerLineBytes :=
    fun line member => short line (List.mem_append_left _ member)
  have roomStage : (file.contents ++ unlines newline (stageLines stage)).length ≤
      maxStagedMarkerBytes := by
    rw [whole, List.length_append] at room
    omega
  have lines := @single_recordedLines stage [] recordable (by simp)
  rw [stageOnly] at lines
  have appended := @append_unlines ⟨file, attemptId⟩ (stageLines stage)
    (fun line member => (lines line member).1) shortStage roomStage
  have recorded := @IsFresh.records _ _ stage [] _ fresh recordable (by simp) (by simp)
    (by rwa [stageOnly]) (by rwa [stageOnly])
  rw [stageOnly] at recorded
  rw [whole] at room
  refine ⟨_, _, ?_, @foldlM_recordStageEntry entries
    ⟨{ file with contents := file.contents ++ unlines newline (stageLines stage) }, attemptId⟩
    names ?_ room, ?_⟩
  · rw [PreparingMarker.recordStage, appended]
    simp only [bind, Except.bind]
    rw [recorded.sync]
  · intro entry member
    exact short _ (List.mem_append_right _ (List.mem_map_of_mem member))
  · have all := fresh.records recordable names distinct short (whole ▸ room)
    rwa [whole] at all

/-! ## Phase transitions -/

/-- A transition that succeeds is one of an accepted marker to its next phase, and keeps all
that is recorded in it. -/
theorem parse_of_updateV3PhaseSlot {file written : MarkerFile} {marker : V2ApplyAttemptMarker}
    {attemptId : Bytes} {expected : List ApplyAttemptPhase} {next : ApplyAttemptPhase}
    (ok : updateV3PhaseSlot blake2b file attemptId expected next = .ok written)
    (parsed : parseStagedApplyAttempt blake2b file.contents = .ok marker) :
    parseStagedApplyAttempt blake2b written.contents = .ok (marker.advance blake2b next) ∧
      ValidUtf8 written.contents ∧ written.mode = file.mode := by
  unfold updateV3PhaseSlot at ok
  split at ok
  · cases ok
  split at ok
  · cases ok
  obtain ⟨text, read, ok⟩ := bind_eq_ok.mp ok
  obtain ⟨_, rfl⟩ := readToString_eq_ok.mp read
  obtain ⟨marker', parsed', ok⟩ := bind_eq_ok.mp ok
  cases parsed.symm.trans parsed'
  obtain ⟨⟨offset, line⟩, write, ok⟩ := bind_eq_ok.mp ok
  obtain ⟨_, readAgain, ok⟩ := bind_eq_ok.mp ok
  obtain ⟨writtenText, rfl⟩ := readToString_eq_ok.mp readAgain
  obtain ⟨_, _, ok⟩ := bind_eq_ok.mp ok
  split at ok
  · cases ok
  cases ok
  obtain ⟨v3, _, _, follows, found, rfl⟩ := slotWrite_eq_ok.mp write
  exact ⟨parse_writeAt parsed v3 follows found, writtenText, rfl⟩

theorem RecordsStage.step {file written : MarkerFile} {phase : ApplyAttemptPhase}
    (records : RecordsStage blake2b file attemptId phase stage entries)
    (transition : Transition blake2b attemptId file written) :
    ∃ next, RecordsStage blake2b written attemptId next stage entries := by
  obtain ⟨expected, next, ok⟩ := transition
  obtain ⟨marker, parsed, v3, attempt, _, parent, name, all⟩ := records.parsed
  obtain ⟨parsed', text, mode⟩ := parse_of_updateV3PhaseSlot ok parsed
  exact ⟨next, text, mode ▸ records.mode, _, parsed', v3, attempt, rfl, parent, name, all⟩

/-- Over any number of transitions the recorded stage and entries stay. -/
theorem RecordsStage.run {file reached : MarkerFile} {phase : ApplyAttemptPhase}
    (records : RecordsStage blake2b file attemptId phase stage entries)
    (run : ReflTransGen (Transition blake2b attemptId) file reached) :
    ∃ phase, RecordsStage blake2b reached attemptId phase stage entries := by
  refine invariant_of_run
    (I := fun file => ∃ phase, RecordsStage blake2b file attemptId phase stage entries) ?_ run
    ⟨phase, records⟩
  intro file written ⟨phase, records⟩ transition
  exact records.step transition

theorem RecordsStage.next {file : MarkerFile} {phase next : ApplyAttemptPhase}
    (records : RecordsStage blake2b file attemptId phase stage entries)
    (follows : nextStagedPhase phase = some next) :
    ∃ written, Transition blake2b attemptId file written ∧
      RecordsStage blake2b written attemptId next stage entries := by
  obtain ⟨marker, parsed, v3, rfl, rfl, parent, name, all⟩ := records.parsed
  obtain ⟨written, ok, parsed', mode, text⟩ :=
    updateV3PhaseSlot_ok records.text records.mode parsed v3 (List.mem_singleton.mpr rfl) follows
  exact ⟨written, ⟨_, _, ok⟩, text, mode ▸ records.mode, _, parsed', v3, rfl, rfl, parent, name, all⟩

/-- Every phase is reached from the initial one. -/
theorem RecordsStage.reaches {file : MarkerFile}
    (records : RecordsStage blake2b file attemptId preparing stage entries)
    (phase : ApplyAttemptPhase) :
    ∃ reached, ReflTransGen (Transition blake2b attemptId) file reached ∧
      RecordsStage blake2b reached attemptId phase stage entries := by
  have more : ∀ {phase next}, nextStagedPhase phase = some next →
      (∃ reached, ReflTransGen (Transition blake2b attemptId) file reached ∧
        RecordsStage blake2b reached attemptId phase stage entries) →
      ∃ reached, ReflTransGen (Transition blake2b attemptId) file reached ∧
        RecordsStage blake2b reached attemptId next stage entries := by
    intro phase next follows reaches
    obtain ⟨reached, run, there⟩ := reaches
    obtain ⟨written, transition, records⟩ := there.next follows
    exact ⟨written, run.tail transition, records⟩
  have start : ∃ reached, ReflTransGen (Transition blake2b attemptId) file reached ∧
      RecordsStage blake2b reached attemptId preparing stage entries := ⟨file, .refl, records⟩
  cases phase with
  | preparing => exact start
  | prepared => exact more rfl start
  | committing => exact more rfl (more rfl start)
  | committed => exact more rfl (more rfl (more rfl start))
  | stateSave => exact more rfl (more rfl (more rfl (more rfl start)))
  | finished => exact more rfl (more rfl (more rfl (more rfl (more rfl start))))

end Attempt

/-! ## The round trip -/

/-- The inventory of a marker. The contents that an attempt starts with are an accepted V3
marker of the attempt, in its initial phase and without an applied slot. Behind them the stage
and the entries that are recorded, within the size limits, are read back exactly, in the
initial phase and over every run of phase transitions, and every phase is reached so. -/
theorem markerInventory_roundTrip (blake2b : Bytes → Digest) {side : Side}
    {statePath base : Bytes} {actions : List Action} {attemptId : Bytes}
    (checks : PassesChecks statePath base actions attemptId) (baseFilled : base ≠ [])
    (filled : ∀ action ∈ actions, action.path.bytes ≠ [])
    (short : ∀ line ∈ applyAttemptLines side statePath base preparing actions (some attemptId),
      line.length ≤ maxStagedMarkerLineBytes) :
    ∃ contents marker,
      startContents blake2b side statePath base actions attemptId = .ok contents ∧
      parseStagedApplyAttempt blake2b contents = .ok marker ∧ marker.version = .v3 ∧
      marker.attemptId = attemptId ∧ marker.phase = preparing ∧ marker.appliedSlots = 0 ∧
      ∀ stage entries, stage.IsRecordable → (∀ entry ∈ entries, Recordable entry.1) →
        (entries.map Prod.fst).Nodup →
        (∀ line ∈ recordedLines stage entries, line.length ≤ maxStagedMarkerLineBytes) →
        (contents ++ unlines newline (recordedLines stage entries)).length ≤ maxStagedMarkerBytes →
        ∃ opened staged prepared,
          PreparingMarker.open blake2b ⟨contents, 0o600⟩ attemptId = .ok opened ∧
          opened.recordStage blake2b stage = .ok staged ∧
          entries.foldlM PreparingMarker.recordStageEntry staged = .ok prepared ∧
          RecordsStage blake2b prepared.file attemptId preparing stage entries ∧
          (∀ reached, ReflTransGen (Transition blake2b attemptId) prepared.file reached →
            ∃ phase, RecordsStage blake2b reached attemptId phase stage entries) ∧
          ∀ phase, ∃ reached, ReflTransGen (Transition blake2b attemptId) prepared.file reached ∧
            RecordsStage blake2b reached attemptId phase stage entries := by
  obtain ⟨contents, marker, started, text, parsed, v3, attempt, phase, noSlots, parent, name, none⟩ :=
    @startContents_eq_ok blake2b side _ _ _ _ checks baseFilled filled short
  refine ⟨contents, marker, started, parsed, v3, attempt, phase, noSlots, ?_⟩
  intro stage entries recordable names distinct shortLines room
  have fresh : IsFresh blake2b ⟨contents, 0o600⟩ attemptId :=
    ⟨text, by simp only; decide, marker, parsed, v3, attempt, phase, parent, name, none⟩
  obtain ⟨staged, prepared, recordStage, recordEntries, records⟩ :=
    fresh.record recordable names distinct shortLines room
  exact ⟨_, staged, prepared, fresh.open, recordStage, recordEntries, records,
    fun reached run => records.run run, records.reaches⟩

/-! ## An empty base path -/

theorem emptyBase_passesChecks : PassesChecks (ascii "/s") [] [] (ascii "a") :=
  ⟨validUtf8_of_ascii (by decide), by decide, by decide, by decide, by decide, by simp, by decide⟩

/-- An empty base path and short texts pass the checks, but their marker is refused before it
is written. -/
theorem markerInventory_emptyBase : PassesChecks (ascii "/s") [] [] (ascii "a") ∧
    (∀ line ∈ applyAttemptLines .local (ascii "/s") [] preparing [] (some (ascii "a")),
      line.length ≤ maxStagedMarkerLineBytes) ∧
    ¬ ∃ contents, startContents (fun _ => noDigest) .local (ascii "/s") [] [] (ascii "a") =
      .ok contents := by
  refine ⟨emptyBase_passesChecks, by decide +kernel, ?_⟩
  intro ⟨contents, started⟩
  have refused : (startContents (fun _ => noDigest) .local (ascii "/s") [] [] (ascii "a")).toOption =
      none := by decide +kernel
  rw [started] at refused
  cases refused

/-- A new file with the name of a line, a file that changes, and a removed directory. -/
def keywordActions : List Action :=
  let file : String → DirEntryWithMeta :=
    fun name => ⟨[.normal (ascii name)], 3, 0, 7, 0o100644, none, false, 1, none⟩
  [.local (.added (file "phase: prepared")),
    .local (.modified (file "r") { file "r" with size := 4 }),
    .remote (.removed { file "z 1" with isDir := true })]

/-- The lines of their marker. All three lists are in order already. -/
theorem lines_keywordActions :
    applyAttemptLines .local (ascii "/s") (ascii "phase: finished") preparing keywordActions
        (some (ascii "stage: a 1 2")) =
      ["side: local", "base: phase: finished", "state: /s", "phase: preparing", "path-count: 3",
        "operation-count: 3", "unstaged-operation-count: 3", "attempt-id: stage: a 1 2",
        "path: phase: prepared", "path: r", "path: z 1", "operation: add-file phase: prepared",
        "operation: modify-file r", "operation: remove-dir z 1",
        "unstaged-operation: metadata phase: prepared", "unstaged-operation: metadata r",
        "unstaged-operation: remove-dir z 1"].map ascii := by
  have paths : sortDedup id (keywordActions.map Action.path) = keywordActions.map Action.path :=
    sortDedup_of_sorted (by decide +kernel) (by decide +kernel)
  unfold applyAttemptLines applyAttemptOperations applyAttemptUnstagedOperations
  rw [paths, sortDedup_of_sorted (by decide +kernel) (by decide +kernel),
    sortDedup_of_sorted (by decide +kernel) (by decide +kernel)]
  decide +kernel

/-- An attempt whose id, base path, actions and names look like lines of a marker. -/
theorem markerInventory_roundTrip_keywords : ∃ contents prepared,
    startContents (fun _ => noDigest) .local (ascii "/s") (ascii "phase: finished") keywordActions
      (ascii "stage: a 1 2") = .ok contents ∧
    RecordsStage (fun _ => noDigest) prepared (ascii "stage: a 1 2") preparing
      ⟨ascii "/p 3 4", ⟨1, 2⟩, ascii "stage-entry: b", ⟨3, 4⟩⟩
      [(ascii "attempt-id: c 5", ⟨5, 6⟩)] := by
  have checks : PassesChecks (ascii "/s") (ascii "phase: finished") keywordActions
      (ascii "stage: a 1 2") :=
    ⟨validUtf8_of_ascii (by decide), by decide, by decide, by decide, by decide, by decide +kernel,
      by decide⟩
  have recordable : ∀ name ∈ [ascii "/p 3 4", ascii "stage-entry: b", ascii "attempt-id: c 5"],
      Recordable name := by
    have plain : ∀ name ∈ [ascii "/p 3 4", ascii "stage-entry: b", ascii "attempt-id: c 5"],
        IsAscii name ∧ name ≠ [] ∧ newline ∉ name := by decide
    intro name member
    obtain ⟨isAscii, nonempty, single⟩ := plain name member
    exact ⟨validUtf8_of_ascii isAscii, nonempty, single⟩
  obtain ⟨contents, marker, started, _, _, _, _, _, records⟩ :=
    @markerInventory_roundTrip (fun _ => noDigest) .local _ _ _ _ checks (by decide)
      (by decide +kernel) (by rw [lines_keywordActions]; decide +kernel)
  have small : (startContents (fun _ => noDigest) .local (ascii "/s") (ascii "phase: finished")
      keywordActions (ascii "stage: a 1 2")).toOption.all (fun contents => contents.length ≤ 2000) =
        true := by
    unfold startContents applyAttemptContents
    rw [lines_keywordActions]
    decide +kernel
  rw [started] at small
  have room : (contents ++ unlines newline (recordedLines
      ⟨ascii "/p 3 4", ⟨1, 2⟩, ascii "stage-entry: b", ⟨3, 4⟩⟩
      [(ascii "attempt-id: c 5", ⟨5, 6⟩)])).length ≤ maxStagedMarkerBytes := by
    have appended : (unlines newline (recordedLines
        ⟨ascii "/p 3 4", ⟨1, 2⟩, ascii "stage-entry: b", ⟨3, 4⟩⟩
        [(ascii "attempt-id: c 5", ⟨5, 6⟩)])).length ≤ 200 := by decide +kernel
    have started : contents.length ≤ 2000 := of_decide_eq_true small
    rw [List.length_append, maxStagedMarkerBytes]
    omega
  obtain ⟨_, _, prepared, _, _, _, recorded, _⟩ := records
    ⟨ascii "/p 3 4", ⟨1, 2⟩, ascii "stage-entry: b", ⟨3, 4⟩⟩ [(ascii "attempt-id: c 5", ⟨5, 6⟩)]
    ⟨recordable _ (by simp), recordable _ (by simp)⟩ (by simpa using recordable _ (by simp))
    (by simp) (by decide +kernel) room
  exact ⟨contents, prepared.file, started, recorded⟩

end Duet.Marker
