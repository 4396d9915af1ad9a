import Duet.Lib.TornWrite
import Duet.Sync.MarkerSlots
import Mathlib.Logic.Relation

/-!
# The phase journal

Where the slots of an accepted V3 marker stand, how a transition overwrites the next one,
and what a torn write of a slot can be read as.
-/

namespace Duet.Marker

open Lib Relation
open ApplyAttemptPhase (preparing prepared committing committed stateSave finished)

/-! ## One line of the inventory -/

theorem stripPrefix_eq_some {line front value : Bytes} :
    stripPrefix line front = some value ↔ line = front ++ value := by
  simp [stripPrefix, List.dropPrefix?_eq_some_iff]

theorem stripPrefix_eq_none {line front : Bytes} :
    stripPrefix line front = none ↔ ¬ front <+: line := by
  rw [Option.eq_none_iff_forall_ne_some]
  constructor
  · intro none starts
    obtain ⟨value, same⟩ := starts
    exact none value (stripPrefix_eq_some.mpr same.symm)
  · intro other value found
    exact other ⟨value, (stripPrefix_eq_some.mp found).symm⟩

@[simp] theorem stripPrefix_append (front value : Bytes) :
    stripPrefix (front ++ value) front = some value :=
  stripPrefix_eq_some.mpr rfl

/-- The line of a slot. -/
def slotLine (value : Bytes) : Bytes := phaseSlotV3Prefix ++ value

theorem newline_notMem_slotLine {value : Bytes} (single : newline ∉ value) :
    newline ∉ slotLine value := by
  have front : newline ∉ phaseSlotV3Prefix := by decide
  simp [slotLine, front, single]

/-- Whether a line is one of a slot. -/
def IsSlotLine (line : Bytes) : Prop := phaseSlotV3Prefix <+: line

/-- The inventory behind one more slot. -/
def Inventory.addSlot (s : Inventory) (value : Bytes) : Inventory :=
  { s with slotOffsets := s.slotOffsets.set s.slots.length s.offset, slots := s.slots ++ [value] }

theorem readInventoryLine_slot {s t : Inventory} {value : Bytes} :
    readInventoryLine .v3 s (slotLine value) = .ok t ↔
      (slotLine value).length ≤ maxStagedMarkerLineBytes ∧ s.slots.length ≠ v3Phases.length ∧
        t = s.addSlot value := by
  have starts : phaseSlotV3Prefix <+: slotLine value := List.prefix_append _ _
  have strips : stripPrefix (slotLine value) phaseSlotV3Prefix = some value :=
    stripPrefix_append _ _
  simp only [readInventoryLine, starts, strips, not_true_eq_false, and_false, if_false, ne_eq,
    false_or, Inventory.addSlot]
  split
  · next long => simp; omega
  · next short =>
    split
    · next full => simp [full]
    · next room => simp [room, Nat.le_of_not_lt short, eq_comm]

/-- A line that is no slot stands before all slots or behind all of them, and changes the
records only. -/
theorem readInventoryLine_other {s t : Inventory} {line : Bytes} (other : ¬ IsSlotLine line) :
    readInventoryLine .v3 s line = .ok t ↔
      line.length ≤ maxStagedMarkerLineBytes ∧
        (s.slots = [] ∨ v3Phases.length ≤ s.slots.length) ∧
        ∃ records, readRecordLine .v3 s.slots.length s.records line = .ok records ∧
          t = { s with records := records } := by
  have strips : stripPrefix line phaseSlotV3Prefix = none := stripPrefix_eq_none.mpr other
  unfold readInventoryLine
  split
  · next long => simp; omega
  · next short =>
    split
    · next gap =>
      have inside : ¬ (s.slots = [] ∨ v3Phases.length ≤ s.slots.length) := by
        intro outside
        rcases outside with none | full
        · exact gap.2.1 none
        · exact absurd gap.2.2.1 (Nat.not_lt.mpr full)
      simp [inside]
    · next noGap =>
      have outside : s.slots = [] ∨ v3Phases.length ≤ s.slots.length := by
        by_cases none : s.slots = []
        · exact .inl none
        · exact .inr (Nat.le_of_not_lt fun room => noGap ⟨rfl, none, room, other⟩)
      simp only [strips, bind_eq_ok, Except.ok.injEq, eq_comm (b := t)]
      simp [outside, Nat.le_of_not_lt short]

/-! ## The loop over the lines -/

/-- The loop of the parser over the lines behind the first one. -/
def readLines (s : Inventory) (lines : List Bytes) : Except String Inventory :=
  lines.foldlM (fun s line => inventoryStep .v3 s (line ++ [newline])) s

theorem inventoryStep_line {s t : Inventory} {line : Bytes} (single : newline ∉ line) :
    inventoryStep .v3 s (line ++ [newline]) = .ok t ↔
      ∃ u, readInventoryLine .v3 s line = .ok u ∧
        t = { u with offset := u.offset + (line.length + 1) } := by
  simp only [inventoryStep, trimEndMatches_concat single, bind_eq_ok, Except.ok.injEq,
    List.length_append, List.length_singleton, eq_comm (b := t)]

/-- The values of the slots among some lines. -/
def slotsOf (lines : List Bytes) : List Bytes :=
  lines.filterMap fun line => stripPrefix line phaseSlotV3Prefix

@[simp] theorem slotsOf_nil : slotsOf [] = [] := rfl

@[simp] theorem slotsOf_append (front back : List Bytes) :
    slotsOf (front ++ back) = slotsOf front ++ slotsOf back := by
  simp [slotsOf]

@[simp] theorem slotsOf_cons_slotLine (value : Bytes) (lines : List Bytes) :
    slotsOf (slotLine value :: lines) = value :: slotsOf lines := by
  simp [slotsOf, slotLine]

theorem slotsOf_map_slotLine (values : List Bytes) : slotsOf (values.map slotLine) = values := by
  induction values with
  | nil => rfl
  | cons value values ih => simp [ih]

theorem slotsOf_eq_nil {lines : List Bytes} (others : ∀ line ∈ lines, ¬ IsSlotLine line) :
    slotsOf lines = [] := by
  rw [slotsOf, List.filterMap_eq_nil_iff]
  exact fun line member => stripPrefix_eq_none.mpr (others line member)

/-- Where the slots stand among the lines read so far. -/
structure SlotLayout (start : Nat) (lines : List Bytes) (s : Inventory) : Prop where
  /-- The offset behind the lines. -/
  offset : s.offset = start + (unlines newline lines).length
  values : s.slots = slotsOf lines
  atMostFive : s.slots.length ≤ v3Phases.length
  fiveOffsets : s.slotOffsets.length = v3Phases.length
  /-- The slots stand next to each other, and lines follow them only when there are five. -/
  consecutive : ∃ before after, lines = before ++ s.slots.map slotLine ++ after ∧
    (∀ line ∈ before ++ after, ¬ IsSlotLine line) ∧
    (after = [] ∨ s.slots.length = v3Phases.length)
  /-- The offset of a slot is where its line begins. -/
  offsets : ∀ front value rest, lines = front ++ slotLine value :: rest →
    s.slotOffsets[(slotsOf front).length]? = some (start + (unlines newline front).length)

theorem SlotLayout.start (start : Nat) : SlotLayout start [] (Inventory.start start) where
  offset := rfl
  values := rfl
  atMostFive := Nat.zero_le _
  fiveOffsets := rfl
  consecutive := ⟨[], [], rfl, by simp, .inl rfl⟩
  offsets := by simp

section Layout

variable {start : Nat} {lines : List Bytes} {s t : Inventory} {line : Bytes}

theorem SlotLayout.slot {value : Bytes} (layout : SlotLayout start lines s)
    (room : s.slots.length ≠ v3Phases.length) :
    SlotLayout start (lines ++ [slotLine value])
      { s.addSlot value with offset := s.offset + ((slotLine value).length + 1) } := by
  have less : s.slots.length < v3Phases.length := Nat.lt_of_le_of_ne layout.atMostFive room
  refine ⟨?_, ?_, ?_, ?_, ?_, ?_⟩
  · simp [layout.offset, Nat.add_assoc]
  · simp [Inventory.addSlot, layout.values]
  · simpa [Inventory.addSlot, Nat.succ_le_iff] using less
  · simp [Inventory.addSlot, layout.fiveOffsets]
  · obtain ⟨before, after, same, others, behind⟩ := layout.consecutive
    have none : after = [] := behind.resolve_right room
    subst none
    refine ⟨before, [], ?_, others, .inl rfl⟩
    simp [Inventory.addSlot, same]
  · intro front value' rest same
    rcases concat_eq_append_cons same with ⟨rfl, -⟩ | ⟨rest', earlier⟩
    · have count : (slotsOf lines).length = s.slots.length := by rw [layout.values]
      simp [Inventory.addSlot, count, layout.fiveOffsets, less, layout.offset]
    · have old := layout.offsets front value' rest' earlier
      have other : s.slots.length ≠ (slotsOf front).length := by
        simp [layout.values, earlier]
      simpa [Inventory.addSlot, List.getElem?_set_ne other] using old

theorem SlotLayout.other (layout : SlotLayout start lines s) (notSlot : ¬ IsSlotLine line)
    (outside : s.slots = [] ∨ v3Phases.length ≤ s.slots.length) (records : Records) :
    SlotLayout start (lines ++ [line])
      { s with records := records, offset := s.offset + (line.length + 1) } := by
  have none : slotsOf [line] = [] := slotsOf_eq_nil (by simpa using notSlot)
  refine ⟨?_, ?_, layout.atMostFive, layout.fiveOffsets, ?_, ?_⟩
  · simp [layout.offset, Nat.add_assoc]
  · simp [none, layout.values]
  · obtain ⟨before, after, same, others, behind⟩ := layout.consecutive
    rcases outside with empty | full
    · refine ⟨before ++ after ++ [line], [], ?_, ?_, .inl rfl⟩
      · simp [same, empty]
      · simpa [notSlot, or_imp, forall_and] using others
    · refine ⟨before, after ++ [line], by simp [same], ?_,
        .inr (Nat.le_antisymm layout.atMostFive full)⟩
      simpa [notSlot, or_imp, forall_and, and_assoc] using others
  · intro front value rest same
    rcases concat_eq_append_cons same with ⟨-, here⟩ | ⟨rest', earlier⟩
    · exact absurd (here ▸ List.prefix_append _ _) notSlot
    · exact layout.offsets front value rest' earlier

/-- Reading one more line keeps the layout. -/
theorem SlotLayout.step (layout : SlotLayout start lines s) (single : newline ∉ line)
    (read : inventoryStep .v3 s (line ++ [newline]) = .ok t) :
    SlotLayout start (lines ++ [line]) t := by
  obtain ⟨u, here, rfl⟩ := (inventoryStep_line single).mp read
  by_cases slot : IsSlotLine line
  · obtain ⟨value, rfl⟩ := slot
    obtain ⟨-, room, rfl⟩ := readInventoryLine_slot.mp here
    exact layout.slot room
  · obtain ⟨-, outside, records, -, rfl⟩ := (readInventoryLine_other slot).mp here
    exact layout.other slot outside records

/-- The slots of all lines that the parser read. -/
theorem slotLayout_of_readLines (single : ∀ line ∈ lines, newline ∉ line)
    (read : readLines (Inventory.start start) lines = .ok s) : SlotLayout start lines s := by
  have layout := foldlM_invariant
    (I := fun front s => (∀ line ∈ front, newline ∉ line) → SlotLayout start front s)
    (fun _ => SlotLayout.start start) ?_ read
  · exact layout single
  · intro front line u v layout here lines
    apply (layout fun line member => lines line (List.mem_append_left _ member)).step ?_ here
    exact lines line (by simp)

end Layout

/-! ## Accepted V3 markers -/

section Accepted

variable {blake2b : Bytes → Digest}

/-- The V3 marker with the given lines behind the first one. -/
def v3Contents (lines : List Bytes) : Bytes := stagedMarkerV3Magic ++ unlines newline lines

theorem getLast?_v3Contents (lines : List Bytes) :
    (v3Contents lines).getLast? = some newline := by
  rw [v3Contents, List.getLast?_append]
  by_cases empty : lines = []
  · subst empty
    rfl
  · rw [getLast?_unlines empty]
    rfl

theorem firstLineLength_v3Contents (lines : List Bytes) :
    firstLineLength (v3Contents lines) = stagedMarkerV3Magic.length := by
  have first : stagedMarkerV3Magic.findIdx? (· = newline) = some 32 := by decide
  rw [firstLineLength, v3Contents, List.findIdx?_append, first]
  rfl

/-- How the parser reads the lines of a V3 marker. -/
theorem parse_v3Contents {lines : List Bytes} {marker : V2ApplyAttemptMarker}
    (single : ∀ line ∈ lines, newline ∉ line) :
    parseStagedApplyAttempt blake2b (v3Contents lines) = .ok marker ↔
      (v3Contents lines).length ≤ maxStagedMarkerBytes ∧
        ∃ s, readLines (Inventory.start stagedMarkerV3Magic.length) lines = .ok s ∧
          finishInventory blake2b .v3 s = .ok marker := by
  have magic : stagedMarkerV3Magic <+: v3Contents lines := List.prefix_append _ _
  have behind : (v3Contents lines).drop stagedMarkerV3Magic.length = unlines newline lines :=
    List.drop_left
  unfold parseStagedApplyAttempt
  split
  · next long => simp; omega
  · next short =>
    simp only [parseStagedInventory, getLast?_v3Contents, ne_eq, not_true_eq_false, and_false,
      if_false, firstLineLength_v3Contents, behind, splitInclusive_unlines single,
      List.foldlM_map, bind_eq_ok, Nat.le_of_not_lt short, true_and]
    rfl

theorem version_finishInventory {version : StagedMarkerVersion} {s : Inventory}
    {marker : V2ApplyAttemptMarker} (finish : finishInventory blake2b version s = .ok marker) :
    marker.version = version := by
  unfold finishInventory at finish
  (repeat' split at finish) <;> first
    | (cases finish)
    | (obtain ⟨_, _, made⟩ := bind_eq_ok.mp finish
       cases made
       rfl)

/-- Every contents that is accepted as V3 is made of lines. -/
theorem exists_lines_of_v3 {contents : Bytes} {marker : V2ApplyAttemptMarker}
    (parsed : parseStagedApplyAttempt blake2b contents = .ok marker)
    (v3 : marker.version = .v3) :
    ∃ lines, (∀ line ∈ lines, newline ∉ line) ∧ contents = v3Contents lines := by
  unfold parseStagedApplyAttempt at parsed
  split at parsed
  · cases parsed
  split at parsed
  · next magic =>
    obtain ⟨text, rfl⟩ := magic
    unfold parseStagedInventory at parsed
    split at parsed
    · cases parsed
    next ended =>
    have ended : ∀ last ∈ text.getLast?, last = newline := by
      intro last member
      simp only [true_and, not_not, List.getLast?_append, Option.mem_def.mp member] at ended
      simpa using ended
    obtain ⟨lines, single, rfl⟩ := exists_lines text ended
    exact ⟨lines, single, rfl⟩
  split at parsed
  · unfold parseStagedInventory at parsed
    split at parsed
    · cases parsed
    obtain ⟨s, _, finish⟩ := bind_eq_ok.mp parsed
    rw [version_finishInventory finish] at v3
    cases v3
  · cases parsed

/-- An accepted V3 contents: five slots next to each other between lines without slots,
the first of them applied. -/
structure IsJournal (blake2b : Bytes → Digest) (contents : Bytes) (marker : V2ApplyAttemptMarker)
    (before after : List Bytes) : Prop where
  contents_eq : contents = v3Contents (before ++
    (journalValues blake2b marker.attemptId marker.appliedSlots).map slotLine ++ after)
  single : ∀ line ∈ before ++ after, newline ∉ line
  noSlots : ∀ line ∈ before ++ after, ¬ IsSlotLine line
  atMostFive : marker.appliedSlots ≤ v3Phases.length
  phase : marker.phase = phaseAfter marker.appliedSlots
  digest : marker.appliedDigest = journalDigest blake2b marker.attemptId marker.appliedSlots
  offsets : ∀ index < v3Phases.length, marker.slotOffsets[index]? = some (v3Contents (before ++
    ((journalValues blake2b marker.attemptId marker.appliedSlots).take index).map slotLine)).length

theorem exists_journal {contents : Bytes} {marker : V2ApplyAttemptMarker}
    (parsed : parseStagedApplyAttempt blake2b contents = .ok marker)
    (v3 : marker.version = .v3) : ∃ before after, IsJournal blake2b contents marker before after := by
  obtain ⟨lines, single, rfl⟩ := exists_lines_of_v3 parsed v3
  obtain ⟨_, s, read, finish⟩ := (parse_v3Contents single).mp parsed
  obtain ⟨attemptId, applied, _, _, _, small, slots, rfl⟩ := finishInventory_v3.mp finish
  have layout := slotLayout_of_readLines single read
  obtain ⟨before, after, same, others, _⟩ := layout.consecutive
  rw [slots] at same
  have noSlots : slotsOf before = [] :=
    slotsOf_eq_nil fun line member => others line (List.mem_append_left _ member)
  refine ⟨before, after, by simp [same], ?_, others, small, rfl, rfl, ?_⟩
  · intro line member
    apply single line
    rw [same]
    rcases List.mem_append.mp member with member | member <;> simp [member]
  · intro index inside
    have five : index < (journalValues blake2b attemptId applied).length := by
      simpa [v3Phases] using inside
    have split := List.take_append_drop index (journalValues blake2b attemptId applied)
    rw [List.drop_eq_getElem_cons five] at split
    have here := layout.offsets
      (before ++ ((journalValues blake2b attemptId applied).take index).map slotLine)
      (journalValues blake2b attemptId applied)[index]
      (((journalValues blake2b attemptId applied).drop (index + 1)).map slotLine ++ after) (by
        rw [same]
        nth_rewrite 1 [← split]
        simp only [List.map_append, List.map_cons, List.append_assoc, List.cons_append])
    have count : min index 5 = index := Nat.min_eq_left (Nat.le_of_lt inside)
    rw [slotsOf_append, noSlots, List.nil_append, slotsOf_map_slotLine, List.length_take,
      length_journalValues, count] at here
    rw [here, v3Contents, List.length_append]

end Accepted

/-! ## Overwriting one slot -/

section Overwrite

/-- The values of the slots before a line do not matter for reading it. -/
theorem inventoryStep_withSlots {s t : Inventory} {line : Bytes} {slots : List Bytes}
    (single : newline ∉ line) (read : inventoryStep .v3 s (line ++ [newline]) = .ok t)
    (same : slots.length = s.slots.length) :
    inventoryStep .v3 { s with slots := slots } (line ++ [newline]) =
      .ok { t with slots := slots ++ slotsOf [line] } := by
  obtain ⟨u, here, rfl⟩ := (inventoryStep_line single).mp read
  rw [inventoryStep_line single]
  by_cases slot : IsSlotLine line
  · obtain ⟨value, rfl⟩ := slot
    obtain ⟨short, room, rfl⟩ := readInventoryLine_slot.mp here
    refine ⟨_, readInventoryLine_slot.mpr ⟨short, by simpa [same] using room, rfl⟩, ?_⟩
    rw [show slotsOf [phaseSlotV3Prefix ++ value] = [value] from slotsOf_cons_slotLine value []]
    simp [Inventory.addSlot, same]
  · obtain ⟨short, outside, records, record, rfl⟩ := (readInventoryLine_other slot).mp here
    have none : slotsOf [line] = [] := slotsOf_eq_nil (by simpa using slot)
    refine ⟨_, (readInventoryLine_other slot).mpr ⟨short, ?_, records, ?_, rfl⟩, by simp [none]⟩
    · simpa [← List.length_eq_zero_iff, same] using outside
    · simpa [same] using record

/-- A step adds the slots of its line. -/
theorem slots_of_inventoryStep {s t : Inventory} {line : Bytes} (single : newline ∉ line)
    (read : inventoryStep .v3 s (line ++ [newline]) = .ok t) :
    t.slots = s.slots ++ slotsOf [line] := by
  have withSlots := inventoryStep_withSlots single read rfl
  rw [read] at withSlots
  exact congrArg Inventory.slots (Except.ok.inj withSlots)

theorem readLines_withSlots {s t : Inventory} {lines slots : List Bytes}
    (single : ∀ line ∈ lines, newline ∉ line) (read : readLines s lines = .ok t)
    (same : slots.length = s.slots.length) :
    readLines { s with slots := slots } lines =
      .ok { t with slots := slots ++ slotsOf lines } := by
  induction lines generalizing s slots with
  | nil =>
    cases read
    simp [readLines, pure, Except.pure]
  | cons line lines ih =>
    obtain ⟨u, here, rest⟩ := foldlM_cons_eq_ok.mp read
    have first := single line List.mem_cons_self
    have later := fun line member => single line (List.mem_cons_of_mem _ member)
    have grown : (slots ++ slotsOf [line]).length = u.slots.length := by
      simp [slots_of_inventoryStep first here, same]
    have behind := ih later rest grown
    rw [List.append_assoc, ← slotsOf_append, List.singleton_append] at behind
    exact foldlM_cons_eq_ok.mpr ⟨_, inventoryStep_withSlots first here same, behind⟩

/-- The loop adds the slots of the lines it reads. -/
theorem slots_of_readLines {s t : Inventory} {lines : List Bytes}
    (single : ∀ line ∈ lines, newline ∉ line) (read : readLines s lines = .ok t) :
    t.slots = s.slots ++ slotsOf lines := by
  have withSlots := readLines_withSlots single read rfl
  rw [read] at withSlots
  exact congrArg Inventory.slots (Except.ok.inj withSlots)

theorem inventoryStep_slotLine {s t : Inventory} {value : Bytes} (single : newline ∉ slotLine value) :
    inventoryStep .v3 s (slotLine value ++ [newline]) = .ok t ↔
      (slotLine value).length ≤ maxStagedMarkerLineBytes ∧ s.slots.length ≠ v3Phases.length ∧
        t = { s.addSlot value with offset := s.offset + ((slotLine value).length + 1) } := by
  rw [inventoryStep_line single]
  constructor
  · intro ⟨u, here, done⟩
    obtain ⟨short, room, rfl⟩ := readInventoryLine_slot.mp here
    exact ⟨short, room, done⟩
  · intro ⟨short, room, done⟩
    exact ⟨_, readInventoryLine_slot.mpr ⟨short, room, rfl⟩, done⟩

/-- Another value of the same length in one slot is read in its place. -/
theorem readLines_setSlot {s t : Inventory} {front back : List Bytes} {value other : Bytes}
    (single : ∀ line ∈ front ++ slotLine value :: back, newline ∉ line)
    (otherSingle : newline ∉ other) (sameLength : other.length = value.length)
    (read : readLines s (front ++ slotLine value :: back) = .ok t) :
    readLines s (front ++ slotLine other :: back) =
      .ok { t with slots := s.slots ++ slotsOf (front ++ slotLine other :: back) } := by
  obtain ⟨u, before, rest⟩ := foldlM_append_eq_ok.mp read
  obtain ⟨v, here, behind⟩ := foldlM_cons_eq_ok.mp rest
  have frontSingle := fun line member => single line (List.mem_append_left _ member)
  have backSingle : ∀ line ∈ back, newline ∉ line := fun line member => single line (by simp [member])
  have lineSingle : newline ∉ slotLine value := single _ (by simp)
  have otherLine : newline ∉ slotLine other := newline_notMem_slotLine otherSingle
  have lengths : (slotLine other).length = (slotLine value).length := by
    simp [slotLine, sameLength]
  obtain ⟨short, room, rfl⟩ := (inventoryStep_slotLine lineSingle).mp here
  have step := (inventoryStep_slotLine (s := u) otherLine).mpr ⟨lengths ▸ short, room, rfl⟩
  have done := @readLines_withSlots _ t back (u.addSlot other).slots backSingle behind
    (by simp [Inventory.addSlot])
  refine foldlM_append_eq_ok.mpr ⟨u, before, foldlM_cons_eq_ok.mpr ⟨_, step, ?_⟩⟩
  rw [slotsOf_append, slotsOf_cons_slotLine, ← List.append_assoc,
    ← slots_of_readLines frontSingle before]
  simpa [Inventory.addSlot, lengths, readLines] using done

variable {blake2b : Bytes → Digest} {contents : Bytes} {marker : V2ApplyAttemptMarker}
  {before after : List Bytes}

/-- The lines of a journal without newlines in them. -/
theorem IsJournal.single_lines (journal : IsJournal blake2b contents marker before after)
    (values : List Bytes) (single : ∀ value ∈ values, newline ∉ value) :
    ∀ line ∈ before ++ values.map slotLine ++ after, newline ∉ line := by
  intro line member
  rcases List.mem_append.mp member with member | member
  · rcases List.mem_append.mp member with member | member
    · exact journal.single line (List.mem_append_left _ member)
    · obtain ⟨value, inside, rfl⟩ := List.mem_map.mp member
      exact newline_notMem_slotLine (single value inside)
  · exact journal.single line (List.mem_append_right _ member)

theorem IsJournal.slotsOf_lines (journal : IsJournal blake2b contents marker before after)
    (values : List Bytes) : slotsOf (before ++ values.map slotLine ++ after) = values := by
  have front : slotsOf before = [] :=
    slotsOf_eq_nil fun line member => journal.noSlots line (List.mem_append_left _ member)
  have back : slotsOf after = [] :=
    slotsOf_eq_nil fun line member => journal.noSlots line (List.mem_append_right _ member)
  simp [front, back, slotsOf_map_slotLine]

theorem newline_notMem_journalValues {attemptId value : Bytes} {applied : Nat}
    (member : value ∈ journalValues blake2b attemptId applied) : newline ∉ value :=
  (printable_slotValues value member).newline_notMem

/-- What a journal is read as when one of its slots holds another value of the same
length. -/
theorem parse_setSlot (journal : IsJournal blake2b contents marker before after)
    (parsed : parseStagedApplyAttempt blake2b contents = .ok marker)
    {values : List Bytes} (holds : values = journalValues blake2b marker.attemptId marker.appliedSlots)
    {index : Nat} {value : Bytes} (inside : index < values.length)
    (single : newline ∉ value) (sameLength : value.length = values[index].length)
    {marker' : V2ApplyAttemptMarker} :
    parseStagedApplyAttempt blake2b
        (v3Contents (before ++ (values.set index value).map slotLine ++ after)) = .ok marker' ↔
      ∃ applied ≤ v3Phases.length,
        values.set index value = journalValues blake2b marker.attemptId applied ∧
        marker' = { marker with
          phase := phaseAfter applied
          appliedSlots := applied
          appliedDigest := journalDigest blake2b marker.attemptId applied } := by
  have oldSingle := journal.single_lines values (by
    intro value member
    exact newline_notMem_journalValues (holds ▸ member))
  have newSingle := journal.single_lines (values.set index value) (by
    intro value' member
    rcases List.mem_or_eq_of_mem_set member with member | rfl
    · exact newline_notMem_journalValues (holds ▸ member)
    · exact single)
  have contents_eq := journal.contents_eq
  rw [← holds] at contents_eq
  rw [contents_eq, parse_v3Contents oldSingle] at parsed
  obtain ⟨short, s, read, finish⟩ := parsed
  -- the two texts differ in the line of the slot only
  have split : values = values.take index ++ values[index] :: values.drop (index + 1) := by
    rw [← List.drop_eq_getElem_cons inside, List.take_append_drop]
  have splitSet : values.set index value =
      values.take index ++ value :: values.drop (index + 1) :=
    List.set_eq_take_append_cons_drop.trans (if_pos inside)
  have oldLines : before ++ values.map slotLine ++ after =
      (before ++ (values.take index).map slotLine) ++
        slotLine values[index] :: ((values.drop (index + 1)).map slotLine ++ after) := by
    conv_lhs => rw [split]
    simp only [List.map_append, List.map_cons, List.append_assoc, List.cons_append]
  have newLines : before ++ (values.set index value).map slotLine ++ after =
      (before ++ (values.take index).map slotLine) ++
        slotLine value :: ((values.drop (index + 1)).map slotLine ++ after) := by
    rw [splitSet]
    simp only [List.map_append, List.map_cons, List.append_assoc, List.cons_append]
  have sameLengths : (v3Contents (before ++ (values.set index value).map slotLine ++ after)).length =
      (v3Contents (before ++ values.map slotLine ++ after)).length := by
    rw [oldLines, newLines]
    simp [v3Contents, slotLine, sameLength]
  rw [oldLines] at read oldSingle
  have readNew := readLines_setSlot oldSingle single sameLength read
  rw [← newLines, journal.slotsOf_lines] at readNew
  obtain ⟨attemptId, _, attempt, nonempty, initial, _, _, rfl⟩ := finishInventory_v3.mp finish
  rw [parse_v3Contents newSingle]
  constructor
  · intro ⟨_, s', read', finish'⟩
    cases readNew.symm.trans read'
    obtain ⟨attemptId', applied, attempt', _, _, small, same, rfl⟩ := finishInventory_v3.mp finish'
    cases Option.some.inj (attempt.symm.trans attempt')
    exact ⟨applied, small, same, rfl⟩
  · intro ⟨applied, small, same, done⟩
    refine ⟨sameLengths ▸ short, _, readNew, ?_⟩
    exact finishInventory_v3.mpr ⟨attemptId, applied, attempt, nonempty, initial, small, same, done⟩

end Overwrite

/-! ## Building accepted markers -/

/-- Five slots are read behind lines without slots. -/
theorem readLines_slotLines {s : Inventory} {values : List Bytes}
    (short : ∀ value ∈ values, value.length ≤ 100) (single : ∀ value ∈ values, newline ∉ value)
    (room : s.slots.length + values.length ≤ v3Phases.length) :
    ∃ t, readLines s (values.map slotLine) = .ok t ∧ t.records = s.records ∧
      t.slots = s.slots ++ values := by
  induction values generalizing s with
  | nil => exact ⟨s, rfl, rfl, by simp⟩
  | cons value values ih =>
    rw [List.length_cons] at room
    have shortLine : (slotLine value).length ≤ maxStagedMarkerLineBytes := by
      have short := short value List.mem_cons_self
      have head : phaseSlotV3Prefix.length = 15 := rfl
      simp only [slotLine, List.length_append, head, maxStagedMarkerLineBytes]
      omega
    have step := (inventoryStep_slotLine
      (newline_notMem_slotLine (single value List.mem_cons_self))).mpr
      ⟨shortLine, (by omega : s.slots.length ≠ v3Phases.length), rfl⟩
    obtain ⟨t, read, records, slots⟩ := @ih
      { s.addSlot value with offset := s.offset + ((slotLine value).length + 1) }
      (fun other member => short other (List.mem_cons_of_mem _ member))
      (fun other member => single other (List.mem_cons_of_mem _ member))
      (by simp [Inventory.addSlot]; omega)
    refine ⟨t, foldlM_cons_eq_ok.mpr ⟨_, step, read⟩, records, ?_⟩
    simpa [Inventory.addSlot] using slots

/-- Base lines with an attempt and the initial phase, and behind them a journal, are an
accepted marker. -/
theorem exists_parse {blake2b : Bytes → Digest} {base : List Bytes} {s : Inventory}
    {attemptId : Bytes} {applied : Nat} (single : ∀ line ∈ base, newline ∉ line)
    (read : readLines (Inventory.start stagedMarkerV3Magic.length) base = .ok s)
    (noSlots : s.slots = []) (attempt : s.records.attemptId = some attemptId)
    (nonempty : attemptId ≠ []) (initial : s.records.phase = some preparing)
    (atMostFive : applied ≤ v3Phases.length)
    (short : (v3Contents (base ++ (journalValues blake2b attemptId applied).map slotLine)).length ≤
      maxStagedMarkerBytes) :
    ∃ marker, parseStagedApplyAttempt blake2b
        (v3Contents (base ++ (journalValues blake2b attemptId applied).map slotLine)) = .ok marker ∧
      marker.version = .v3 ∧ marker.attemptId = attemptId ∧ marker.phase = phaseAfter applied ∧
      marker.appliedSlots = applied ∧ marker.stageParent = s.records.stageParent ∧
      marker.stage = s.records.stage ∧ marker.entries = s.records.entries := by
  obtain ⟨t, slots, records, values⟩ := @readLines_slotLines s
    (journalValues blake2b attemptId applied) length_slotValues_le
    (fun value => newline_notMem_journalValues) (by simp [noSlots, v3Phases])
  rw [noSlots, List.nil_append] at values
  have lines : ∀ line ∈ base ++ (journalValues blake2b attemptId applied).map slotLine,
      newline ∉ line := by
    intro line member
    rcases List.mem_append.mp member with member | member
    · exact single line member
    · obtain ⟨value, inside, rfl⟩ := List.mem_map.mp member
      exact newline_notMem_slotLine (newline_notMem_journalValues inside)
  rw [← records] at attempt initial ⊢
  exact ⟨_, (parse_v3Contents lines).mpr ⟨short, t, foldlM_append_eq_ok.mpr ⟨s, read, slots⟩,
    finishInventory_v3.mpr ⟨attemptId, applied, attempt, nonempty, initial, atMostFive, values, rfl⟩⟩,
    rfl, rfl, rfl, rfl, rfl, rfl, rfl⟩

/-- The base lines of an attempt `a` without actions. -/
def baseLines : List Bytes :=
  [ascii "side: local", ascii "base: /b", ascii "state: /s", ascii "phase: preparing",
    ascii "path-count: 0", ascii "operation-count: 0", ascii "unstaged-operation-count: 0",
    ascii "attempt-id: a"]

end Duet.Marker
