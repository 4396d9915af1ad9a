import Duet.Sync.MarkerJournal

/-!
# Lines behind the slots

Behind its five slots a V3 marker holds the staging inventory and what the commit phase
recorded. Which lines the parser accepts there can be said without running it.
-/

namespace Duet.Marker

open Lib

/-! ## One line behind the slots -/

/-- What a line of the staging inventory with a given head names. -/
def inventoryOf (head line : Bytes) : Option (Bytes × FileIdentity) :=
  (stripPrefix line head).bind fun value => (parseMarkerPathIdentity value).toOption

/-- The staging parent, the stage or the staged entry that a line records. -/
def parentOf : Bytes → Option (Bytes × FileIdentity) := inventoryOf (ascii "stage-parent: ")

def stageOf : Bytes → Option (Bytes × FileIdentity) := inventoryOf (ascii "stage: ")

def entryOf : Bytes → Option (Bytes × FileIdentity) := inventoryOf (ascii "stage-entry: ")

/-- Whether a line may stand behind the slots, as far as it can be said from the line
alone. -/
def KnownLine (line : Bytes) : Prop :=
  validV3DynamicLine line = true ∨ (parentOf line).isSome ∨ (stageOf line).isSome ∨
    (entryOf line).isSome

instance (line : Bytes) : Decidable (KnownLine line) :=
  inferInstanceAs (Decidable (_ ∨ _))

/-- Lines that may follow the slots of a marker with the given staging inventory: none is too
long, each is one of the known kinds, and none repeats a part of the inventory. -/
structure Appendable (stageParent stage : Option (Bytes × FileIdentity))
    (entries : List (Bytes × FileIdentity)) (lines : List Bytes) : Prop where
  short : ∀ line ∈ lines, line.length ≤ maxStagedMarkerLineBytes
  known : ∀ line ∈ lines, KnownLine line
  oneParent : (stageParent.toList ++ lines.filterMap parentOf).length ≤ 1
  oneStage : (stage.toList ++ lines.filterMap stageOf).length ≤ 1
  newEntries : ∀ entry ∈ lines.filterMap entryOf, ∀ old ∈ entries, old.1 ≠ entry.1
  distinctEntries : (lines.filterMap entryOf).Pairwise fun e e' => e.1 ≠ e'.1

/-- The heads by which the parser tells lines other than those of slots apart. -/
def lineHeads : List Bytes :=
  [ascii "phase-", ascii "attempt-id: ", ascii "phase: ", ascii "stage-parent: ", ascii "stage: ",
    ascii "stage-entry: ", ascii "staged-file: ", ascii "committed-operation: ",
    ascii "committed-step: "]

/-- A line begins with one of these heads at most. -/
theorem lineHead_unique {head other line : Bytes} (isHead : head ∈ lineHeads)
    (isOther : other ∈ lineHeads) (starts : head <+: line) (also : other <+: line) :
    head = other := by
  have apart : ∀ head ∈ lineHeads, ∀ other ∈ lineHeads, head <+: other → head = other := by
    decide
  rcases List.prefix_or_prefix_of_prefix starts also with inside | inside
  · exact apart head isHead other isOther inside
  · exact (apart other isOther head isHead inside).symm

theorem inventoryOf_eq_none {head line : Bytes} (other : ¬ head <+: line) :
    inventoryOf head line = none := by
  rw [inventoryOf, stripPrefix_eq_none.mpr other]
  rfl

theorem startsWith_of_inventoryOf {head line : Bytes} {identity : Bytes × FileIdentity}
    (found : inventoryOf head line = some identity) : head <+: line := by
  by_contra other
  rw [inventoryOf_eq_none other] at found
  cases found

theorem startsWith_of_dynamic {line : Bytes} (dynamic : validV3DynamicLine line = true) :
    ∃ head ∈ [ascii "staged-file: ", ascii "committed-operation: ", ascii "committed-step: "],
      head <+: line := by
  obtain ⟨head, member, filled⟩ := List.any_eq_true.mp dynamic
  refine ⟨head, member, ?_⟩
  by_contra other
  rw [stripPrefix_eq_none.mpr other] at filled
  cases filled

/-- A line that begins with one head is not read as one of another. -/
theorem behind_of_head {head line : Bytes} (isHead : head ∈ lineHeads) (starts : head <+: line) :
    (validV3DynamicLine line = true →
      head ∈ [ascii "staged-file: ", ascii "committed-operation: ", ascii "committed-step: "]) ∧
    (head ≠ ascii "stage-parent: " → parentOf line = none) ∧
    (head ≠ ascii "stage: " → stageOf line = none) ∧
    (head ≠ ascii "stage-entry: " → entryOf line = none) := by
  have inventory : ∀ other ∈ lineHeads, head ≠ other → inventoryOf other line = none := by
    intro other isOther apart
    exact inventoryOf_eq_none fun also => apart (lineHead_unique isHead isOther starts also)
  refine ⟨?_, inventory _ (by decide), inventory _ (by decide), inventory _ (by decide)⟩
  intro dynamic
  obtain ⟨other, member, also⟩ := startsWith_of_dynamic dynamic
  have isOther : other ∈ lineHeads := by
    have all : ∀ other ∈ [ascii "staged-file: ", ascii "committed-operation: ",
      ascii "committed-step: "], other ∈ lineHeads := by decide
    exact all other member
  rwa [lineHead_unique isHead isOther starts also]

/-- What reading a line behind the five slots makes of the records. -/
inductive ReadBehind (r : Records) (line : Bytes) : Records → Prop where
  | dynamic (valid : validV3DynamicLine line = true) : ReadBehind r line r
  | parent {parent : Bytes × FileIdentity} (found : parentOf line = some parent)
    (first : r.stageParent = none) : ReadBehind r line { r with stageParent := some parent }
  | stage {stage : Bytes × FileIdentity} (found : stageOf line = some stage)
    (first : r.stage = none) : ReadBehind r line { r with stage := some stage }
  | entry {entry : Bytes × FileIdentity} (found : entryOf line = some entry)
    (new : ∀ old ∈ r.entries, old.1 ≠ entry.1) :
    ReadBehind r line { r with entries := r.entries ++ [entry] }

/-- Lines of the base of a marker are not read behind the slots. -/
theorem not_readBehind {r t : Records} {head line : Bytes}
    (isHead : head ∈ [ascii "phase-", ascii "attempt-id: ", ascii "phase: "])
    (starts : head <+: line) : ¬ ReadBehind r line t := by
  have known : ∀ head ∈ [ascii "phase-", ascii "attempt-id: ", ascii "phase: "],
      head ∈ lineHeads ∧ head ∉ [ascii "staged-file: ", ascii "committed-operation: ",
        ascii "committed-step: "] ∧ head ≠ ascii "stage-parent: " ∧ head ≠ ascii "stage: " ∧
        head ≠ ascii "stage-entry: " := by decide
  obtain ⟨isLineHead, notDynamic, notParent, notStage, notEntry⟩ := known head isHead
  obtain ⟨dynamic, parent, stage, entry⟩ := behind_of_head isLineHead starts
  intro read
  cases read with
  | dynamic valid => exact notDynamic (dynamic valid)
  | parent found => simp [parent notParent] at found
  | stage found => simp [stage notStage] at found
  | entry found => simp [entry notEntry] at found

theorem toOption_eq_some {α : Type} {x : Except String α} {a : α} :
    x.toOption = some a ↔ x = .ok a := by
  cases x <;> simp [Except.toOption]

theorem inventoryOf_eq_some {head line value : Bytes} {identity : Bytes × FileIdentity}
    (strips : stripPrefix line head = some value) :
    inventoryOf head line = some identity ↔ parseMarkerPathIdentity value = .ok identity := by
  rw [inventoryOf, strips, Option.bind_some, toOption_eq_some]

/-- How the parser reads a line behind the five slots. -/
theorem readRecordLine_behind {r t : Records} {line : Bytes} :
    readRecordLine .v3 v3Phases.length r line = .ok t ↔ ReadBehind r line t := by
  unfold readRecordLine
  split
  · next phase => simp [not_readBehind (by decide) phase.2]
  split
  · next value strips =>
    have starts : ascii "attempt-id: " <+: line := ⟨value, (stripPrefix_eq_some.mp strips).symm⟩
    simp [not_readBehind (by decide) starts, v3Phases]
  split
  · next value strips =>
    have starts : ascii "phase: " <+: line := ⟨value, (stripPrefix_eq_some.mp strips).symm⟩
    simp [not_readBehind (by decide) starts, v3Phases]
  split
  · next value strips =>
    have starts : ascii "stage-parent: " <+: line := ⟨value, (stripPrefix_eq_some.mp strips).symm⟩
    obtain ⟨dynamic, -, stage, entry⟩ := behind_of_head (by decide) starts
    rw [if_neg (by simp)]
    constructor
    · intro read
      split at read
      · cases read
      next first =>
      obtain ⟨parent, found, done⟩ := bind_eq_ok.mp read
      cases done
      exact .parent ((inventoryOf_eq_some strips).mpr found) (by simpa using first)
    · intro read
      cases read with
      | dynamic valid => exact absurd (dynamic valid) (by decide)
      | parent found first =>
        simp [first, (inventoryOf_eq_some strips).mp found, bind, Except.bind]
      | stage found => simp [stage (by decide)] at found
      | entry found => simp [entry (by decide)] at found
  split
  · next value strips =>
    have starts : ascii "stage: " <+: line := ⟨value, (stripPrefix_eq_some.mp strips).symm⟩
    obtain ⟨dynamic, parent, -, entry⟩ := behind_of_head (by decide) starts
    rw [if_neg (by simp)]
    constructor
    · intro read
      split at read
      · cases read
      next first =>
      obtain ⟨stage, found, done⟩ := bind_eq_ok.mp read
      cases done
      exact .stage ((inventoryOf_eq_some strips).mpr found) (by simpa using first)
    · intro read
      cases read with
      | dynamic valid => exact absurd (dynamic valid) (by decide)
      | parent found => simp [parent (by decide)] at found
      | stage found first =>
        simp [first, (inventoryOf_eq_some strips).mp found, bind, Except.bind]
      | entry found => simp [entry (by decide)] at found
  split
  · next value strips =>
    have starts : ascii "stage-entry: " <+: line := ⟨value, (stripPrefix_eq_some.mp strips).symm⟩
    obtain ⟨dynamic, parent, stage, -⟩ := behind_of_head (by decide) starts
    rw [if_neg (by simp)]
    constructor
    · intro read
      obtain ⟨entry, found, read⟩ := bind_eq_ok.mp read
      split at read
      · cases read
      next new =>
      cases read
      refine .entry ((inventoryOf_eq_some strips).mpr found) ?_
      intro old member same
      exact new (List.any_eq_true.mpr ⟨old, member, decide_eq_true same⟩)
    · intro read
      cases read with
      | dynamic valid => exact absurd (dynamic valid) (by decide)
      | parent found => simp [parent (by decide)] at found
      | stage found => simp [stage (by decide)] at found
      | @entry identity found new =>
        have unknown : ¬ r.entries.any (fun old => decide (old.1 = identity.1)) = true := by
          intro known
          obtain ⟨old, member, same⟩ := List.any_eq_true.mp known
          exact new old member (of_decide_eq_true same)
        rw [(inventoryOf_eq_some strips).mp found]
        exact if_neg unknown
  next noParent _ noStage _ noEntry =>
  have none : ∀ {head}, (∀ value, stripPrefix line head = some value → False) →
      inventoryOf head line = none := by
    intro head never
    apply inventoryOf_eq_none
    rintro ⟨value, same⟩
    exact never value (stripPrefix_eq_some.mpr same.symm)
  rw [if_pos rfl]
  constructor
  · intro read
    simp only [v3Phases, List.length_cons, List.length_nil, Nat.reduceAdd, Nat.reduceEqDiff,
      if_false, decide_true, Bool.true_and] at read
    split at read
    · next valid =>
      cases read
      exact .dynamic valid
    · cases read
  · intro read
    cases read with
    | dynamic valid => simp [v3Phases, valid]
    | parent found => simp [show parentOf line = _ from none noParent] at found
    | stage found => simp [show stageOf line = _ from none noStage] at found
    | entry found => simp [show entryOf line = _ from none noEntry] at found

/-! ## Any number of lines behind the slots -/

theorem kinds_of_dynamic {line : Bytes} (dynamic : validV3DynamicLine line = true) :
    parentOf line = none ∧ stageOf line = none ∧ entryOf line = none := by
  obtain ⟨head, member, starts⟩ := startsWith_of_dynamic dynamic
  have known : ∀ head ∈ [ascii "staged-file: ", ascii "committed-operation: ",
      ascii "committed-step: "], head ∈ lineHeads ∧ head ≠ ascii "stage-parent: " ∧
        head ≠ ascii "stage: " ∧ head ≠ ascii "stage-entry: " := by decide
  obtain ⟨isLineHead, notParent, notStage, notEntry⟩ := known head member
  obtain ⟨-, parent, stage, entry⟩ := behind_of_head isLineHead starts
  exact ⟨parent notParent, stage notStage, entry notEntry⟩

theorem kinds_of_parent {line : Bytes} {identity : Bytes × FileIdentity}
    (found : parentOf line = some identity) : stageOf line = none ∧ entryOf line = none := by
  obtain ⟨-, -, stage, entry⟩ := behind_of_head (by decide) (startsWith_of_inventoryOf found)
  exact ⟨stage (by decide), entry (by decide)⟩

theorem kinds_of_stage {line : Bytes} {identity : Bytes × FileIdentity}
    (found : stageOf line = some identity) : parentOf line = none ∧ entryOf line = none := by
  obtain ⟨-, parent, -, entry⟩ := behind_of_head (by decide) (startsWith_of_inventoryOf found)
  exact ⟨parent (by decide), entry (by decide)⟩

theorem kinds_of_entry {line : Bytes} {identity : Bytes × FileIdentity}
    (found : entryOf line = some identity) : parentOf line = none ∧ stageOf line = none := by
  obtain ⟨-, parent, stage, -⟩ := behind_of_head (by decide) (startsWith_of_inventoryOf found)
  exact ⟨parent (by decide), stage (by decide)⟩

theorem ReadBehind.knownLine {r t : Records} {line : Bytes} (read : ReadBehind r line t) :
    KnownLine line := by
  cases read with
  | dynamic valid => exact .inl valid
  | parent found => exact .inr (.inl (by simp [found]))
  | stage found => exact .inr (.inr (.inl (by simp [found])))
  | entry found => exact .inr (.inr (.inr (by simp [found])))

theorem ReadBehind.sameAttempt {r t : Records} {line : Bytes} (read : ReadBehind r line t) :
    t.attemptId = r.attemptId ∧ t.phase = r.phase := by
  cases read <;> exact ⟨rfl, rfl⟩

/-- Lines may follow the slots when the first one may and the others may follow it. -/
theorem appendable_cons {r : Records} {line : Bytes} {lines : List Bytes} :
    Appendable r.stageParent r.stage r.entries (line :: lines) ↔
      line.length ≤ maxStagedMarkerLineBytes ∧
        ∃ t, ReadBehind r line t ∧ Appendable t.stageParent t.stage t.entries lines := by
  constructor
  · intro all
    have short := fun line member => all.short line (List.mem_cons_of_mem _ member)
    have known := fun line member => all.known line (List.mem_cons_of_mem _ member)
    refine ⟨all.short line List.mem_cons_self, ?_⟩
    rcases all.known line List.mem_cons_self with dynamic | parent | stage | entry
    · obtain ⟨noParent, noStage, noEntry⟩ := kinds_of_dynamic dynamic
      refine ⟨r, .dynamic dynamic, short, known, ?_, ?_, ?_, ?_⟩
      · simpa [noParent] using all.oneParent
      · simpa [noStage] using all.oneStage
      · simpa [noEntry] using all.newEntries
      · simpa [noEntry] using all.distinctEntries
    · obtain ⟨parent, found⟩ := Option.isSome_iff_exists.mp parent
      obtain ⟨noStage, noEntry⟩ := kinds_of_parent found
      have one := all.oneParent
      rw [List.filterMap_cons_some found] at one
      have first : r.stageParent = none := by
        cases old : r.stageParent with
        | none => rfl
        | some _ => simp [old] at one
      refine ⟨_, .parent found first, short, known, ?_, ?_, ?_, ?_⟩
      · simpa [first] using one
      · simpa [noStage] using all.oneStage
      · simpa [noEntry] using all.newEntries
      · simpa [noEntry] using all.distinctEntries
    · obtain ⟨stage, found⟩ := Option.isSome_iff_exists.mp stage
      obtain ⟨noParent, noEntry⟩ := kinds_of_stage found
      have one := all.oneStage
      rw [List.filterMap_cons_some found] at one
      have first : r.stage = none := by
        cases old : r.stage with
        | none => rfl
        | some _ => simp [old] at one
      refine ⟨_, .stage found first, short, known, ?_, ?_, ?_, ?_⟩
      · simpa [noParent] using all.oneParent
      · simpa [first] using one
      · simpa [noEntry] using all.newEntries
      · simpa [noEntry] using all.distinctEntries
    · obtain ⟨entry, found⟩ := Option.isSome_iff_exists.mp entry
      obtain ⟨noParent, noStage⟩ := kinds_of_entry found
      have new := all.newEntries
      have distinct := all.distinctEntries
      rw [List.filterMap_cons_some found] at new distinct
      obtain ⟨here, later⟩ := List.pairwise_cons.mp distinct
      refine ⟨_, .entry found (new entry List.mem_cons_self), short, known, ?_, ?_, ?_, later⟩
      · simpa [noParent] using all.oneParent
      · simpa [noStage] using all.oneStage
      · intro other member old oldMember
        rcases List.mem_append.mp oldMember with oldMember | oldMember
        · exact new other (List.mem_cons_of_mem _ member) old oldMember
        · rw [List.mem_singleton.mp oldMember]
          exact here other member
  · intro ⟨shortLine, t, read, rest⟩
    have short : ∀ other ∈ line :: lines, other.length ≤ maxStagedMarkerLineBytes := by
      intro other member
      rcases List.mem_cons.mp member with rfl | member
      · exact shortLine
      · exact rest.short other member
    have known : ∀ other ∈ line :: lines, KnownLine other := by
      intro other member
      rcases List.mem_cons.mp member with rfl | member
      · exact read.knownLine
      · exact rest.known other member
    cases read with
    | dynamic dynamic =>
      obtain ⟨noParent, noStage, noEntry⟩ := kinds_of_dynamic dynamic
      refine ⟨short, known, ?_, ?_, ?_, ?_⟩
      · simpa [noParent] using rest.oneParent
      · simpa [noStage] using rest.oneStage
      · simpa [noEntry] using rest.newEntries
      · simpa [noEntry] using rest.distinctEntries
    | parent found first =>
      obtain ⟨noStage, noEntry⟩ := kinds_of_parent found
      refine ⟨short, known, ?_, ?_, ?_, ?_⟩
      · simpa [found, first] using rest.oneParent
      · simpa [noStage] using rest.oneStage
      · simpa [noEntry] using rest.newEntries
      · simpa [noEntry] using rest.distinctEntries
    | stage found first =>
      obtain ⟨noParent, noEntry⟩ := kinds_of_stage found
      refine ⟨short, known, ?_, ?_, ?_, ?_⟩
      · simpa [noParent] using rest.oneParent
      · simpa [found, first] using rest.oneStage
      · simpa [noEntry] using rest.newEntries
      · simpa [noEntry] using rest.distinctEntries
    | @entry entry found new =>
      obtain ⟨noParent, noStage⟩ := kinds_of_entry found
      have others := rest.newEntries
      refine ⟨short, known, ?_, ?_, ?_, ?_⟩
      · simpa [noParent] using rest.oneParent
      · simpa [noStage] using rest.oneStage
      · rw [List.filterMap_cons_some found]
        intro other member old oldMember
        rcases List.mem_cons.mp member with rfl | member
        · exact new old oldMember
        · exact others other member old (List.mem_append_left _ oldMember)
      · rw [List.filterMap_cons_some found]
        refine List.pairwise_cons.mpr ⟨?_, rest.distinctEntries⟩
        intro other member
        exact others other member entry (by simp)

theorem inventoryStep_behind {s t : Inventory} {line : Bytes} (single : newline ∉ line)
    (full : s.slots.length = v3Phases.length) :
    inventoryStep .v3 s (line ++ [newline]) = .ok t ↔
      line.length ≤ maxStagedMarkerLineBytes ∧ ∃ records, ReadBehind s.records line records ∧
        t = { s with records := records, offset := s.offset + (line.length + 1) } := by
  rw [inventoryStep_line single]
  by_cases slot : IsSlotLine line
  · have phase : ascii "phase-" <+: line :=
      (show ascii "phase-" <+: phaseSlotV3Prefix by decide).trans slot
    obtain ⟨value, rfl⟩ := slot
    constructor
    · intro ⟨u, here, _⟩
      exact absurd full (readInventoryLine_slot.mp here).2.1
    · intro ⟨_, records, read, _⟩
      exact absurd read (not_readBehind (by decide) phase)
  · constructor
    · intro ⟨u, here, done⟩
      obtain ⟨short, _, records, read, rfl⟩ := (readInventoryLine_other slot).mp here
      rw [full] at read
      exact ⟨short, records, readRecordLine_behind.mp read, done⟩
    · intro ⟨short, records, read, done⟩
      refine ⟨_, (readInventoryLine_other slot).mpr ⟨short, .inr full.ge, records, ?_, rfl⟩, done⟩
      rw [full]
      exact readRecordLine_behind.mpr read

/-- The lines that the parser accepts behind the slots. -/
theorem readLines_behind {s : Inventory} {lines : List Bytes}
    (single : ∀ line ∈ lines, newline ∉ line) (full : s.slots.length = v3Phases.length) :
    (∃ t, readLines s lines = .ok t) ↔
      Appendable s.records.stageParent s.records.stage s.records.entries lines := by
  induction lines generalizing s with
  | nil =>
    constructor
    · intro _
      refine ⟨?_, ?_, ?_, ?_, ?_, ?_⟩ <;> simp
    · intro _
      exact ⟨s, rfl⟩
  | cons line lines ih =>
    have here := single line List.mem_cons_self
    have later := fun line member => single line (List.mem_cons_of_mem _ member)
    rw [appendable_cons]
    constructor
    · intro ⟨t, read⟩
      obtain ⟨u, step, rest⟩ := foldlM_cons_eq_ok.mp read
      obtain ⟨short, records, behind, rfl⟩ := (inventoryStep_behind here full).mp step
      exact ⟨short, records, behind, (@ih { s with
        records := records, offset := s.offset + (line.length + 1) } later full).mp ⟨t, rest⟩⟩
    · intro ⟨short, records, behind, rest⟩
      have step := (inventoryStep_behind here full).mpr ⟨short, records, behind, rfl⟩
      obtain ⟨t, rest⟩ := (@ih { s with
        records := records, offset := s.offset + (line.length + 1) } later full).mpr rest
      exact ⟨t, foldlM_cons_eq_ok.mpr ⟨_, step, rest⟩⟩

/-- Lines behind the slots change neither the slots nor the attempt. -/
theorem sameAttempt_of_readLines {s t : Inventory} {lines : List Bytes}
    (single : ∀ line ∈ lines, newline ∉ line) (full : s.slots.length = v3Phases.length)
    (read : readLines s lines = .ok t) :
    t.slots = s.slots ∧ t.slotOffsets = s.slotOffsets ∧
      t.records.attemptId = s.records.attemptId ∧ t.records.phase = s.records.phase := by
  induction lines generalizing s with
  | nil =>
    cases read
    exact ⟨rfl, rfl, rfl, rfl⟩
  | cons line lines ih =>
    obtain ⟨u, step, rest⟩ := foldlM_cons_eq_ok.mp read
    obtain ⟨_, records, behind, rfl⟩ :=
      (inventoryStep_behind (single line List.mem_cons_self) full).mp step
    obtain ⟨slots, offsets, attempt, phase⟩ :=
      @ih { s with records := records, offset := s.offset + (line.length + 1) }
        (fun line member => single line (List.mem_cons_of_mem _ member)) full rest
    exact ⟨slots, offsets, attempt.trans behind.sameAttempt.1, phase.trans behind.sameAttempt.2⟩

/-- What the lines behind the slots add to the staging inventory. -/
theorem records_of_readLines {s t : Inventory} {lines : List Bytes}
    (single : ∀ line ∈ lines, newline ∉ line) (full : s.slots.length = v3Phases.length)
    (read : readLines s lines = .ok t) :
    t.records.stageParent = s.records.stageParent.or (lines.filterMap parentOf).head? ∧
      t.records.stage = s.records.stage.or (lines.filterMap stageOf).head? ∧
      t.records.entries = s.records.entries ++ lines.filterMap entryOf := by
  induction lines generalizing s with
  | nil =>
    cases read
    simp
  | cons line lines ih =>
    obtain ⟨u, step, rest⟩ := foldlM_cons_eq_ok.mp read
    obtain ⟨_, records, behind, rfl⟩ :=
      (inventoryStep_behind (single line List.mem_cons_self) full).mp step
    obtain ⟨parent, stage, entries⟩ :=
      @ih { s with records := records, offset := s.offset + (line.length + 1) }
        (fun line member => single line (List.mem_cons_of_mem _ member)) full rest
    rw [parent, stage, entries]
    cases behind with
    | dynamic valid =>
      obtain ⟨noParent, noStage, noEntry⟩ := kinds_of_dynamic valid
      simp [noParent, noStage, noEntry]
    | parent found first =>
      obtain ⟨noStage, noEntry⟩ := kinds_of_parent found
      simp [found, first, noStage, noEntry]
    | stage found first =>
      obtain ⟨noParent, noEntry⟩ := kinds_of_stage found
      simp [found, first, noParent, noEntry]
    | entry found new =>
      obtain ⟨noParent, noStage⟩ := kinds_of_entry found
      simp [found, noParent, noStage]

end Duet.Marker
