import Duet.Sync.MarkerBehind
import Duet.Sync.MarkerContents
import Duet.Sync.MarkerTransition

/-!
# Printed lines are read back

What the parser of a marker makes of the lines that an attempt prints: numbers, identities
of recorded names, and the lines in front of the slots.
-/

namespace Duet.Marker

open Lib
open ApplyAttemptPhase (preparing)

/-! ## Numbers -/

theorem digitByte {d : Nat} (small : d < 10) :
    isDigit d.digitChar.toNat.toUInt8 = true ∧ d.digitChar.toNat.toUInt8.toNat - 48 = d := by
  have all : ∀ d : Fin 10, isDigit (Nat.digitChar d).toNat.toUInt8 = true ∧
      (Nat.digitChar d).toNat.toUInt8.toNat - 48 = d := by decide
  exact all ⟨d, small⟩

/-- The last digit of a number stands behind the digits of the others. -/
theorem decimal_eq (n : Nat) : decimal n =
    (if n < 10 then [] else decimal (n / 10)) ++ [(n % 10).digitChar.toNat.toUInt8] := by
  unfold decimal
  rw [Nat.toDigits_eq_if (by decide)]
  split
  · next small => simp [Nat.mod_eq_of_lt small]
  · simp

theorem decimal_ne_nil (n : Nat) : decimal n ≠ [] := by
  rw [decimal_eq]
  simp

theorem isDigit_decimal (n : Nat) : ∀ byte ∈ decimal n, isDigit byte = true := by
  induction n using Nat.strongRecOn with
  | ind n ih =>
    intro byte member
    rw [decimal_eq] at member
    rcases List.mem_append.mp member with front | last
    · split at front
      · cases front
      · next large => exact ih (n / 10) (by omega) byte front
    · rw [List.mem_singleton.mp last]
      exact (digitByte (Nat.mod_lt n (by decide))).1

/-- The digits of a number have its value. -/
theorem foldl_decimal (n : Nat) :
    (decimal n).foldl (fun acc byte => acc * 10 + (byte.toNat - 48)) 0 = n := by
  induction n using Nat.strongRecOn with
  | ind n ih =>
    have last := (digitByte (Nat.mod_lt n (by decide))).2
    rw [decimal_eq, List.foldl_append]
    simp only [List.foldl_cons, List.foldl_nil, last]
    split
    · next small => simp [Nat.mod_eq_of_lt small]
    · next large =>
      rw [ih (n / 10) (by omega)]
      omega

theorem notMem_decimal {byte : UInt8} (other : isDigit byte = false) (n : Nat) : byte ∉ decimal n := by
  intro member
  rw [isDigit_decimal n byte member] at other
  cases other

/-- A printed 64-bit number is read back. -/
theorem parseU64_decimal (n : UInt64) : parseU64 (decimal n.toNat) = some n := by
  have noSign : stripPrefix (decimal n.toNat) (ascii "+") = none := by
    rw [stripPrefix_eq_none]
    rintro ⟨rest, same⟩
    have member : (43 : UInt8) ∈ decimal n.toNat := by
      rw [← same]
      exact List.mem_cons_self
    exact notMem_decimal (by decide) _ member
  have digits : (decimal n.toNat).all isDigit = true :=
    List.all_eq_true.mpr (isDigit_decimal n.toNat)
  have small : n.toNat < UInt64.size := n.toNat_lt
  simp only [parseU64, noSign, Option.getD_none, decimal_ne_nil, digits, foldl_decimal, small,
    if_true, not_true_eq_false, or_self, if_false, UInt64.ofNat_toNat]

/-! ## Identities -/

/-- A text is split at the last separator. -/
theorem rsplitOnce_append {sep : UInt8} (front : Bytes) {back : Bytes} (none : sep ∉ back) :
    rsplitOnce sep (front ++ [sep] ++ back) = some (front, back) := by
  have other : ∀ byte ∈ back, (decide (byte ≠ sep)) = true := by
    intro byte member
    exact decide_eq_true fun same => none (same ▸ member)
  have stays : ∀ back : Bytes, (∀ byte ∈ back, decide (byte ≠ sep) = true) →
      (front ++ [sep] ++ back).rdropWhile (· ≠ sep) = front ++ [sep] ∧
        (front ++ [sep] ++ back).rtakeWhile (· ≠ sep) = back := by
    intro back other
    induction back using List.reverseRecOn with
    | nil =>
      constructor
      · simp
      · simp
    | append_singleton back last ih =>
      obtain ⟨drop, take⟩ := ih fun byte member => other byte (by simp [member])
      have here := other last (by simp)
      rw [← List.append_assoc, List.rdropWhile_concat, List.rtakeWhile_concat, if_pos here,
        if_pos here, drop, take]
      exact ⟨rfl, rfl⟩
  obtain ⟨drop, take⟩ := stays back other
  unfold rsplitOnce
  rw [drop, take]
  split
  · next empty => simp at empty
  · simp

/-- A recorded identity is read back with its name, which may hold spaces and digits. -/
theorem parseMarkerPathIdentity_identityText {name : Bytes} (text : ValidUtf8 name)
    (nonempty : name ≠ []) (identity : FileIdentity) :
    parseMarkerPathIdentity (identityText name identity) = .ok (name, identity) := by
  have space : ∀ n, space ∉ decimal n := notMem_decimal (by decide)
  have printed : identityText name identity = (name ++ [Marker.space] ++ decimal identity.dev.toNat) ++
      [Marker.space] ++ decimal identity.ino.toNat := by
    rw [identityText, displayOs, utf8_fromUtf8Lossy text]
    rfl
  rw [parseMarkerPathIdentity, printed, rsplitOnce_append _ (space _)]
  simp only [rsplitOnce_append _ (space _), parseU64_decimal, nonempty, if_false]

/-! ## Names of operations -/

theorem printable_changeOperation (change : Change) : Printable (changeOperation change) := by
  cases change <;> simp only [changeOperation, entryOperation]
  all_goals (repeat' split) <;> decide

theorem printable_unstagedChangeOperation {change : Change} {operation : Bytes}
    (found : unstagedChangeOperation change = some operation) : Printable operation := by
  have entry : ∀ verb ∈ [ascii "add", ascii "remove"], ∀ entry, Printable (entryOperation verb entry) := by
    intro verb isVerb entry
    simp only [entryOperation]
    revert verb
    (repeat' split) <;> decide
  have plain : Printable (ascii "metadata") ∧ Printable (ascii "replace") := by decide
  cases change with
  | added entry' =>
    simp only [unstagedChangeOperation] at found
    split at found <;> cases found
    · exact plain.1
    · exact entry _ (by decide) _
  | removed entry' =>
    cases found
    exact entry _ (by decide) _
  | modified old new =>
    simp only [unstagedChangeOperation] at found
    split at found
    · cases found
      exact plain.1
    split at found <;> cases found
    · exact printable_changeOperation _
    · exact plain.2

/-! ## Displayed names -/

theorem newline_notMem_displayOs {name : Bytes} (single : newline ∉ name) :
    newline ∉ displayOs name :=
  fun member => single (mem_of_mem_fromUtf8Lossy (by decide) (by decide) member)

theorem displayOs_ne_nil {name : Bytes} (nonempty : name ≠ []) : displayOs name ≠ [] :=
  utf8_fromUtf8Lossy_ne_nil nonempty

theorem Path.display_eq (path : Path) : path.display = displayOs path.bytes := rfl

theorem ascii_decimal (n : Nat) : IsAscii (decimal n) := by
  intro byte member
  have digit := isDigit_decimal n byte member
  simp only [isDigit, Bool.and_eq_true, decide_eq_true_eq] at digit
  omega

theorem validUtf8_unlines {lines : List Bytes} (text : ∀ line ∈ lines, ValidUtf8 line) :
    ValidUtf8 (unlines newline lines) := by
  induction lines with
  | nil => exact ⟨[], rfl⟩
  | cons line lines ih =>
    have here := text line List.mem_cons_self
    have later := ih fun line member => text line (List.mem_cons_of_mem _ member)
    have ended : ValidUtf8 (line ++ [newline]) := here.append (validUtf8_of_ascii (by decide))
    rw [unlines_cons, List.append_cons]
    exact ended.append later

theorem validUtf8_identityText (name : Bytes) (identity : FileIdentity) :
    ValidUtf8 (identityText name identity) := by
  have number : ∀ n, ValidUtf8 (ascii " " ++ decimal n) := fun n =>
    validUtf8_of_ascii ((show IsAscii (ascii " ") by decide).append (ascii_decimal n))
  rw [identityText, List.append_assoc, List.append_assoc, List.append_assoc]
  have printed := ((validUtf8_utf8 (fromUtf8Lossy name)).append
    (number identity.dev.toNat)).append (number identity.ino.toNat)
  simpa [displayOs, List.append_assoc] using printed

theorem newline_notMem_identityText {name : Bytes} (single : newline ∉ name)
    (identity : FileIdentity) : newline ∉ identityText name identity := by
  have space : newline ∉ ascii " " := by decide
  have number : ∀ n, newline ∉ decimal n := notMem_decimal rfl
  simp [identityText, newline_notMem_displayOs single, space, number]

/-! ## The lines in front of the slots -/

/-- The heads of the lines in front of the slots that say nothing to the parser: those with a
text, those with a count, and the lines that are nothing but a head. -/
def baseTexts : List Bytes :=
  [ascii "side: ", ascii "base: ", ascii "state: ", ascii "path: ", ascii "operation: ",
    ascii "unstaged-operation: "]

def baseCounts : List Bytes :=
  [ascii "path-count: ", ascii "operation-count: ", ascii "unstaged-operation-count: "]

def baseEnds : List Bytes :=
  [ascii "paths-truncated: true", ascii "operations-truncated: true",
    ascii "unstaged-operations-truncated: true"]

theorem validV3BaseInventoryLine_eq (line : Bytes) : validV3BaseInventoryLine line =
    (match baseTexts.findSome? (stripPrefix line) with
    | some value => !value.isEmpty
    | none =>
      match baseCounts.findSome? (stripPrefix line) with
      | some value => !value.isEmpty && value.all isDigit
      | none => baseEnds.contains line) := rfl

/-- The heads of the lines that the parser takes something from. -/
def readHeads : List Bytes :=
  [phaseSlotV3Prefix, ascii "phase-", ascii "attempt-id: ", ascii "phase: ",
    ascii "stage-parent: ", ascii "stage: ", ascii "stage-entry: "]

/-- A text with one of two heads that differ does not begin with the other one. -/
theorem not_startsWith {head other line : Bytes} (apart : ¬ other <+: head) (also : ¬ head <+: other)
    (starts : head <+: line) : ¬ other <+: line := by
  intro begins
  rcases List.prefix_or_prefix_of_prefix starts begins with inside | inside
  · exact also inside
  · exact apart inside

theorem mem_of_findSome_stripPrefix {heads : List Bytes} {line value : Bytes}
    (found : heads.findSome? (stripPrefix line) = some value) :
    ∃ head ∈ heads, line = head ++ value := by
  obtain ⟨head, member, strips⟩ := List.exists_of_findSome?_eq_some found
  exact ⟨head, member, stripPrefix_eq_some.mp strips⟩

theorem startsWith_of_base {line : Bytes} (valid : validV3BaseInventoryLine line = true) :
    ∃ head ∈ baseTexts ++ baseCounts ++ baseEnds, head <+: line := by
  rw [validV3BaseInventoryLine_eq] at valid
  split at valid
  · next value found =>
    obtain ⟨head, member, same⟩ := mem_of_findSome_stripPrefix found
    exact ⟨head, by simp [member], value, same.symm⟩
  split at valid
  · next value found =>
    obtain ⟨head, member, same⟩ := mem_of_findSome_stripPrefix found
    exact ⟨head, by simp [member], value, same.symm⟩
  · next counts =>
    have member : line ∈ baseEnds := List.contains_iff_mem.mp valid
    exact ⟨line, by simp [member], List.prefix_refl line⟩

/-- A line in front of the slots that says nothing to the parser is none that it takes
something from. -/
theorem not_read_of_base {line : Bytes} (valid : validV3BaseInventoryLine line = true) :
    ∀ head ∈ readHeads, ¬ head <+: line := by
  have apart : ∀ base ∈ baseTexts ++ baseCounts ++ baseEnds, ∀ head ∈ readHeads,
      ¬ head <+: base ∧ ¬ base <+: head := by decide
  obtain ⟨base, member, starts⟩ := startsWith_of_base valid
  intro head read
  obtain ⟨one, other⟩ := apart base member head read
  exact not_startsWith one other starts

theorem inventoryStep_base {s : Inventory} {line : Bytes}
    (valid : validV3BaseInventoryLine line = true) (single : newline ∉ line)
    (short : line.length ≤ maxStagedMarkerLineBytes) (noSlots : s.slots = []) :
    inventoryStep .v3 s (line ++ [newline]) =
      .ok { s with offset := s.offset + (line.length + 1) } := by
  have other := not_read_of_base valid
  have strips : ∀ head ∈ readHeads, stripPrefix line head = none :=
    fun head member => stripPrefix_eq_none.mpr (other head member)
  rw [inventoryStep_line single]
  refine ⟨s, (readInventoryLine_other (other _ (by decide))).mpr
    ⟨short, .inl noSlots, s.records, ?_, rfl⟩, rfl⟩
  simp only [readRecordLine, other (ascii "phase-") (by decide), and_false, if_false,
    strips (ascii "attempt-id: ") (by decide), strips (ascii "phase: ") (by decide),
    strips (ascii "stage-parent: ") (by decide), strips (ascii "stage: ") (by decide),
    strips (ascii "stage-entry: ") (by decide), noSlots, List.length_nil, if_true, valid]

/-- Such lines change nothing that the parser holds. -/
theorem readLines_base {s : Inventory} {lines : List Bytes}
    (valid : ∀ line ∈ lines, validV3BaseInventoryLine line = true)
    (single : ∀ line ∈ lines, newline ∉ line)
    (short : ∀ line ∈ lines, line.length ≤ maxStagedMarkerLineBytes) (noSlots : s.slots = []) :
    ∃ t, readLines s lines = .ok t ∧ t.records = s.records ∧ t.slots = [] := by
  induction lines generalizing s with
  | nil => exact ⟨s, rfl, rfl, noSlots⟩
  | cons line lines ih =>
    have step := @inventoryStep_base s line (valid line List.mem_cons_self)
      (single line List.mem_cons_self) (short line List.mem_cons_self) noSlots
    obtain ⟨t, rest, records, slots⟩ := @ih { s with offset := s.offset + (line.length + 1) }
      (fun line member => valid line (List.mem_cons_of_mem _ member))
      (fun line member => single line (List.mem_cons_of_mem _ member))
      (fun line member => short line (List.mem_cons_of_mem _ member)) noSlots
    exact ⟨t, foldlM_cons_eq_ok.mpr ⟨_, step, rest⟩, records, slots⟩

theorem inventoryStep_initialPhase {s : Inventory} (noSlots : s.slots = [])
    (first : s.records.phase = none) :
    ∃ t, inventoryStep .v3 s ((ascii "phase: " ++ preparing.asStr) ++ [newline]) = .ok t ∧
      t.records = { s.records with phase := some preparing } ∧ t.slots = [] := by
  have other : ¬ phaseSlotV3Prefix <+: ascii "phase: " ++ preparing.asStr := by decide
  refine ⟨_, (inventoryStep_line (by decide)).mpr ⟨_, (readInventoryLine_other other).mpr
    ⟨by decide, .inl noSlots, _, ?_, rfl⟩, rfl⟩, rfl, noSlots⟩
  have notAttempt : stripPrefix (ascii "phase: " ++ preparing.asStr) (ascii "attempt-id: ") = none := by
    decide
  have notSlot : ¬ ascii "phase-" <+: ascii "phase: " ++ preparing.asStr := by decide
  simp only [readRecordLine, notSlot, and_false, if_false, notAttempt, stripPrefix_append, noSlots,
    List.length_nil, ne_eq, not_true_eq_false, first, Option.isSome_none, Bool.false_eq_true]
  rfl

theorem inventoryStep_attemptId {s : Inventory} {attemptId : Bytes} (single : newline ∉ attemptId)
    (short : (ascii "attempt-id: " ++ attemptId).length ≤ maxStagedMarkerLineBytes)
    (noSlots : s.slots = []) (first : s.records.attemptId = none) :
    ∃ t, inventoryStep .v3 s ((ascii "attempt-id: " ++ attemptId) ++ [newline]) = .ok t ∧
      t.records = { s.records with attemptId := some attemptId } ∧ t.slots = [] := by
  have starts : ascii "attempt-id: " <+: ascii "attempt-id: " ++ attemptId := List.prefix_append _ _
  have other : ¬ IsSlotLine (ascii "attempt-id: " ++ attemptId) :=
    not_startsWith (by decide) (by decide) starts
  have notSlot : ¬ ascii "phase-" <+: ascii "attempt-id: " ++ attemptId :=
    not_startsWith (by decide) (by decide) starts
  have singleLine : newline ∉ ascii "attempt-id: " ++ attemptId := by
    have head : newline ∉ ascii "attempt-id: " := by decide
    simp [head, single]
  refine ⟨_, (inventoryStep_line singleLine).mpr ⟨_, (readInventoryLine_other other).mpr
    ⟨short, .inl noSlots, _, ?_, rfl⟩, rfl⟩, rfl, noSlots⟩
  simp only [readRecordLine, notSlot, and_false, if_false, stripPrefix_append, noSlots,
    List.length_nil, ne_eq, not_true_eq_false, first, Option.isSome_none, Bool.false_eq_true]

/-! ## Valid lines in front of the slots -/

theorem findSome_stripPrefix {heads : List Bytes} {head : Bytes} (value : Bytes)
    (member : head ∈ heads) (apart : ∀ other ∈ heads, other ≠ head → ¬ other <+: head ∧ ¬ head <+: other) :
    heads.findSome? (stripPrefix (head ++ value)) = some value := by
  induction heads with
  | nil => cases member
  | cons other heads ih =>
    by_cases same : other = head
    · rw [same, List.findSome?_cons, stripPrefix_append]
    · obtain ⟨one, two⟩ := apart other List.mem_cons_self same
      have skips : stripPrefix (head ++ value) other = none :=
        stripPrefix_eq_none.mpr (not_startsWith one two (List.prefix_append _ _))
      rw [List.findSome?_cons, skips]
      exact ih ((List.mem_cons.mp member).resolve_left (Ne.symm same))
        fun other inside => apart other (List.mem_cons_of_mem _ inside)

theorem findSome_stripPrefix_none {heads : List Bytes} {head : Bytes} (value : Bytes)
    (apart : ∀ other ∈ heads, ¬ other <+: head ∧ ¬ head <+: other) :
    heads.findSome? (stripPrefix (head ++ value)) = none := by
  rw [List.findSome?_eq_none_iff]
  intro other member
  obtain ⟨one, two⟩ := apart other member
  exact stripPrefix_eq_none.mpr (not_startsWith one two (List.prefix_append _ _))

/-- A line with a text is valid when the text is not empty. -/
theorem validV3Base_text {head value : Bytes} (isText : head ∈ baseTexts) :
    validV3BaseInventoryLine (head ++ value) = true ↔ value ≠ [] := by
  have apart : ∀ head ∈ baseTexts, ∀ other ∈ baseTexts,
      other ≠ head → ¬ other <+: head ∧ ¬ head <+: other := by decide
  rw [validV3BaseInventoryLine_eq, findSome_stripPrefix value isText (apart head isText)]
  simp

/-- A line with a printed count is valid. -/
theorem validV3Base_count {head : Bytes} (isCount : head ∈ baseCounts) (n : Nat) :
    validV3BaseInventoryLine (head ++ decimal n) = true := by
  have noText : ∀ head ∈ baseCounts, ∀ other ∈ baseTexts, ¬ other <+: head ∧ ¬ head <+: other := by
    decide
  have apart : ∀ head ∈ baseCounts, ∀ other ∈ baseCounts,
      other ≠ head → ¬ other <+: head ∧ ¬ head <+: other := by decide
  rw [validV3BaseInventoryLine_eq, findSome_stripPrefix_none _ (noText head isCount),
    findSome_stripPrefix _ isCount (apart head isCount)]
  simpa [decimal_ne_nil] using isDigit_decimal n

end Duet.Marker
