import Duet.Lib.FileBytes
import Duet.Lib.Lines
import Mathlib.Data.List.Basic
import Mathlib.Data.List.TakeWhile
import Mathlib.Data.Vector.Basic

/-!
# The staged recovery marker

The recovery marker of a staged apply is a file of lines: the attempt id and the initial
phase, five slots that the phase transitions overwrite in place, and behind them what the
attempt recorded on the way. A text of the source is the list of its UTF-8 bytes.
-/

namespace Duet.Marker

open Lib

abbrev Bytes := List UInt8

/-- The bytes of a literal of the source; they are all ASCII. -/
def ascii (text : String) : Bytes := text.toList.map fun c => c.toNat.toUInt8

/-- The byte `'\n'`. -/
def newline : UInt8 := 10

/-- The byte `' '`. -/
def space : UInt8 := 32

def stagedMarkerV2Magic : Bytes := ascii "duet-apply-attempt-v2\n"

def stagedMarkerV3Magic : Bytes := ascii "duet-apply-attempt-v2-journal-v3\n"

def phaseSlotV3Prefix : Bytes := ascii "phase-slot-v3: "

def phaseSlotV3Domain : Bytes := ascii "duet staged marker fixed phase slot v3" ++ [0]

def maxStagedMarkerBytes : Nat := 16 * 1024 * 1024

def maxStagedMarkerLineBytes : Nat := 16 * 1024

/-! ## Phases -/

inductive ApplyAttemptPhase where
  | preparing
  | prepared
  | committing
  | committed
  | stateSave
  | finished
deriving DecidableEq, Repr

namespace ApplyAttemptPhase

def asStr : ApplyAttemptPhase → Bytes
  | preparing => ascii "preparing"
  | prepared => ascii "prepared"
  | committing => ascii "committing"
  | committed => ascii "committed"
  | stateSave => ascii "state-save"
  | finished => ascii "finished"

def parse (value : Bytes) : Option ApplyAttemptPhase :=
  if value = ascii "preparing" then some preparing
  else if value = ascii "prepared" then some prepared
  else if value = ascii "committing" then some committing
  else if value = ascii "committed" then some committed
  else if value = ascii "state-save" then some stateSave
  else if value = ascii "finished" then some finished
  else none

end ApplyAttemptPhase

open ApplyAttemptPhase (preparing prepared committing committed stateSave finished)

/-- The phases of the five slots, in their order. -/
def v3Phases : List ApplyAttemptPhase := [prepared, committing, committed, stateSave, finished]

def nextStagedPhase : ApplyAttemptPhase → Option ApplyAttemptPhase
  | preparing => some prepared
  | prepared => some committing
  | committing => some committed
  | committed => some stateSave
  | stateSave => some finished
  | finished => none

/-! ## Slots

The digest of an applied slot is chained to the slots before it. -/

/-- The result of `Blake2b::new(32)`. -/
abbrev Digest := Vector UInt8 32

/-- One digit of a lower-case hexadecimal number. -/
def hexDigit (n : Nat) : UInt8 :=
  if n < 10 then (48 + n).toUInt8 else (87 + n).toUInt8

/-- A number as `width` lower-case hexadecimal digits, as `{:0width$x}` prints it. -/
def hex (width n : Nat) : Bytes :=
  (List.range width).reverse.map fun i => hexDigit (n / 16 ^ i % 16)

/-- `sequence.to_be_bytes()` -/
def beBytes (sequence : Nat) : Bytes :=
  (List.range 8).reverse.map fun i => (sequence / 256 ^ i).toUInt8

section Slots

variable (blake2b : Bytes → Digest)

def phaseSlotV3Digest (sequence : Nat) (previous : Digest) (attemptId : Bytes)
    (next : ApplyAttemptPhase) : Digest :=
  blake2b (phaseSlotV3Domain ++ beBytes sequence ++ previous.toList ++ attemptId ++ next.asStr)

def phaseSlotV3PendingValue (sequence : Nat) (phase : ApplyAttemptPhase) : Bytes :=
  hex 16 sequence ++ ascii " pending " ++ List.replicate 64 48 ++ ascii " " ++ phase.asStr

def phaseSlotV3PendingLine (sequence : Nat) (phase : ApplyAttemptPhase) : Bytes :=
  phaseSlotV3Prefix ++ phaseSlotV3PendingValue sequence phase ++ [newline]

def phaseSlotV3AppliedValue (sequence : Nat) (previous : Digest) (attemptId : Bytes)
    (next : ApplyAttemptPhase) : Bytes :=
  let digest := phaseSlotV3Digest blake2b sequence previous attemptId next
  hex 16 sequence ++ ascii " applied " ++ digest.toList.flatMap (fun byte => hex 2 byte.toNat) ++
    ascii " " ++ next.asStr

def phaseSlotV3AppliedLine (sequence : Nat) (previous : Digest) (attemptId : Bytes)
    (next : ApplyAttemptPhase) : Bytes :=
  phaseSlotV3Prefix ++ phaseSlotV3AppliedValue blake2b sequence previous attemptId next ++ [newline]

end Slots

/-! ## The inventory of a marker -/

inductive StagedMarkerVersion where
  | v2
  | v3
deriving DecidableEq, Repr

/-- The device and inode numbers of a file or a directory. -/
structure FileIdentity where
  dev : UInt64
  ino : UInt64
deriving DecidableEq, Repr

/-- What a marker says, as `parse_staged_apply_attempt` reads it. -/
structure V2ApplyAttemptMarker where
  version : StagedMarkerVersion
  attemptId : Bytes
  phase : ApplyAttemptPhase
  stageParent : Option (Bytes × FileIdentity)
  stage : Option (Bytes × FileIdentity)
  entries : List (Bytes × FileIdentity)
  appliedSlots : Nat
  appliedDigest : Digest
  slotOffsets : List Nat
deriving DecidableEq

/-- `line.strip_prefix(head)` -/
def stripPrefix (line head : Bytes) : Option Bytes := line.dropPrefix? head

/-- `byte.is_ascii_digit()` -/
def isDigit (byte : UInt8) : Bool := 48 ≤ byte.toNat && byte.toNat ≤ 57

/-- `value.parse::<u64>()` -/
def parseU64 (value : Bytes) : Option UInt64 :=
  let digits := (stripPrefix value (ascii "+")).getD value
  if digits = [] ∨ ¬ digits.all isDigit then none
  else
    let number := digits.foldl (fun acc byte => acc * 10 + (byte.toNat - 48)) 0
    if number < UInt64.size then some (UInt64.ofNat number) else none

/-- The text before the last occurrence of a byte and the text after it. -/
def rsplitOnce (sep : UInt8) (text : Bytes) : Option (Bytes × Bytes) :=
  match text.rdropWhile (· ≠ sep) with
  | [] => none
  | front => some (front.dropLast, text.rtakeWhile (· ≠ sep))

def parseMarkerPathIdentity (value : Bytes) : Except String (Bytes × FileIdentity) :=
  let malformed := .error "malformed staged identity in V2 apply marker"
  match rsplitOnce space value with
  | none => malformed
  | some (front, ino) =>
    match rsplitOnce space front with
    | none => malformed
    | some (path, dev) =>
      match parseU64 dev, parseU64 ino with
      | some dev, some ino => if path = [] then malformed else .ok (path, ⟨dev, ino⟩)
      | _, _ => malformed

def validV3BaseInventoryLine (line : Bytes) : Bool :=
  let texts := [ascii "side: ", ascii "base: ", ascii "state: ", ascii "path: ",
    ascii "operation: ", ascii "unstaged-operation: "]
  let counts := [ascii "path-count: ", ascii "operation-count: ",
    ascii "unstaged-operation-count: "]
  match texts.findSome? (stripPrefix line) with
  | some value => !value.isEmpty
  | none =>
    match counts.findSome? (stripPrefix line) with
    | some value => !value.isEmpty && value.all isDigit
    | none =>
      [ascii "paths-truncated: true", ascii "operations-truncated: true",
        ascii "unstaged-operations-truncated: true"].contains line

def validV3DynamicLine (line : Bytes) : Bool :=
  [ascii "staged-file: ", ascii "committed-operation: ", ascii "committed-step: "].any fun head =>
    ((stripPrefix line head).map fun value => !value.isEmpty).getD false

/-- What the lines read so far say, the slots apart. -/
structure Records where
  attemptId : Option Bytes
  phase : Option ApplyAttemptPhase
  stageParent : Option (Bytes × FileIdentity)
  stage : Option (Bytes × FileIdentity)
  entries : List (Bytes × FileIdentity)
deriving DecidableEq

def Records.empty : Records := ⟨none, none, none, none, []⟩

/-- One line of `parse_staged_inventory` that is not one of a slot, without its newline. Of
the slots before it only the number matters. -/
def readRecordLine (version : StagedMarkerVersion) (slotCount : Nat) (r : Records)
    (line : Bytes) : Except String Records :=
  if version = .v3 ∧ ascii "phase-" <+: line then
    .error "unknown complete V3 phase journal line"
  else if let some value := stripPrefix line (ascii "attempt-id: ") then
    if version = .v3 ∧ slotCount ≠ 0 then
      .error "V3 attempt ID appears after its phase slots"
    else if r.attemptId.isSome then
      .error "V2 apply marker has duplicate attempt IDs"
    else
      .ok { r with attemptId := some value }
  else if let some value := stripPrefix line (ascii "phase: ") then
    if version = .v3 ∧ slotCount ≠ 0 then
      .error "V3 initial phase appears after its phase slots"
    else if r.phase.isSome then
      .error "V2 apply marker has duplicate phases"
    else
      match ApplyAttemptPhase.parse value with
      | none => .error "V2 apply marker has an invalid phase"
      | some phase => .ok { r with phase := some phase }
  else if let some value := stripPrefix line (ascii "stage-parent: ") then
    if version = .v3 ∧ slotCount ≠ v3Phases.length then
      .error "V3 staging inventory precedes its phase slots"
    else if r.stageParent.isSome then
      .error "V2 apply marker has duplicate staging parents"
    else do
      let parent ← parseMarkerPathIdentity value
      .ok { r with stageParent := some parent }
  else if let some value := stripPrefix line (ascii "stage: ") then
    if version = .v3 ∧ slotCount ≠ v3Phases.length then
      .error "V3 staging inventory precedes its phase slots"
    else if r.stage.isSome then
      .error "V2 apply marker has duplicate staging directories"
    else do
      let stage ← parseMarkerPathIdentity value
      .ok { r with stage := some stage }
  else if let some value := stripPrefix line (ascii "stage-entry: ") then
    if version = .v3 ∧ slotCount ≠ v3Phases.length then
      .error "V3 staging inventory precedes its phase slots"
    else do
      let entry ← parseMarkerPathIdentity value
      if r.entries.any (·.1 = entry.1) then
        .error "V2 apply marker has duplicate staged entries"
      else
        .ok { r with entries := r.entries ++ [entry] }
  else if version = .v3 then
    let valid :=
      if slotCount = 0 then validV3BaseInventoryLine line
      else slotCount = v3Phases.length && validV3DynamicLine line
    if valid then .ok r
    else .error "V3 apply marker contains an unknown, malformed, or misplaced line"
  else
    .ok r

/-- What the loop of `parse_staged_inventory` has read so far. -/
structure Inventory where
  records : Records
  slots : List Bytes
  slotOffsets : List Nat
  offset : Nat

/-- Nothing read, at the offset behind the first line. -/
def Inventory.start (offset : Nat) : Inventory where
  records := Records.empty
  slots := []
  slotOffsets := [0, 0, 0, 0, 0]
  offset := offset

/-- One line of `parse_staged_inventory`, without its newline. -/
def readInventoryLine (version : StagedMarkerVersion) (s : Inventory) (line : Bytes) :
    Except String Inventory :=
  if line.length > maxStagedMarkerLineBytes then
    .error "staged apply marker line exceeds the size limit"
  else if version = .v3 ∧ s.slots ≠ [] ∧ s.slots.length < v3Phases.length ∧
      ¬ phaseSlotV3Prefix <+: line then
    .error "V3 apply marker has a gap in its phase slots"
  else if let some value := stripPrefix line phaseSlotV3Prefix then
    if version ≠ .v3 ∨ s.slots.length = v3Phases.length then
      .error "staged apply marker has unexpected phase slots"
    else
      .ok { s with
        slotOffsets := s.slotOffsets.set s.slots.length s.offset
        slots := s.slots ++ [value] }
  else do
    let records ← readRecordLine version s.slots.length s.records line
    .ok { s with records := records }

/-- One round of the loop of `parse_staged_inventory`: a line, and the offset behind it. -/
def inventoryStep (version : StagedMarkerVersion) (s : Inventory) (lineWithNewline : Bytes) :
    Except String Inventory := do
  let s' ← readInventoryLine version s (trimEndMatches newline lineWithNewline)
  .ok { s' with offset := s'.offset + lineWithNewline.length }

/-- What the loop over the slots has found so far. -/
structure SlotState where
  latestPhase : ApplyAttemptPhase
  appliedDigest : Digest
  appliedSlots : Nat
  pendingSeen : Bool

section Parser

variable (blake2b : Bytes → Digest)

/-- One slot of the loop over the slots, with its index and phase. -/
def slotStep (attemptId : Bytes) (s : SlotState) (slot : (Bytes × ApplyAttemptPhase) × Nat) :
    Except String SlotState :=
  let ((value, phase), index) := slot
  if value = phaseSlotV3PendingValue index phase then
    .ok { s with pendingSeen := true }
  else if value = phaseSlotV3AppliedValue blake2b index s.appliedDigest attemptId phase then
    if s.pendingSeen then
      .error "V3 applied phase slots are not a contiguous prefix"
    else
      .ok {
        latestPhase := phase
        appliedDigest := phaseSlotV3Digest blake2b index s.appliedDigest attemptId phase
        appliedSlots := s.appliedSlots + 1
        pendingSeen := s.pendingSeen }
  else
    .error "invalid or torn V3 phase slot"

/-- What `parse_staged_inventory` makes of the lines it read. -/
def finishInventory (version : StagedMarkerVersion) (s : Inventory) :
    Except String V2ApplyAttemptMarker :=
  match s.records.attemptId, s.records.phase with
  | none, _ => .error "V2 apply marker is missing attempt ID"
  | some attemptId, phase =>
    if version = .v3 ∧ attemptId = [] then
      .error "V3 apply marker has an empty attempt ID"
    else
      match phase with
      | none => .error "V2 apply marker has an invalid or missing phase"
      | some initialPhase =>
        if version = .v3 ∧ initialPhase ≠ preparing then
          .error "V3 apply marker initial phase is not preparing"
        else if version = .v3 ∧ s.slots.length ≠ v3Phases.length then
          .error "V3 apply marker does not contain exactly five phase slots"
        else do
          let slots ← (s.slots.zip v3Phases).zipIdx.foldlM (slotStep blake2b attemptId)
            { latestPhase := initialPhase, appliedDigest := Vector.replicate 32 0,
              appliedSlots := 0, pendingSeen := false }
          .ok {
            version
            attemptId
            phase := slots.latestPhase
            stageParent := s.records.stageParent
            stage := s.records.stage
            entries := s.records.entries
            appliedSlots := slots.appliedSlots
            appliedDigest := slots.appliedDigest
            slotOffsets := s.slotOffsets }

/-- The length of the first line, with its newline. -/
def firstLineLength (contents : Bytes) : Nat :=
  match contents.findIdx? (· = newline) with
  | some index => index + 1
  | none => contents.length

def parseStagedInventory (contents : Bytes) (version : StagedMarkerVersion) :
    Except String V2ApplyAttemptMarker :=
  if version = .v3 ∧ contents.getLast? ≠ some newline then
    .error "staged apply marker has an incomplete final line"
  else do
    let offset := firstLineLength contents
    let s ← (splitInclusive newline (contents.drop offset)).foldlM (inventoryStep version)
      (Inventory.start offset)
    finishInventory blake2b version s

def parseStagedApplyAttempt (contents : Bytes) : Except String V2ApplyAttemptMarker :=
  if contents.length > maxStagedMarkerBytes then
    .error "staged apply marker exceeds the size limit"
  else if stagedMarkerV3Magic <+: contents then
    parseStagedInventory blake2b contents .v3
  else if stagedMarkerV2Magic <+: contents then
    parseStagedInventory blake2b contents .v2
  else
    .error "apply recovery marker is not a supported staged marker"

end Parser

/-! ## Transitions -/

/-- The marker file, as far as an update of its phase looks at it. -/
structure MarkerFile where
  contents : Bytes
  mode : UInt32
deriving DecidableEq

/-- `read_to_string`: the bytes of a file as a text. -/
def readToString (bytes : Bytes) : Except String Bytes :=
  if bytes.toByteArray.validateUTF8 then .ok bytes
  else .error "stream did not contain valid UTF-8"

section Transition

variable (blake2b : Bytes → Digest)

/-- What `update_v3_phase_slot` writes for the marker it read: the offset and the line. -/
def slotWrite (marker : V2ApplyAttemptMarker) (attemptId : Bytes)
    (expected : List ApplyAttemptPhase) (next : ApplyAttemptPhase) : Except String (Nat × Bytes) :=
  if marker.version ≠ .v3 ∨ marker.attemptId ≠ attemptId ∨ marker.phase ∉ expected ∨
      nextStagedPhase marker.phase ≠ some next then
    .error "staged apply marker does not match the requested V3 phase transition"
  else
    match marker.slotOffsets[marker.appliedSlots]? with
    | none => .error "V3 apply marker has no pending phase slot"
    | some offset =>
      let line := phaseSlotV3AppliedLine blake2b marker.appliedSlots marker.appliedDigest attemptId next
      let pending := phaseSlotV3PendingLine marker.appliedSlots next
      if line.length ≠ pending.length then .error "V3 phase slot length changed"
      else .ok (offset, line)

/-- `update_v3_phase_slot` on a file that nobody else touches. -/
def updateV3PhaseSlot (file : MarkerFile) (attemptId : Bytes) (expected : List ApplyAttemptPhase)
    (next : ApplyAttemptPhase) : Except String MarkerFile :=
  if file.contents.length > maxStagedMarkerBytes then
    .error "invalid or oversized V3 apply recovery marker"
  else if file.mode &&& 0o7777 ≠ 0o600 then
    .error "V3 apply recovery marker mode is not 0600"
  else do
    let contents ← readToString file.contents
    let marker ← parseStagedApplyAttempt blake2b contents
    let (offset, line) ← slotWrite blake2b marker attemptId expected next
    let written := { file with contents := writeAt 0 file.contents offset line }
    let updated ← readToString written.contents
    let updatedMarker ← parseStagedApplyAttempt blake2b updated
    if updatedMarker.version ≠ .v3 ∨ updatedMarker.attemptId ≠ attemptId ∨
        updatedMarker.phase ≠ next ∨ updatedMarker.appliedSlots ≠ marker.appliedSlots + 1 then
      .error "V3 apply marker transition verification failed"
    else
      .ok written

end Transition

end Duet.Marker
