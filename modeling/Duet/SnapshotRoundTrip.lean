import Duet.Lib.Fallible
import Duet.Lib.Utf8
import Duet.Orchestrator.Sync
import Duet.State.Snapshot

/-!
# Snapshots are read back

What is read from a snapshot is what was written, and the only file that reads as it does
is the one that would be written. The two formats are told apart by the magic text, with
which a legacy file begins only if it holds one particular number of entries.
-/

namespace Duet.Snapshot

open Lib

/-- The number of entries whose length field is the magic text. -/
def magicLength : Nat := 0x00504E5354455544

/-- What a file in the given format keeps of its entries. -/
def kept (format : SnapshotFormat) (entries : List DirEntryWithMeta) : List DirEntryWithMeta :=
  match format with
  | .v2 => entries
  | .legacyV1 => entries.map DirEntryWithMeta.withoutDigest

/-! ## What can be written -/

/-- A path that serde writes: a UTF-8 text whose length fits its length field. -/
def WritablePath (path : PathBuf) : Prop := ValidUtf8 path ∧ path.length < 2 ^ 64

/-- An entry that serde writes. -/
def Writable (e : DirEntryWithMeta) : Prop :=
  WritablePath e.path ∧ ∀ target ∈ e.target, WritablePath target

section Valid

variable {path : PathBuf} {e : DirEntryWithMeta} {es : List DirEntryWithMeta}
  {format : SnapshotFormat} {bytes : List UInt8}

theorem valid_u32 (n : UInt32) : Bincode.u32.valid n = true := decide_eq_true n.toNat_lt

theorem valid_u64 (n : UInt64) : Bincode.u64.valid n = true := decide_eq_true n.toNat_lt

theorem valid_i64 (n : Int64) : Bincode.i64.valid n = true := valid_u64 n.toUInt64

theorem valid_digest (digest : Option ContentDigest) : Bincode.digest.option.valid digest = true := by
  cases digest with
  | none => rfl
  | some d => exact List.all_eq_true.mpr fun _ _ => rfl

theorem valid_path_iff : Bincode.path.valid path = true ↔ WritablePath path := by
  have all : path.all Codec.byte.valid = true := List.all_eq_true.mpr fun _ _ => rfl
  have parts : Bincode.path.valid path = (decide (path.length < 256 ^ 8) &&
    path.all Codec.byte.valid && path.toByteArray.validateUTF8) := rfl
  rw [parts, all, Bool.and_true, Bool.and_eq_true, decide_eq_true_iff,
    ByteArray.validateUTF8_eq_true_iff, isValidUTF8_iff, and_comm]
  rfl

theorem valid_target_iff {target : Option PathBuf} :
    Bincode.path.option.valid target = true ↔ ∀ t ∈ target, WritablePath t := by
  cases target with
  | none => simp [Codec.option]
  | some t => simp [Codec.option, valid_path_iff]

theorem valid_legacyEntry_iff : Bincode.legacyEntry.valid e.toLegacy = true ↔ Writable e := by
  have parts : Bincode.legacyEntry.valid e.toLegacy = (Bincode.path.valid e.path &&
    (Bincode.u64.valid e.size && (Bincode.i64.valid e.mtime && (Bincode.u64.valid e.ino &&
      (Bincode.u32.valid e.mode && (Bincode.path.option.valid e.target && (true &&
        Bincode.u32.valid e.checksum))))))) := rfl
  rw [parts, valid_u64, valid_i64, valid_u64, valid_u32, valid_u32]
  simp only [Bool.true_and, Bool.and_true, Bool.and_eq_true, valid_path_iff, valid_target_iff]
  rfl

theorem valid_entry_iff : Bincode.entry.valid e = true ↔ Writable e := by
  have parts : Bincode.entry.valid e =
    (Bincode.legacyEntry.valid e.toLegacy && Bincode.digest.option.valid e.digest) := rfl
  rw [parts, valid_digest, Bool.and_true, valid_legacyEntry_iff]

theorem valid_entries_iff :
    Bincode.entries.valid es = true ↔ es.length < 2 ^ 64 ∧ ∀ e ∈ es, Writable e := by
  have parts : Bincode.entries.valid es =
    (decide (es.length < 256 ^ 8) && es.all Bincode.entry.valid) := rfl
  rw [parts, Bool.and_eq_true, decide_eq_true_iff, List.all_eq_true]
  simp only [valid_entry_iff]
  rfl

theorem valid_legacyEntries_iff :
    Bincode.legacyEntries.valid (es.map DirEntryWithMeta.toLegacy) = true ↔
      es.length < 2 ^ 64 ∧ ∀ e ∈ es, Writable e := by
  have parts : Bincode.legacyEntries.valid (es.map DirEntryWithMeta.toLegacy) =
    (decide ((es.map DirEntryWithMeta.toLegacy).length < 256 ^ 8) &&
      (es.map DirEntryWithMeta.toLegacy).all Bincode.legacyEntry.valid) := rfl
  rw [parts, Bool.and_eq_true, decide_eq_true_iff, List.length_map, List.all_map, List.all_eq_true]
  simp only [Function.comp_apply, valid_legacyEntry_iff]
  rfl

theorem encodeIntoStdWrite_eq_ok {α : Type} {c : Codec α} {a : α} :
    encodeIntoStdWrite c a = .ok bytes ↔ c.valid a = true ∧ bytes = c.encode a := by
  unfold encodeIntoStdWrite
  split
  · next valid => simp [valid, eq_comm]
  · next invalid => simp [invalid]

theorem writeEntries_v2 : writeEntries es .v2 = .ok bytes ↔ Bincode.entries.valid es = true ∧
    bytes = snapshotMagic ++ snapshotVersionV2 :: Bincode.entries.encode es := by
  unfold writeEntries
  rw [bind_eq_ok]
  constructor
  · rintro ⟨payload, encoded, done⟩
    obtain ⟨valid, rfl⟩ := encodeIntoStdWrite_eq_ok.mp encoded
    refine ⟨valid, ?_⟩
    rw [← Except.ok.inj done, List.append_assoc, List.singleton_append]
  · rintro ⟨valid, rfl⟩
    refine ⟨_, encodeIntoStdWrite_eq_ok.mpr ⟨valid, rfl⟩, ?_⟩
    rw [List.append_assoc, List.singleton_append]

theorem writeEntries_legacy : writeEntries es .legacyV1 = .ok bytes ↔
    Bincode.legacyEntries.valid (es.map DirEntryWithMeta.toLegacy) = true ∧
      bytes = Bincode.legacyEntries.encode (es.map DirEntryWithMeta.toLegacy) :=
  encodeIntoStdWrite_eq_ok

/-- A snapshot can be written when all of its entries can. -/
theorem writeEntries_isOk_iff : (∃ bytes, writeEntries es format = .ok bytes) ↔
    es.length < 2 ^ 64 ∧ ∀ e ∈ es, Writable e := by
  cases format with
  | legacyV1 =>
    rw [← valid_legacyEntries_iff]
    simp only [writeEntries_legacy, exists_and_left, exists_eq, and_true]
  | v2 =>
    rw [← valid_entries_iff]
    simp only [writeEntries_v2, exists_and_left, exists_eq, and_true]

end Valid

/-! ## What is read -/

/-- The two kinds of files that are accepted. -/
inductive Accepted : List UInt8 → LoadedEntries → Prop
  | v2 (payload : List UInt8) (es : List DirEntryWithMeta)
      (read : Bincode.entries.decode payload = some (es, [])) :
      Accepted (snapshotMagic ++ snapshotVersionV2 :: payload) ⟨es, .v2⟩
  | legacy (contents : List UInt8) (entries : List LegacyEntry)
      (unmarked : ¬ snapshotMagic <+: contents)
      (read : Bincode.legacyEntries.decode contents = some (entries, [])) :
      Accepted contents ⟨entries.map LegacyEntry.toEntry, .legacyV1⟩

section Read

variable {contents front back bytes : List UInt8} {loaded : LoadedEntries}
  {es : List DirEntryWithMeta} {format : SnapshotFormat}

theorem decodeFromSlice_eq_ok {α : Type} {c : Codec α} {result : α × List UInt8} :
    decodeFromSlice c contents = .ok result ↔ c.decode contents = some result := by
  unfold decodeFromSlice
  split
  · next found => simp [found]
  · next missing => simp [missing]

theorem decodeEntries_eq_ok_iff :
    decodeEntries contents = .ok loaded ↔ Accepted contents loaded := by
  constructor
  · intro ok
    unfold decodeEntries at ok
    split at ok
    · next marked =>
      obtain ⟨tail, rfl⟩ := List.isPrefixOf_iff_prefix.mp marked
      rw [List.drop_left] at ok
      split at ok
      · cases ok
      · next version payload =>
        split at ok
        · cases ok
        · next known =>
          obtain ⟨⟨es, rest⟩, read, done⟩ := bind_eq_ok.mp ok
          have read := decodeFromSlice_eq_ok.mp read
          dsimp only at done
          split at done
          · cases done
          · next empty =>
            cases done
            rw [not_not.mp known]
            rw [not_not.mp empty] at read
            exact .v2 payload es read
    · next unmarked =>
      obtain ⟨⟨entries, rest⟩, read, done⟩ := bind_eq_ok.mp ok
      have read := decodeFromSlice_eq_ok.mp read
      dsimp only at done
      split at done
      · cases done
      · next empty =>
        cases done
        rw [not_not.mp empty] at read
        exact .legacy contents entries (fun marked => unmarked (List.isPrefixOf_iff_prefix.mpr marked))
          read
  · intro accepted
    cases accepted with
    | v2 payload es read =>
      have marked : snapshotMagic.isPrefixOf (snapshotMagic ++ snapshotVersionV2 :: payload) = true :=
        List.isPrefixOf_iff_prefix.mpr (List.prefix_append _ _)
      unfold decodeEntries
      rw [if_pos marked, List.drop_left]
      dsimp only
      rw [if_neg (not_not.mpr rfl), decodeFromSlice_eq_ok.mpr read]
      rfl
    | legacy _ entries unmarked read =>
      unfold decodeEntries
      rw [if_neg (fun marked => unmarked (List.isPrefixOf_iff_prefix.mp marked)),
        decodeFromSlice_eq_ok.mpr read]
      rfl

/-- A list has a length field of eight bytes. -/
theorem length_encode_legacyEntries (entries : List LegacyEntry) :
    8 ≤ (Bincode.legacyEntries.encode entries).length := by
  have parts : Bincode.legacyEntries.encode entries =
    Codec.leBytes 8 entries.length ++ entries.flatMap Bincode.legacyEntry.encode := rfl
  rw [parts, List.length_append, Codec.length_leBytes]
  omega

/-- A legacy list that begins with the magic text has that many entries. -/
theorem length_of_marked {entries : List LegacyEntry}
    (valid : Bincode.legacyEntries.valid entries = true)
    (marked : snapshotMagic <+: Bincode.legacyEntries.encode entries) :
    entries.length = magicLength := by
  have fits : entries.length < 256 ^ 8 :=
    of_decide_eq_true (Bool.and_eq_true_iff.mp valid).1
  have first : snapshotMagic <+: Codec.leBytes 8 entries.length :=
    List.prefix_of_prefix_length_le marked (List.prefix_append _ _) (by simp [snapshotMagic])
  have same := first.eq_of_length (by simp [snapshotMagic])
  rw [← Codec.leValue_leBytes 8 entries.length fits, ← same]
  decide

/-- What was written is read, unless a legacy file looks like a V2 file. -/
theorem accepted_of_written (written : writeEntries es format = .ok bytes)
    (unlike : format = .legacyV1 → es.length ≠ magicLength) :
    Accepted bytes ⟨kept format es, format⟩ := by
  cases format with
  | v2 =>
    obtain ⟨valid, rfl⟩ := writeEntries_v2.mp written
    exact .v2 _ es (Codec.decode_encode_nil valid)
  | legacyV1 =>
    obtain ⟨valid, rfl⟩ := writeEntries_legacy.mp written
    have same : kept .legacyV1 es = (es.map DirEntryWithMeta.toLegacy).map LegacyEntry.toEntry := by
      rw [List.map_map]
      rfl
    rw [same]
    refine .legacy _ _ (fun marked => unlike rfl ?_) (Codec.decode_encode_nil valid)
    rw [← length_of_marked valid marked, List.length_map]

/-- A run that reads a state file finds what the run before it stored there. -/
theorem load_written (written : writeEntries es format = .ok bytes)
    (unlike : format = .legacyV1 → es.length ≠ magicLength) :
    (decodeEntries bytes).map LoadedEntries.load =
      .ok ⟨format.stored (es.map DirEntryWithMeta.load), format⟩ := by
  rw [decodeEntries_eq_ok_iff.mpr (accepted_of_written written unlike)]
  cases format with
  | v2 => rfl
  | legacyV1 =>
    have stored : (kept .legacyV1 es).map DirEntryWithMeta.load =
        SnapshotFormat.legacyV1.stored (es.map DirEntryWithMeta.load) := by
      simp only [kept, SnapshotFormat.stored, List.map_map]
      rfl
    rw [← stored]
    rfl

/-- What was read is written the same way. -/
theorem Accepted.written (accepted : Accepted bytes loaded) :
    writeEntries loaded.entries loaded.format = .ok bytes := by
  cases accepted with
  | v2 payload es read =>
    obtain ⟨valid, whole⟩ := Bincode.entries.encode_decode read
    rw [List.append_nil] at whole
    exact writeEntries_v2.mpr ⟨valid, by rw [whole]⟩
  | legacy _ entries unmarked read =>
    obtain ⟨valid, whole⟩ := Bincode.legacyEntries.encode_decode read
    rw [List.append_nil] at whole
    have same : (entries.map LegacyEntry.toEntry).map DirEntryWithMeta.toLegacy = entries := by
      rw [List.map_map]
      exact List.map_id entries
    apply writeEntries_legacy.mpr
    rw [same]
    exact ⟨valid, whole⟩

/-- Nothing that is accepted is a proper prefix of something else that is accepted. -/
theorem Accepted.not_prefix {shorter : LoadedEntries} (whole : Accepted (front ++ back) loaded)
    (proper : back ≠ []) : ¬ Accepted front shorter := by
  intro part
  generalize isWhole : front ++ back = contents at whole
  cases part with
  | v2 payload es read =>
    cases whole with
    | v2 payload' es' read' =>
      rw [List.append_assoc, List.cons_append] at isWhole
      have payloads := (List.cons.inj (List.append_cancel_left isWhole)).2
      rw [← payloads] at read'
      rw [Codec.decode_eq_none_of_prefix read' proper] at read
      cases read
    | legacy _ entries unmarked read' =>
      apply unmarked
      rw [← isWhole, List.append_assoc]
      exact List.prefix_append _ _
  | legacy _ entries unmarked read =>
    cases whole with
    | v2 payload' es' read' =>
      have short : front.length < snapshotMagic.length := by
        by_contra long
        apply unmarked
        exact List.prefix_of_prefix_length_le (isWhole ▸ List.prefix_append _ _)
          (List.prefix_append front back) (not_lt.mp long)
      have long := length_encode_legacyEntries entries
      have same := (Bincode.legacyEntries.encode_decode read).2
      rw [List.append_nil] at same
      rw [← same] at long
      exact absurd short (by simpa [snapshotMagic] using long)
    | legacy _ entries' unmarked' read' =>
      rw [← isWhole] at read'
      rw [Codec.decode_eq_none_of_prefix read' proper] at read
      cases read

theorem rejected_iff : (∃ error, decodeEntries contents = .error error) ↔
    ∀ loaded, ¬ Accepted contents loaded := by
  simp only [← decodeEntries_eq_ok_iff]
  cases decodeEntries contents with
  | error error => simp
  | ok loaded => simp

end Read

/-- Snapshots are read back. A list of entries can be written exactly when all of its paths
and targets are UTF-8 texts, and is then read back as it was, without its digests for a
legacy file. What is accepted is what would be written for it, and neither a proper prefix
of it nor a continuation is accepted. -/
theorem snapshot_roundTrip :
    (∀ es format, (∃ bytes, writeEntries es format = .ok bytes) ↔
      es.length < 2 ^ 64 ∧ ∀ e ∈ es, Writable e) ∧
    (∀ es format bytes, writeEntries es format = .ok bytes →
      (format = .legacyV1 → es.length ≠ magicLength) →
        decodeEntries bytes = .ok ⟨kept format es, format⟩) ∧
    ∀ bytes loaded, decodeEntries bytes = .ok loaded →
      writeEntries loaded.entries loaded.format = .ok bytes ∧
      (∀ front back, bytes = front ++ back → back ≠ [] →
        ∃ error, decodeEntries front = .error error) ∧
      ∀ extra, extra ≠ [] → ∃ error, decodeEntries (bytes ++ extra) = .error error := by
  refine ⟨fun _ _ => writeEntries_isOk_iff, ?_, ?_⟩
  · intro es format bytes written unlike
    exact decodeEntries_eq_ok_iff.mpr (accepted_of_written written unlike)
  · intro bytes loaded ok
    have accepted := decodeEntries_eq_ok_iff.mp ok
    refine ⟨accepted.written, ?_, ?_⟩
    · rintro front back rfl proper
      exact rejected_iff.mpr fun shorter => accepted.not_prefix proper
    · intro extra proper
      apply rejected_iff.mpr
      intro longer whole
      exact whole.not_prefix proper accepted

/-- A name of the single byte 255 is no text, so that its entry is not written. A legacy list
of as many entries as the magic text says is taken for a V2 file of an unknown version. -/
theorem snapshot_exceptions :
    let named (path : PathBuf) : DirEntryWithMeta := ⟨path, 1, 0, 7, 0o100644, none, false, 0, none⟩
    writeEntries [named [255]] .v2 = .error .encode ∧
      ∃ bytes, writeEntries (List.replicate magicLength (named [97])) .legacyV1 = .ok bytes ∧
        decodeEntries bytes = .error (.unsupportedVersion 1) := by
  intro named
  constructor
  · have invalid : Bincode.entries.valid [named [255]] = false := by decide
    unfold writeEntries encodeIntoStdWrite
    rw [invalid]
    rfl
  · have writable : Writable (named [97]) :=
      ⟨⟨validUtf8_of_ascii (by decide), by decide⟩, by simp [named]⟩
    have many : ∀ n, n + 1 = magicLength → ∃ bytes,
        writeEntries (List.replicate (n + 1) (named [97])) .legacyV1 = .ok bytes ∧
          decodeEntries bytes = .error (.unsupportedVersion 1) := by
      intro n number
      have fits : (List.replicate (n + 1) (named [97])).length < 2 ^ 64 := by
        rw [List.length_replicate, number]
        decide
      obtain ⟨bytes, written⟩ := writeEntries_isOk_iff.mpr
        ⟨fits, fun e mem => List.eq_of_mem_replicate mem ▸ writable⟩
      refine ⟨bytes, written, ?_⟩
      obtain ⟨-, rfl⟩ := writeEntries_legacy.mp written
      have count : Codec.leBytes 8 (n + 1) = snapshotMagic := by
        rw [number]
        decide
      have parts : Bincode.legacyEntries.encode
          ((List.replicate (n + 1) (named [97])).map DirEntryWithMeta.toLegacy) =
            Codec.leBytes 8 (n + 1) ++ (List.replicate (n + 1) (named [97]).toLegacy).flatMap
              Bincode.legacyEntry.encode := by
        rw [List.map_replicate]
        show Codec.leBytes 8 (List.replicate (n + 1) _).length ++ _ = _
        rw [List.length_replicate]
      rw [parts, count, List.replicate_succ, List.flatMap_cons]
      rfl
    exact many (magicLength - 1) (by decide)

end Duet.Snapshot
