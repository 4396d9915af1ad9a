import Duet.DeltaRoundTrip
import Duet.Sync.Signatures
import Duet.Sync.StoredOutputs

/-!
# The frames that a producer yields

Every action is seen as the same kind by the side that signs its old file, by the producer of the
reversed actions, by the side that collects its details and by the applier. What the producer yields
for one action is a group of frames of the grammar, which gives the file that is sent.
-/

namespace Duet.Detail

open Lib Rustsync

/-! ## One classification -/

abbrev Signatures := List (Path × Signature)

/-- What collecting details does for one action. -/
def actionDetail (sending : SourceFiles) (signatures : Signatures) (action : Action) :
    Except ProducerError (Option ChangeDetails × Signatures) :=
  match action.sentChange with
  | some change => changeDetail sending signatures change
  | none => .ok (none, signatures)

theorem detailedChangesFrom_cons (sending : SourceFiles) (signatures : Signatures)
    (action : Action) (later : Actions) :
    detailedChangesFrom sending signatures (action :: later) = (do
      let detail ← actionDetail sending signatures action
      let details ← detailedChangesFrom sending detail.2 later
      pure (detail.1.toList ++ details)) := by
  have skipped : ∀ rest : Except ProducerError (List ChangeDetails),
      rest = (do
        let details ← rest
        pure ((none : Option ChangeDetails).toList ++ details)) := by
    intro rest
    cases rest <;> rfl
  unfold actionDetail
  cases action with
  | remote change | resolvedRemote _ change => cases signatures <;> rfl
  | _ => cases signatures <;> exact skipped _

/-- What the four sides make of an action: no detail, a file, or a diff with a signature. -/
inductive Classified (action : Action) : Prop where
  | nothing (applied : applyDetailKind action = none)
    (served : sourceDetailKind action.flip = none) (signed : signedEntry action = none)
    (collected : ∀ sending signatures,
      actionDetail sending signatures action.flip = .ok (none, signatures))
  | file (entry : DirEntryWithMeta) (applied : applyDetailKind action = some .file)
    (served : sourceDetailKind action.flip = some (.file entry.path))
    (signed : signedEntry action = none) (output : actionOutputEntry action = .ok entry)
    (collected : ∀ sending signatures, actionDetail sending signatures action.flip = (do
      let bytes ← readContents sending entry.path
      pure (some (.contents bytes), signatures)))
  | diff (old entry : DirEntryWithMeta) (applied : applyDetailKind action = some .diff)
    (served : sourceDetailKind action.flip = some (.diff old.path))
    (signed : signedEntry action = some old) (output : actionOutputEntry action = .ok entry)
    (change : action.appliedChange = some (.modified old entry))
    (collected : ∀ sending signatures, actionDetail sending signatures action.flip = (do
      let path ← sourcePath old.path
      let opened ← openSource sending path
      let next ← nextSignature signatures old.path
      let delta ← compareWith sending next.1 opened.1
      pure (some (.diff delta), next.2)))

theorem actionOutputEntry_of_file {action : Action} {change : Change} {entry : DirEntryWithMeta}
    (applied : action.appliedChange = some change) (new : change.newEntry = some entry)
    (isFile : entry.isFile = true) : actionOutputEntry action = .ok entry := by
  have found : changeOutputEntry change = .ok entry := by
    cases change with
    | removed old => cases new
    | added added =>
      cases new
      exact if_pos isFile
    | modified old modified =>
      cases new
      exact if_pos isFile
  cases action with
  | «local» change' =>
    cases applied
    rw [actionOutputEntry, found, withMessage]
  | resolvedLocal _ change' =>
    cases applied
    rw [actionOutputEntry, found, withMessage]
  | _ => cases applied

theorem classified (action : Action) : Classified action := by
  cases change : action.appliedChange with
  | none =>
    have collected : ∀ sending signatures,
        actionDetail sending signatures action.flip = .ok (none, signatures) := by
      intro sending signatures
      rw [actionDetail, Action.sentChange_flip, change]
    cases action with
    | «local» change' => cases change
    | resolvedLocal _ change' => cases change
    | _ => exact .nothing rfl rfl rfl collected
  | some change' =>
    have applied : applyDetailKind action = applyDetailKindForChange change' := by
      cases action <;> cases change <;> rfl
    have collected : ∀ sending signatures, actionDetail sending signatures action.flip =
        changeDetail sending signatures change' := by
      intro sending signatures
      rw [actionDetail, Action.sentChange_flip, change]
    cases change' with
    | removed old =>
      refine .nothing applied ?_ ?_ collected
      · cases action <;> cases change <;> rfl
      · cases action <;> cases change <;> rfl
    | added entry =>
      have signed : signedEntry action = none := by
        cases action <;> cases change <;> rfl
      have served : sourceDetailKind action.flip =
          if entry.isFile then some (.file entry.path) else none := by
        cases action <;> cases change <;> rfl
      simp only [applyDetailKindForChange] at applied
      simp only [changeDetail] at collected
      by_cases isFile : entry.isFile = true
      · rw [if_pos isFile] at served applied
        simp only [if_pos isFile] at collected
        exact .file entry applied served signed (actionOutputEntry_of_file change rfl isFile)
          collected
      · rw [if_neg isFile] at served applied
        simp only [if_neg isFile] at collected
        exact .nothing applied served signed collected
    | modified old entry =>
      have signed : signedEntry action =
          if old.isFile && entry.isFile && !old.sameContents entry then some old else none := by
        cases action <;> cases change <;> rfl
      have served : sourceDetailKind action.flip =
          if old.isFile && entry.isFile && !old.sameContents entry then some (.diff old.path)
          else if !old.isFile && entry.isFile then some (.file entry.path) else none := by
        cases action <;> cases change <;> rfl
      simp only [applyDetailKindForChange] at applied
      simp only [changeDetail] at collected
      by_cases isDiff : (old.isFile && entry.isFile && !old.sameContents entry) = true
      · rw [if_pos isDiff] at signed served applied
        simp only [if_pos isDiff] at collected
        have isFile : entry.isFile = true := by
          rw [Bool.and_eq_true, Bool.and_eq_true] at isDiff
          exact isDiff.1.2
        exact .diff old entry applied served signed
          (actionOutputEntry_of_file change rfl isFile) change collected
      · rw [if_neg isDiff] at signed served applied
        simp only [if_neg isDiff] at collected
        by_cases whole : (!old.isFile && entry.isFile) = true
        · rw [if_pos whole] at served applied
          simp only [if_pos whole] at collected
          have isFile : entry.isFile = true := by
            rw [Bool.and_eq_true] at whole
            exact whole.2
          exact .file entry applied served signed
            (actionOutputEntry_of_file change rfl isFile) collected
        · rw [if_neg whole] at served applied
          simp only [if_neg whole] at collected
          exact .nothing applied served signed collected

/-! ## Deliveries -/

section Deliveries

variable {sending : SourceFiles} {producer : DetailProducer} {frames later : List DetailFrame}
  {ending : Option ProducerError} {path : Path} {file : Reader UInt8} {index : UInt32}

/-- States with the same next frame deliver the same. -/
theorem delivers_congr {next : DetailProducer}
    (same : nextFrame sending producer = nextFrame sending next)
    (delivers : (frameSource sending).Delivers next frames ending) :
    (frameSource sending).Delivers producer frames ending := by
  cases delivers with
  | exhausted done => exact .exhausted (same.trans done)
  | fails done => exact .fails (same.trans done)
  | yields done rest => exact .yields (same.trans done) rest

/-- The pieces of a file that is being read, and its end. -/
theorem delivers_pieces (producer : DetailProducer) (index : UInt32)
    (readable : ∀ left, sending.readFails path left = false)
    (idle : producer.pending = []) (chunk : 0 < producer.maxChunkBytes)
    (rest : (frameSource sending).Delivers { producer with state := none } later ending) :
    ∀ (left : Nat) (file : Reader UInt8), file.rest.length = left →
      ∃ pieces : List (List UInt8), pieces.flatten = file.rest ∧
        (frameSource sending).Delivers
          { producer with state := some (.file index path file left) }
          ((pieces.map DetailPayload.fileBytes ++ [DetailPayload.fileEnd]).map
            (DetailFrame.mk index) ++ later)
          ending := by
  intro left
  induction left using Nat.strongRecOn with
  | ind left ih =>
    intro file length
    by_cases none : left = 0
    · refine ⟨[], ?_, .yields ?_ rest⟩
      · exact (List.length_eq_zero_iff.mp (length.trans none)).symm
      · change nextFrame sending _ = _
        simp only [nextFrame, idle, nextFileFrame, none, if_true]
        rfl
    · have room : 0 < min left producer.maxChunkBytes := by omega
      have some_left : file.rest ≠ [] := by
        intro empty
        rw [empty] at length
        exact none length.symm
      have got_some := mt (Reader.read_eq_nil_iff room).mp some_left
      have whole := Reader.read_append (r := file) (n := min left producer.maxChunkBytes)
      have short := Reader.length_read_rest (r := file) (n := min left producer.maxChunkBytes)
      cases got : file.read (min left producer.maxChunkBytes) with
      | mk bytes file' =>
        rw [got] at got_some whole short
        cases bytes with
        | nil => exact absurd rfl got_some
        | cons byte bytes =>
          have shorter : left - (byte :: bytes).length < left := by
            rw [List.length_cons]
            omega
          have same : file'.rest.length = left - (byte :: bytes).length := by
            dsimp only at short
            omega
          obtain ⟨pieces, flat, delivers⟩ := ih _ shorter file' same
          refine ⟨(byte :: bytes) :: pieces, ?_, .yields ?_ delivers⟩
          · rw [List.flatten_cons, flat]
            exact whole
          · change nextFrame sending _ = _
            simp only [nextFrame, idle, nextFileFrame, if_neg none, readable, Bool.false_eq_true,
              if_false, bind, Effect.bind, Effect.read, got]
            rfl

/-- The frames that the thread of a diff sent, of which the last one ends it. -/
theorem delivers_received (producer : DetailProducer) (index : UInt32)
    (idle : producer.pending = [])
    (rest : (frameSource sending).Delivers { producer with state := none } later ending)
    (body : List DetailPayload) (moves : ∀ payload ∈ body, payload.Moves) :
    (frameSource sending).Delivers
      { producer with
        state := some (.diff (((body ++ [DetailPayload.diffEnd]).map (DetailFrame.mk index)).map
          .ok)) }
      ((body ++ [DetailPayload.diffEnd]).map (DetailFrame.mk index) ++ later) ending := by
  induction body with
  | nil =>
    refine .yields ?_ rest
    change nextFrame sending _ = _
    simp only [nextFrame, idle, List.nil_append, List.map_cons, List.map_nil, nextDiffFrame]
    rfl
  | cons payload body ih =>
    have notEnd : payload ≠ .diffEnd := by
      intro same
      have here := moves payload List.mem_cons_self
      rw [same] at here
      exact here
    refine .yields ?_ (ih fun other mem => moves other (List.mem_cons_of_mem _ mem))
    change nextFrame sending _ = _
    simp only [nextFrame, idle, List.cons_append, List.map_cons, nextDiffFrame, if_neg notEnd]
    rfl

end Deliveries

/-! ## Groups -/

/-- The frames of one action. -/
def groupOf (index : UInt32) (kind : ApplyDetailKind) (body : List DetailPayload) :
    List DetailFrame :=
  (begins kind :: (body ++ [ends kind])).map (DetailFrame.mk index)

section Groups

variable {files : OutputFiles} {hashes : ContentHashes} {actions : Actions} {action : Action}
  {entry : DirEntryWithMeta} {index : UInt32} {kind : ApplyDetailKind} {body : List DetailPayload}

theorem actionIndex_groupOf {frame : DetailFrame} (mem : frame ∈ groupOf index kind body) :
    frame.actionIndex = index := by
  obtain ⟨payload, -, rfl⟩ := List.mem_map.mp mem
  rfl

theorem groupOf_mem (output : actionOutputEntry action = .ok entry)
    (pieces : ∀ piece ∈ body, Piece kind piece)
    (declared : Declared hashes entry (body.flatMap (produces (files.contents entry.path)))) :
    groupOf index kind body ∈ detailGroup files hashes kind index.toNat action := by
  refine ⟨fun frame mem => ?_, entry, output, body, ?_, pieces, declared⟩
  · rw [actionIndex_groupOf mem]
  · rw [groupOf, List.map_map]
    exact List.map_id _

theorem producedFor_append (before after : List DetailFrame) (at_ : Nat) :
    producedFor files actions (before ++ after) at_ =
      producedFor files actions before at_ ++ producedFor files actions after at_ := by
  simp [producedFor]

/-- A group produces what its pieces do. -/
theorem producedFor_groupOf :
    producedFor files actions (groupOf index kind body) index.toNat =
      body.flatMap (produces (oldFor files actions index.toNat)) := by
  have all : (groupOf index kind body).filter (fun frame => frame.actionIndex.toNat = index.toNat) =
      groupOf index kind body := by
    rw [List.filter_eq_self]
    intro frame mem
    simp [actionIndex_groupOf mem]
  have first : produces (oldFor files actions index.toNat) (begins kind) = [] := by
    cases kind <;> rfl
  have last : produces (oldFor files actions index.toNat) (ends kind) = [] := by
    cases kind <;> rfl
  rw [producedFor, all, groupOf, List.flatMap_map, List.flatMap_cons, first, List.nil_append,
    List.flatMap_append, List.flatMap_singleton, last, List.append_nil]

/-- It ends. -/
theorem exists_end_groupOf (index : UInt32) (kind : ApplyDetailKind) (body : List DetailPayload) :
    ∃ frame ∈ groupOf index kind body, frame.actionIndex.toNat = index.toNat ∧
      IsEnd frame.payload := by
  refine ⟨⟨index, ends kind⟩, ?_, rfl, kind, rfl⟩
  refine List.mem_map_of_mem ?_
  exact List.mem_cons_of_mem _ (List.mem_append_right _ (List.mem_singleton_self _))

theorem flatMap_fileBytes (old : List UInt8) (pieces : List (List UInt8)) :
    (pieces.map DetailPayload.fileBytes).flatMap (produces old) = pieces.flatten := by
  induction pieces with
  | nil => rfl
  | cons piece pieces ih => exact congrArg (piece ++ ·) ih

theorem flatMap_moves (old : List UInt8) (moves : ∀ payload ∈ body, payload.Moves) :
    body.flatMap (produces old) = describes old body := by
  induction body with
  | nil => rfl
  | cons payload body ih =>
    have rest := ih fun later mem => moves later (List.mem_cons_of_mem _ mem)
    have here := moves payload List.mem_cons_self
    rw [List.flatMap_cons, rest]
    cases payload with
    | diffCopy _ _ | diffBytes _ => rfl
    | _ => cases here

theorem piece_of_moves {payload : DetailPayload} (moves : payload.Moves) : Piece .diff payload := by
  cases payload with
  | diffCopy _ _ | diffBytes _ => trivial
  | _ => cases moves

end Groups

end Duet.Detail
