import Duet.Lib.Acceptor
import Duet.Sync.DetailApplier

/-!
# The grammar of a detail stream

A stream holds one group of frames for each action that has a detail, in the order of
the actions: a begin, the pieces of the contents, and an end, all with the index of the
action. The pieces give contents of the declared size and hash.
-/

namespace Duet.Detail

open Lib

/-- The first frame of a group. -/
def begins : ApplyDetailKind → DetailPayload
  | .file => .fileBegin
  | .diff => .diffBegin

/-- Its last frame. -/
def ends : ApplyDetailKind → DetailPayload
  | .file => .fileEnd
  | .diff => .diffEnd

/-- The frames between. -/
def Piece : ApplyDetailKind → DetailPayload → Prop
  | .file, .fileBytes _ => True
  | .diff, .diffCopy _ _ | .diff, .diffBytes _ => True
  | _, _ => False

/-- What a piece adds to the contents, given the old file. -/
def produces (old : List UInt8) : DetailPayload → List UInt8
  | .fileBytes bytes | .diffBytes bytes => bytes
  | .diffCopy offset len => (old.drop offset).take len
  | _ => []

/-- The contents that an entry declares: its size, and its digest or else its checksum. -/
def Declared (hashes : ContentHashes) (entry : DirEntryWithMeta) (bytes : List UInt8) : Prop :=
  bytes.length = entry.size.toNat ∧
    match entry.digest with
    | some digest => hashes.blake2b bytes = digest.bytes
    | none => hashes.adler32 bytes = entry.checksum

section Grammar

variable (files : OutputFiles) (hashes : ContentHashes)

/-- The rest of a group of which `written` is there already. -/
def openGroup (kind : ApplyDetailKind) (index : Nat) (old : List UInt8)
    (entry : DirEntryWithMeta) (written : List UInt8) : Language DetailFrame :=
  {frames | (∀ frame ∈ frames, frame.actionIndex.toNat = index) ∧
    ∃ pieces, frames.map DetailFrame.payload = pieces ++ [ends kind] ∧
      (∀ piece ∈ pieces, Piece kind piece) ∧
      Declared hashes entry (written ++ pieces.flatMap (produces old))}

/-- The frames of one action. -/
def detailGroup (kind : ApplyDetailKind) (index : Nat) (action : Action) : Language DetailFrame :=
  {frames | (∀ frame ∈ frames, frame.actionIndex.toNat = index) ∧
    ∃ entry, actionOutputEntry action = .ok entry ∧
      ∃ pieces, frames.map DetailFrame.payload = begins kind :: (pieces ++ [ends kind]) ∧
        (∀ piece ∈ pieces, Piece kind piece) ∧
        Declared hashes entry (pieces.flatMap (produces (files.contents entry.path)))}

/-- The frames of the actions from an index on. -/
def detailStream : Nat → Actions → Language DetailFrame
  | _, [] => 1
  | index, action :: actions =>
    match applyDetailKind action with
    | some kind => detailGroup files hashes kind index action * detailStream (index + 1) actions
    | none => detailStream (index + 1) actions

end Grammar

/-! ## What a frame leaves -/

section Quotients

variable {files : OutputFiles} {hashes : ContentHashes} {kind : ApplyDetailKind}
  {index : Nat} {old written : List UInt8} {entry : DirEntryWithMeta} {frame : DetailFrame}
  {action : Action} {actions : Actions}

theorem not_piece_ends : ¬ Piece kind (ends kind) := by
  cases kind <;> exact id

theorem nil_notMem_openGroup : [] ∉ openGroup hashes kind index old entry written := by
  rintro ⟨-, pieces, eq, -⟩
  simp at eq

theorem nil_notMem_detailGroup : [] ∉ detailGroup files hashes kind index action := by
  rintro ⟨-, _, -, pieces, eq, -⟩
  cases eq

/-- A piece is added to what is written. -/
theorem openGroup_piece (here : frame.actionIndex.toNat = index)
    (piece : Piece kind frame.payload) :
    (openGroup hashes kind index old entry written).leftQuotient [frame] =
      openGroup hashes kind index old entry (written ++ produces old frame.payload) := by
  ext frames
  constructor
  · intro ⟨indices, pieces, eq, allPieces, declared⟩
    cases pieces with
    | nil =>
      obtain ⟨last, -⟩ := List.cons.inj eq
      exact absurd (last ▸ piece) not_piece_ends
    | cons first pieces =>
      obtain ⟨rfl, rest⟩ := List.cons.inj eq
      refine ⟨fun later mem => indices later (.tail _ mem), pieces, rest,
        fun later mem => allPieces later (.tail _ mem), ?_⟩
      rwa [List.append_assoc]
  · intro ⟨indices, pieces, eq, allPieces, declared⟩
    refine ⟨?_, frame.payload :: pieces, congrArg (frame.payload :: ·) eq, ?_, ?_⟩
    · exact List.forall_mem_cons.mpr ⟨here, indices⟩
    · exact List.forall_mem_cons.mpr ⟨piece, allPieces⟩
    · rwa [List.append_assoc] at declared

/-- The end leaves nothing, if what is written is declared. -/
theorem openGroup_ends (here : frame.actionIndex.toNat = index)
    (last : frame.payload = ends kind) (declared : Declared hashes entry written) :
    (openGroup hashes kind index old entry written).leftQuotient [frame] = 1 := by
  ext frames
  rw [Language.mem_one]
  constructor
  · rintro ⟨-, pieces, eq, allPieces, -⟩
    cases pieces with
    | nil => exact List.map_eq_nil_iff.mp (List.cons.inj eq).2
    | cons first pieces =>
      obtain ⟨first', -⟩ := List.cons.inj eq
      have isPiece := allPieces first List.mem_cons_self
      rw [← first', last] at isPiece
      exact absurd isPiece not_piece_ends
  · intro isNil
    subst isNil
    refine ⟨?_, [], ?_, fun _ mem => absurd mem List.not_mem_nil, ?_⟩
    · exact List.forall_mem_singleton.mpr here
    · exact congrArg (· :: []) last
    · simpa using declared

/-- What the rest of a group begins with. -/
theorem openGroup_cons {frames : List DetailFrame}
    (inside : frame :: frames ∈ openGroup hashes kind index old entry written) :
    frame.actionIndex.toNat = index ∧
      (Piece kind frame.payload ∨ frame.payload = ends kind ∧ Declared hashes entry written) := by
  obtain ⟨indices, pieces, eq, allPieces, declared⟩ := inside
  refine ⟨indices frame List.mem_cons_self, ?_⟩
  cases pieces with
  | nil =>
    refine Or.inr ⟨(List.cons.inj eq).1, ?_⟩
    simpa using declared
  | cons first pieces =>
    obtain ⟨rfl, -⟩ := List.cons.inj eq
    exact Or.inl (allPieces _ List.mem_cons_self)

/-- What is written is no longer than what is declared. -/
theorem openGroup_length {frames : List DetailFrame}
    (inside : frames ∈ openGroup hashes kind index old entry written) :
    written.length ≤ entry.size.toNat := by
  obtain ⟨-, pieces, -, -, size, -⟩ := inside
  rw [List.length_append] at size
  omega

/-- A begin opens the group. -/
theorem detailGroup_begins (here : frame.actionIndex.toNat = index)
    (first : frame.payload = begins kind) (output : actionOutputEntry action = .ok entry) :
    (detailGroup files hashes kind index action).leftQuotient [frame] =
      openGroup hashes kind index (files.contents entry.path) entry [] := by
  ext frames
  constructor
  · intro ⟨indices, entry', output', pieces, eq, allPieces, declared⟩
    obtain rfl := Except.ok.inj (output.symm.trans output')
    exact ⟨fun later mem => indices later (.tail _ mem), pieces, (List.cons.inj eq).2, allPieces,
      declared⟩
  · intro ⟨indices, pieces, eq, allPieces, declared⟩
    refine ⟨List.forall_mem_cons.mpr ⟨here, indices⟩, entry, output, pieces, ?_, allPieces,
      declared⟩
    change frame.payload :: frames.map DetailFrame.payload = _
    rw [first, eq]

theorem detailGroup_cons {frames : List DetailFrame}
    (inside : frame :: frames ∈ detailGroup files hashes kind index action) :
    frame.actionIndex.toNat = index ∧ frame.payload = begins kind := by
  obtain ⟨indices, -, -, pieces, eq, -⟩ := inside
  exact ⟨indices frame List.mem_cons_self, (List.cons.inj eq).1⟩

/-! ## Streams -/

theorem detailStream_none (noDetail : applyDetailKind action = none) :
    detailStream files hashes index (action :: actions) =
      detailStream files hashes (index + 1) actions := by
  rw [detailStream, noDetail]

theorem detailStream_some (detail : applyDetailKind action = some kind) :
    detailStream files hashes index (action :: actions) =
      detailGroup files hashes kind index action * detailStream files hashes (index + 1) actions := by
  rw [detailStream, detail]

/-- While the group of an action is missing, the stream goes on with its begin. -/
theorem detailStream_missing (detail : applyDetailKind action = some kind)
    {frames : List DetailFrame}
    (inside : frames ∈ detailStream files hashes index (action :: actions)) :
    ∃ frame rest, frames = frame :: rest ∧ frame.actionIndex.toNat = index ∧
      frame.payload = begins kind := by
  rw [detailStream_some detail] at inside
  obtain ⟨group, inGroup, rest, -, rfl⟩ := Language.mem_mul.mp inside
  cases group with
  | nil => exact absurd inGroup nil_notMem_detailGroup
  | cons frame group =>
    obtain ⟨here, first⟩ := detailGroup_cons inGroup
    exact ⟨frame, group ++ rest, rfl, here, first⟩

/-- The frames of a stream belong to its actions. -/
theorem detailStream_index {frames : List DetailFrame}
    (inside : frames ∈ detailStream files hashes index actions) :
    ∀ frame ∈ frames, index ≤ frame.actionIndex.toNat ∧
      frame.actionIndex.toNat < index + actions.length := by
  induction actions generalizing index frames with
  | nil =>
    rw [detailStream, Language.mem_one] at inside
    subst inside
    exact fun _ mem => absurd mem List.not_mem_nil
  | cons action actions ih =>
    rw [List.length_cons]
    cases detail : applyDetailKind action with
    | none =>
      rw [detailStream_none detail] at inside
      intro frame mem
      have := ih inside frame mem
      omega
    | some kind =>
      rw [detailStream_some detail] at inside
      obtain ⟨group, inGroup, rest, inRest, rfl⟩ := Language.mem_mul.mp inside
      intro frame mem
      rcases List.mem_append.mp mem with mem | mem
      · have := inGroup.1 frame mem
        omega
      · have := ih inRest frame mem
        omega

/-- Every frame belongs to an action with a detail. -/
theorem exists_detail_of_frame {frames : List DetailFrame}
    (inside : frames ∈ detailStream files hashes index actions) :
    ∀ frame ∈ frames, ∃ at_ action, actions[at_]? = some action ∧
      (applyDetailKind action).isSome ∧ frame.actionIndex.toNat = index + at_ := by
  induction actions generalizing index frames with
  | nil =>
    rw [detailStream, Language.mem_one] at inside
    subst inside
    exact fun _ mem => absurd mem List.not_mem_nil
  | cons action actions ih =>
    have later : ∀ rest ∈ detailStream files hashes (index + 1) actions, ∀ frame ∈ rest,
        ∃ at_ other, (action :: actions)[at_]? = some other ∧
          (applyDetailKind other).isSome ∧ frame.actionIndex.toNat = index + at_ := by
      intro rest inRest frame mem
      obtain ⟨at_, other, found, detail, own⟩ := ih inRest frame mem
      exact ⟨at_ + 1, other, found, detail, by omega⟩
    cases detail : applyDetailKind action with
    | none =>
      rw [detailStream_none detail] at inside
      exact later frames inside
    | some kind =>
      rw [detailStream_some detail] at inside
      obtain ⟨group, inGroup, rest, inRest, rfl⟩ := Language.mem_mul.mp inside
      intro frame mem
      rcases List.mem_append.mp mem with mem | mem
      · exact ⟨0, action, rfl, by simp [detail], inGroup.1 frame mem⟩
      · exact later rest inRest frame mem

/-- Every action with a detail has a frame, and so an index that fits into one. -/
theorem exists_frame_of_detail {frames : List DetailFrame} {at_ : Nat}
    (inside : frames ∈ detailStream files hashes index actions)
    (found : actions[at_]? = some action) (detail : (applyDetailKind action).isSome) :
    ∃ frame ∈ frames, frame.actionIndex.toNat = index + at_ := by
  induction actions generalizing index frames at_ with
  | nil => cases found
  | cons first actions ih =>
    cases kind : applyDetailKind first with
    | none =>
      rw [detailStream_none kind] at inside
      cases at_ with
      | zero =>
        cases found
        rw [kind] at detail
        cases detail
      | succ at_ =>
        obtain ⟨frame, mem, own⟩ := ih inside found
        exact ⟨frame, mem, by omega⟩
    | some kind' =>
      rw [detailStream_some kind] at inside
      obtain ⟨group, inGroup, rest, inRest, rfl⟩ := Language.mem_mul.mp inside
      cases at_ with
      | zero =>
        obtain ⟨indices, -, -, pieces, eq, -⟩ := inGroup
        cases group with
        | nil => cases eq
        | cons frame group =>
          exact ⟨frame, List.mem_append_left _ List.mem_cons_self,
            indices frame List.mem_cons_self⟩
      | succ at_ =>
        obtain ⟨frame, mem, own⟩ := ih inRest found
        exact ⟨frame, List.mem_append_right _ mem, by omega⟩

end Quotients

end Duet.Detail
