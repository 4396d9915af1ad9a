import Duet.Sync.ProducedFrames

/-!
# The two sides of a detail stream

One side holds the actions and the old files, the other the reversed actions and the new files. The
first signs its old files, and the other yields a stream of frames for them, or collects the details
in one piece.
-/

namespace Duet.Detail

open Lib Rustsync

/-! ## The two sides -/

/-- What the side that applies the actions has and what the other side has. Nothing is assumed of
directories, of symlinks and of actions without details. -/
structure DetailSides (files : OutputFiles) (hashes : ContentHashes)
    (signs : Path → Option (Reader UInt8)) (sending : SourceFiles) (contents : Path → List UInt8)
    (actions : Actions) : Prop where
  granting : files.Granting
  validated : validateActions actions = .ok ()
  paths : ∀ action ∈ actions, ∀ change, action.appliedChange = some change → change.PathsAgree
  oldFiles : ∀ action ∈ actions, ∀ old entry,
    action.appliedChange = some (.modified old entry) → old.isFile = true →
    Declared hashes old (files.contents old.path) ∧
      ∃ plan, signs old.path = some ⟨files.contents old.path, plan⟩
  newFiles : ∀ action ∈ actions, ∀ entry, actionOutputEntry action = .ok entry →
    Declared hashes entry (contents entry.path) ∧ ∃ plan, sending.opens entry.path =
      some (⟨contents entry.path, plan⟩, (contents entry.path).length)
  readable : ∀ path left, sending.readFails path left = false
  short : ∀ path, (files.contents path).length < 2 ^ 63 ∧ (contents path).length < 2 ^ 63

/-- The block hash tells the blocks of each old file from the pieces of the new one. -/
def Distinct (files : OutputFiles) (hashing : Hashing) (contents : Path → List UInt8)
    (checks : Bool) (config : SignatureWindowConfig) (actions : Actions) : Prop :=
  ∀ action ∈ actions, ∀ old, signedEntry action = some old → ∀ window,
    config.windowForSize checks old.size = some window →
      NoCollision hashing (files.contents old.path) (contents old.path) window.toNat

section Sides

variable {files : OutputFiles} {hashes : ContentHashes} {signs : Path → Option (Reader UInt8)}
  {sending : SourceFiles} {contents : Path → List UInt8} {actions : Actions} {action : Action}
  {old entry : DirEntryWithMeta} {checks : Bool} {config : SignatureWindowConfig}

theorem replacementOldEntry_of_change
    (change : action.appliedChange = some (.modified old entry)) :
    replacementOldEntry action = some old := by
  cases action <;> cases change <;> rfl

theorem isFile_of_signed (signed : signedEntry action = some old) : old.isFile = true := by
  have ofCondition : ∀ (e1 e2 : DirEntryWithMeta),
      (if e1.isFile && e2.isFile && !e1.sameContents e2 then some e1 else none) = some old →
      old.isFile = true := by
    intro e1 e2 found
    split at found
    · next isDiff =>
      cases found
      rw [Bool.and_eq_true, Bool.and_eq_true] at isDiff
      exact isDiff.1.1
    · cases found
  unfold signedEntry at signed
  split at signed
  · exact ofCondition _ _ signed
  · exact ofCondition _ _ signed
  · cases signed

namespace DetailSides

variable (sides : DetailSides files hashes signs sending contents actions)
include sides

/-- The entries of an applied change name something below the base. -/
theorem canonical (mem : action ∈ actions) {change : Change}
    (applied : action.appliedChange = some change) (entry : DirEntryWithMeta)
    (inside : entry ∈ change.entries) : validateRelativePath entry.path = .ok () := by
  have acts : change ∈ action.changes := by
    cases action with
    | «local» change' =>
      cases applied
      exact List.mem_singleton_self _
    | resolvedLocal conflict change' =>
      cases applied
      simp [Action.changes]
    | _ => cases applied
  exact (validateActions_eq_ok.mp sides.validated action mem change acts entry
    inside).validateRelativePath

/-- The old file of a diff, which is at the path of the new one. -/
theorem old_of_diff (mem : action ∈ actions)
    (change : action.appliedChange = some (.modified old entry)) :
    old.path = entry.path :=
  sides.paths action mem _ change

theorem serves : Serves files hashes actions where
  granting := sides.granting
  validated := sides.validated
  sized action mem entry output := by
    have declared := (sides.newFiles action mem entry output).1
    have short := (sides.short entry.path).2
    have size := declared.1
    omega
  sources action mem applied entry output old replaced := by
    cases classified action with
    | nothing applied' => rw [applied'] at applied; cases applied
    | file _ applied' => rw [applied'] at applied; cases applied
    | diff old' entry' applied' served signed output' change collected =>
      rw [output] at output'
      cases output'
      rw [replacementOldEntry_of_change change] at replaced
      cases replaced
      have declared := (sides.oldFiles action mem old entry change (isFile_of_signed signed)).1
      rw [sides.old_of_diff mem change] at declared
      exact (verifyContents_eq_ok (sides.short entry.path).1).mpr declared

end DetailSides

/-! ## Signatures -/

/-- A signature of an old file, with the window for its size. -/
def Signed (files : OutputFiles) (hashing : Hashing) (checks : Bool)
    (config : SignatureWindowConfig) (old : DirEntryWithMeta) (signed : Path × Signature) : Prop :=
  signed.1 = old.path ∧ ∃ window plan, ∃ pos : 0 < window,
    (∃ word, config.windowForSize checks old.size = some word ∧ word.toNat = window) ∧
      window ≤ config.normalized.max.toNat ∧
      signed.2 = signature hashing ⟨files.contents old.path, plan⟩ window pos

/-- The signatures are those of the old files of the diffs, in the order of the actions. -/
theorem DetailSides.getSignatures (sides : DetailSides files hashes signs sending contents actions)
    (hashing : Hashing) (checks : Bool) (config : SignatureWindowConfig) :
    ∃ signatures, getSignaturesWithConfig hashing signs checks config actions = .ok signatures ∧
      List.Forall₂ (Signed files hashing checks config) (actions.filterMap signedEntry)
        signatures := by
  unfold getSignaturesWithConfig
  rw [sides.validated]
  refine exists_mapM_ok fun old mem => ?_
  obtain ⟨action, inside, signed⟩ := List.mem_filterMap.mp mem
  have isFile := isFile_of_signed signed
  cases classified action with
  | nothing applied served signed' => rw [signed'] at signed; cases signed
  | file entry applied served signed' => rw [signed'] at signed; cases signed
  | diff old' entry applied served signed' output change collected =>
    rw [signed'] at signed
    cases signed
    obtain ⟨declared, plan, opened⟩ := sides.oldFiles action inside old entry change isFile
    have valid := sides.canonical inside change old List.mem_cons_self
    have room : old.size.toNat + 1 < 2 ^ 64 := by
      have size := declared.1
      have short := (sides.short old.path).1
      omega
    obtain ⟨window, found, positive, value⟩ :=
      windowForSize_eq checks room config
    have pos : 0 < window.toNat := positive
    refine ⟨(old.path, signature hashing ⟨files.contents old.path, plan⟩ window.toNat pos), ?_,
      rfl, window.toNat, plan, pos, ⟨window, found, rfl⟩, ?_, rfl⟩
    · refine signFile_eq hashing signs checks config ?_ found pos
      unfold openSigned
      rw [valid]
      dsimp only
      rw [opened]
    · rw [value]
      exact Nat.min_le_right _ _

/-! ## Frames -/

/-- Frames that are the stream of the actions from an index on, and give each its new file. -/
structure Conveys (files : OutputFiles) (hashes : ContentHashes) (contents : Path → List UInt8)
    (actions : Actions) (from_ : Nat) (frames : List DetailFrame) : Prop where
  stream : frames ∈ detailStream files hashes from_ (actions.drop from_)
  inFile : ∀ frame ∈ frames, InFile frame.payload
  outputs : ∀ index action entry, actions[index]? = some action → from_ ≤ index →
    (applyDetailKind action).isSome → actionOutputEntry action = .ok entry →
    producedFor files actions frames index = contents entry.path ∧
      ∃ frame ∈ frames, frame.actionIndex.toNat = index ∧ IsEnd frame.payload

theorem drop_of_getElem? {index : Nat} (found : actions[index]? = some action) :
    actions.drop index = action :: actions.drop (index + 1) := by
  obtain ⟨inside, eq⟩ := List.getElem?_eq_some_iff.mp found
  rw [List.drop_eq_getElem_cons inside, eq]

theorem Conveys.nil (hashes : ContentHashes) {from_ : Nat} (atEnd : actions.length ≤ from_) :
    Conveys files hashes contents actions from_ [] := by
  refine ⟨?_, ?_, ?_⟩
  · rw [List.drop_eq_nil_of_le atEnd]
    exact Language.nil_mem_one
  · intro frame mem
    cases mem
  · intro index action entry found later
    obtain ⟨inside, -⟩ := List.getElem?_eq_some_iff.mp found
    omega

/-- An action without a detail has no frames. -/
theorem Conveys.skip {from_ : Nat} {frames : List DetailFrame}
    (conveys : Conveys files hashes contents actions (from_ + 1) frames)
    (here : actions[from_]? = some action) (applied : applyDetailKind action = none) :
    Conveys files hashes contents actions from_ frames := by
  refine ⟨?_, conveys.inFile, ?_⟩
  · rw [drop_of_getElem? here, detailStream_none applied]
    exact conveys.stream
  · intro index other entry found later detail output
    rcases Nat.eq_or_lt_of_le later with rfl | after
    · rw [here] at found
      cases found
      rw [applied] at detail
      cases detail
    · exact conveys.outputs index other entry found after detail output

/-- The group of an action goes before the others. -/
theorem Conveys.group {index : UInt32} {kind : ApplyDetailKind} {body : List DetailPayload}
    {frames : List DetailFrame} {from_ : Nat} (own : index.toNat = from_)
    (conveys : Conveys files hashes contents actions (from_ + 1) frames)
    (here : actions[from_]? = some action) (applied : applyDetailKind action = some kind)
    (output : actionOutputEntry action = .ok entry)
    (declared : Declared hashes entry (contents entry.path))
    (pieces : ∀ piece ∈ body, Piece kind piece) (inFile : ∀ piece ∈ body, InFile piece)
    (bytes : body.flatMap (produces (files.contents entry.path)) = contents entry.path) :
    Conveys files hashes contents actions from_ (groupOf index kind body ++ frames) := by
  subst own
  have old : oldFor files actions index.toNat = files.contents entry.path :=
    oldFor_eq here output
  have after := detailStream_index conveys.stream
  refine ⟨?_, ?_, ?_⟩
  · rw [drop_of_getElem? here, detailStream_some applied]
    refine Language.mem_mul.mpr ⟨_, groupOf_mem output pieces ?_, frames, conveys.stream, rfl⟩
    rw [bytes]
    exact declared
  · intro frame mem
    rcases List.mem_append.mp mem with inGroup | later
    · obtain ⟨payload, inside, rfl⟩ := List.mem_map.mp inGroup
      rcases List.mem_cons.mp inside with rfl | inside
      · cases kind <;> trivial
      · rcases List.mem_append.mp inside with piece | last
        · exact inFile payload piece
        · rw [List.mem_singleton.mp last]
          cases kind <;> trivial
    · exact conveys.inFile frame later
  · intro at_ other entry' found later detail output'
    rw [producedFor_append]
    rcases Nat.eq_or_lt_of_le later with rfl | behind
    · rw [here] at found
      cases found
      rw [output] at output'
      cases output'
      have none : producedFor files actions frames index.toNat = [] := by
        refine producedFor_none fun frame mem => ?_
        have := (after frame mem).1
        omega
      obtain ⟨frame, mem, own, isEnd⟩ := exists_end_groupOf index kind body
      refine ⟨?_, frame, List.mem_append_left _ mem, own, isEnd⟩
      rw [none, List.append_nil, producedFor_groupOf, old, bytes]
    · have none : producedFor files actions (groupOf index kind body) at_ = [] := by
        refine producedFor_none fun frame mem => ?_
        rw [actionIndex_groupOf mem]
        omega
      obtain ⟨given, frame, mem, own, isEnd⟩ :=
        conveys.outputs at_ other entry' found behind detail output'
      exact ⟨by rw [none]; exact given, frame, List.mem_append_right _ mem, own, isEnd⟩

/-! ## The producer -/

/-- The producer of the reversed actions between two groups. -/
def between (actions : Actions) (signatures : Signatures) (chunk index used : Nat) :
    DetailProducer :=
  ⟨reverse actions, signatures, chunk, index, used, [], none⟩

section Producer

variable {signatures : Signatures} {chunk index used : Nat}

/-- The loop at an action that is left. -/
theorem nextFrame_between (here : actions[index]? = some action) :
    nextFrame sending (between actions signatures chunk index used) =
      match sourceDetailKind action.flip with
      | none => nextFrame sending (between actions signatures chunk (index + 1) used)
      | some kind => beginDetailFrames sending (UInt32.ofNat index) kind
          (between actions signatures chunk (index + 1) used) := by
  have left : (reverse actions).drop index =
      action.flip :: (reverse actions).drop (index + 1) := by
    unfold reverse
    rw [← List.map_drop, ← List.map_drop, drop_of_getElem? here, List.map_cons]
  change nextDetail sending ((reverse actions).drop index) _ = _
  rw [left]
  unfold nextDetail
  change (match sourceDetailKind action.flip with
    | none => nextDetail sending ((reverse actions).drop (index + 1))
    | some kind => beginDetailFrames sending (UInt32.ofNat index) kind)
      (between actions signatures chunk (index + 1) used) = _
  cases sourceDetailKind action.flip with
  | none => rfl
  | some kind => rfl

theorem delivers_atEnd (atEnd : actions.length ≤ index) (none_left : signatures.length ≤ used) :
    (frameSource sending).Delivers (between actions signatures chunk index used) [] none := by
  refine .exhausted (t := between actions signatures chunk index used) ?_
  change nextDetail sending ((reverse actions).drop index) _ = _
  have nothing : (reverse actions).drop index = [] :=
    List.drop_eq_nil_of_le (by simpa [reverse] using atEnd)
  have past : (between actions signatures chunk index used).signatures[
      (between actions signatures chunk index used).signatureIndex]? = none :=
    List.getElem?_eq_none none_left
  rw [nothing]
  simp only [nextDetail, bind, Effect.bind, Effect.read, past]
  rfl

/-- A file that is sent whole. -/
theorem delivers_file (sides : DetailSides files hashes signs sending contents actions)
    (here : actions[index]? = some action) (output : actionOutputEntry action = .ok entry)
    (served : sourceDetailKind action.flip = some (.file entry.path)) (room : 0 < chunk)
    {frames : List DetailFrame}
    (rest : (frameSource sending).Delivers
      (between actions signatures chunk (index + 1) used) frames none) :
    ∃ body, (∀ piece ∈ body, Piece .file piece) ∧ (∀ piece ∈ body, InFile piece) ∧
      body.flatMap (produces (files.contents entry.path)) = contents entry.path ∧
      (frameSource sending).Delivers (between actions signatures chunk index used)
        (groupOf (UInt32.ofNat index) .file body ++ frames) none := by
  have mem : action ∈ actions := List.mem_of_getElem? here
  obtain ⟨-, plan, opened⟩ := sides.newFiles action mem entry output
  have valid : validateRelativePath entry.path = .ok () := by
    obtain ⟨change, acts, added, -⟩ := actionOutputEntry_eq_ok output
    have inside : entry ∈ change.entries := by
      rcases added with rfl | ⟨old, rfl⟩
      · exact List.mem_singleton_self _
      · exact .tail _ (List.mem_singleton_self _)
    exact (validateActions_eq_ok.mp sides.validated action mem change acts entry
      inside).validateRelativePath
  obtain ⟨pieces, flat, delivers⟩ :=
    delivers_pieces (between actions signatures chunk (index + 1) used) (UInt32.ofNat index)
      (sides.readable entry.path) rfl room rest _ ⟨contents entry.path, plan⟩ rfl
  have begun : nextFrame sending (between actions signatures chunk index used) =
      (.ok (some ⟨UInt32.ofNat index, begins .file⟩),
        { between actions signatures chunk (index + 1) used with
          state := some (.file (UInt32.ofNat index) entry.path ⟨contents entry.path, plan⟩
            (contents entry.path).length) }) := by
    rw [nextFrame_between here, served]
    simp only [beginDetailFrames, sourcePath, valid, openSource, opened, bind, Effect.bind,
      Effect.check, Effect.read, Effect.write]
    rfl
  refine ⟨pieces.map .fileBytes, ?_, ?_, ?_, .yields begun delivers⟩
  · intro piece mem
    obtain ⟨bytes, -, rfl⟩ := List.mem_map.mp mem
    trivial
  · intro piece mem
    obtain ⟨bytes, -, rfl⟩ := List.mem_map.mp mem
    trivial
  · rw [flatMap_fileBytes]
    exact flat

/-- A file that is sent as a diff against the signature of the old one. -/
theorem delivers_diff (sides : DetailSides files hashes signs sending contents actions)
    (here : actions[index]? = some action) (output : actionOutputEntry action = .ok entry)
    (change : action.appliedChange = some (.modified old entry))
    (signed : signedEntry action = some old)
    (served : sourceDetailKind action.flip = some (.diff old.path))
    (small : config.normalized.max.toNat ≤ maxSignatureWindow)
    (distinct : Distinct files sending.hashing contents checks config actions)
    {next : Path × Signature} (found : signatures[used]? = some next)
    (ofOld : Signed files sending.hashing checks config old next) {frames : List DetailFrame}
    (rest : (frameSource sending).Delivers
      (between actions signatures chunk (index + 1) (used + 1)) frames none) :
    ∃ body, (∀ piece ∈ body, Piece .diff piece) ∧ (∀ piece ∈ body, InFile piece) ∧
      body.flatMap (produces (files.contents entry.path)) = contents entry.path ∧
      (frameSource sending).Delivers (between actions signatures chunk index used)
        (groupOf (UInt32.ofNat index) .diff body ++ frames) none := by
  have mem : action ∈ actions := List.mem_of_getElem? here
  have same := sides.old_of_diff mem change
  have valid := sides.canonical mem change old List.mem_cons_self
  obtain ⟨-, plan, opened⟩ := sides.newFiles action mem entry output
  obtain ⟨path, sig⟩ := next
  obtain ⟨path_eq, window, planOld, pos, ⟨word, isWindow, word_eq⟩, most, sig_eq⟩ := ofOld
  dsimp only at path_eq sig_eq
  subst path_eq
  have collide := distinct action mem old signed word isWindow
  rw [word_eq] at collide
  obtain ⟨ops, sent, bytes, bounded⟩ := streamDiffFrames_spec pos (most.trans small) collide
    planOld plan (UInt32.ofNat index) chunk
  obtain ⟨body, body_eq, moves⟩ := coalesce_eq_append_end window none ops
  have described := describes_coalesce (files.contents old.path) window none ops
  rw [body_eq, describes_append] at described
  have ofBody : describes (files.contents old.path) body = contents old.path := by
    simpa [describes, flushCopy, bytes] using described
  have limited : ∀ payload ∈ body, payload.Diff (files.contents old.path) window (max chunk 1) := by
    intro payload mem
    refine @coalesce_bounded (files.contents old.path) window (max chunk 1) none ops ?_ bounded
      payload ?_
    · intro payload mem
      cases mem
    · rw [body_eq]
      exact List.mem_append_left _ mem
  have received := delivers_received (between actions signatures chunk (index + 1) (used + 1))
    (UInt32.ofNat index) rfl rest body moves
  have accepted : validateSignatureWindow sig.window = .ok () := by
    rw [sig_eq]
    exact if_neg (by simp only [signature]; have := most.trans small; omega)
  have expected : expectSignature (between actions signatures chunk (index + 1) used) old.path =
      .ok sig := by
    unfold expectSignature between
    dsimp only
    rw [found]
    simp [accepted]
  have thread : diffFrames sending (UInt32.ofNat index) old.path sig chunk =
      ((body ++ [DetailPayload.diffEnd]).map (DetailFrame.mk (UInt32.ofNat index))).map .ok := by
    unfold diffFrames openSource
    rw [same, opened]
    dsimp only
    rw [← same, sig_eq, sent, body_eq]
  have begun : nextFrame sending (between actions signatures chunk index used) =
      (.ok (some ⟨UInt32.ofNat index, begins .diff⟩),
        { between actions signatures chunk (index + 1) (used + 1) with
          state := some (.diff (((body ++ [DetailPayload.diffEnd]).map
            (DetailFrame.mk (UInt32.ofNat index))).map .ok)) }) := by
    rw [nextFrame_between here, served, ← thread]
    simp only [beginDetailFrames, sourcePath, valid, expected, bind, Effect.bind,
      Effect.check, Effect.read, Effect.write]
    rfl
  refine ⟨body, fun piece mem => piece_of_moves (moves piece mem), ?_, ?_,
    .yields begun received⟩
  · intro piece mem
    have inside := limited piece mem
    have short := (sides.short old.path).1
    cases piece with
    | diffCopy offset len =>
      have offset_le : offset ≤ (files.contents old.path).length := inside.1
      change offset < 2 ^ 63
      omega
    | _ => trivial
  · rw [flatMap_moves _ moves, ← same]
    exact ofBody

/-- Each frame has room for the index of its action. -/
def Indexed (actions : Actions) : Prop :=
  ∀ index action, actions[index]? = some action → (applyDetailKind action).isSome →
    index < 2 ^ 32

/-- From any action on, the producer yields the stream of the actions that are left, and takes all
signatures that are left. -/
theorem delivers_from (sides : DetailSides files hashes signs sending contents actions)
    (indexed : Indexed actions) (small : config.normalized.max.toNat ≤ maxSignatureWindow)
    (distinct : Distinct files sending.hashing contents checks config actions) (room : 0 < chunk)
    (later : Actions) (index used : Nat) (left : actions.drop index = later)
    (signed : List.Forall₂ (Signed files sending.hashing checks config)
      (later.filterMap signedEntry) (signatures.drop used)) :
    ∃ frames, (frameSource sending).Delivers (between actions signatures chunk index used)
        frames none ∧
      Conveys files hashes contents actions index frames := by
  induction later generalizing index used with
  | nil =>
    have none_left : signatures.drop used = [] := List.forall₂_nil_left_iff.mp signed
    exact ⟨[], delivers_atEnd (List.drop_eq_nil_iff.mp left) (List.drop_eq_nil_iff.mp none_left),
      .nil hashes (List.drop_eq_nil_iff.mp left)⟩
  | cons action later ih =>
    have here : actions[index]? = some action := by
      rw [← List.head?_drop, left]
      rfl
    have rest : actions.drop (index + 1) = later := by
      have both := drop_of_getElem? here
      rw [left] at both
      exact (List.cons.inj both).2.symm
    have word : (applyDetailKind action).isSome → (UInt32.ofNat index).toNat = index := by
      intro detail
      exact UInt32.toNat_ofNat_of_lt' (indexed index action here detail)
    cases classified action with
    | nothing applied served signed' collected =>
      rw [List.filterMap_cons_none signed'] at signed
      obtain ⟨frames, delivers, conveys⟩ := ih (index + 1) used rest signed
      refine ⟨frames, delivers_congr ?_ delivers, conveys.skip here applied⟩
      rw [nextFrame_between here, served]
    | file entry applied served signed' output collected =>
      rw [List.filterMap_cons_none signed'] at signed
      obtain ⟨frames, delivers, conveys⟩ := ih (index + 1) used rest signed
      obtain ⟨body, pieces, inFile, bytes, delivers'⟩ :=
        delivers_file sides here output served room delivers
      have own := word (by rw [applied]; rfl)
      exact ⟨_, delivers', conveys.group own here applied output
        (sides.newFiles action (List.mem_of_getElem? here) entry output).1 pieces inFile bytes⟩
    | diff old entry applied served signed' output change collected =>
      rw [List.filterMap_cons_some signed'] at signed
      obtain ⟨next, others, ofOld, signed, next_eq⟩ := List.forall₂_cons_left_iff.mp signed
      have found : signatures[used]? = some next := by
        rw [← List.head?_drop, next_eq]
        rfl
      have others_eq : signatures.drop (used + 1) = others := by
        rw [← List.drop_drop, next_eq]
        rfl
      rw [← others_eq] at signed
      obtain ⟨frames, delivers, conveys⟩ := ih (index + 1) (used + 1) rest signed
      obtain ⟨body, pieces, inFile, bytes, delivers'⟩ :=
        delivers_diff sides here output change signed' served small distinct found ofOld delivers
      have own := word (by rw [applied]; rfl)
      exact ⟨_, delivers', conveys.group own here applied output
        (sides.newFiles action (List.mem_of_getElem? here) entry output).1 pieces inFile bytes⟩

end Producer

/-! ## Details in one piece -/

/-- A detail that gives the new file of an action: its contents, or a delta that rebuilds it. -/
def Details (files : OutputFiles) (contents : Path → List UInt8) (action : Action) :
    ChangeDetails → Prop
  | .contents bytes => ∃ entry, actionOutputEntry action = .ok entry ∧ bytes = contents entry.path
  | .diff delta => ∃ entry, actionOutputEntry action = .ok entry ∧ ∃ window, ∀ plan,
    restoreSeek (files.contents entry.path) plan window delta = .ok (contents entry.path)

/-- The new file of an action can be read where it is sent from. -/
theorem DetailSides.openNew (sides : DetailSides files hashes signs sending contents actions)
    (mem : action ∈ actions) (output : actionOutputEntry action = .ok entry) :
    sourcePath entry.path = .ok entry.path ∧ ∃ plan, openSource sending entry.path =
      .ok (⟨contents entry.path, plan⟩, (contents entry.path).length) := by
  obtain ⟨-, plan, opened⟩ := sides.newFiles action mem entry output
  have valid : validateRelativePath entry.path = .ok () := by
    obtain ⟨change, acts, added, -⟩ := actionOutputEntry_eq_ok output
    have inside : entry ∈ change.entries := by
      rcases added with rfl | ⟨old, rfl⟩
      · exact List.mem_singleton_self _
      · exact .tail _ (List.mem_singleton_self _)
    exact (validateActions_eq_ok.mp sides.validated action mem change acts entry
      inside).validateRelativePath
  refine ⟨?_, plan, ?_⟩
  · unfold sourcePath
    rw [valid]
  · unfold openSource
    rw [opened]

theorem DetailSides.readContents (sides : DetailSides files hashes signs sending contents actions)
    (mem : action ∈ actions) (output : actionOutputEntry action = .ok entry) :
    readContents sending entry.path = .ok (contents entry.path) := by
  obtain ⟨path, plan, opened⟩ := sides.openNew mem output
  simp only [Detail.readContents, path, opened, bind, Except.bind]
  rfl

/-- The delta of a diff. -/
theorem DetailSides.collectDiff (sides : DetailSides files hashes signs sending contents actions)
    (small : config.normalized.max.toNat ≤ maxSignatureWindow)
    (distinct : Distinct files sending.hashing contents checks config actions)
    (mem : action ∈ actions) (output : actionOutputEntry action = .ok entry)
    (change : action.appliedChange = some (.modified old entry))
    (signed : signedEntry action = some old) {next : Path × Signature} (later : Signatures)
    (ofOld : Signed files sending.hashing checks config old next) :
    ∃ delta, Details files contents action (.diff delta) ∧ (do
      let path ← sourcePath old.path
      let opened ← openSource sending path
      let next ← nextSignature (next :: later) old.path
      let delta ← compareWith sending next.1 opened.1
      pure (some (ChangeDetails.diff delta), next.2)) =
        Except.ok (some (ChangeDetails.diff delta), later) := by
  have same := sides.old_of_diff mem change
  obtain ⟨isPath, plan, opened⟩ := sides.openNew mem output
  obtain ⟨path, sig⟩ := next
  obtain ⟨path_eq, window, planOld, pos, ⟨word, isWindow, word_eq⟩, most, sig_eq⟩ := ofOld
  dsimp only at path_eq sig_eq
  subst path_eq sig_eq
  have collide := distinct action mem old signed word isWindow
  rw [word_eq, same] at collide
  have blockLen : (List.replicate
      (signature sending.hashing ⟨files.contents entry.path, planOld⟩ window pos).window
      (0 : UInt8)).length =
        (signature sending.hashing ⟨files.contents entry.path, planOld⟩ window pos).window :=
    List.length_replicate
  have restores := fun planSeek =>
    restoreSeek_compare (sound_signature pos planOld) collide pos blockLen plan planSeek
  obtain ⟨delta, compared, -⟩ := restores []
  rw [← same] at compared
  refine ⟨delta, ⟨entry, output, window, fun planSeek => ?_⟩, ?_⟩
  · obtain ⟨delta', compared', restored⟩ := restores planSeek
    rw [← same, compared] at compared'
    cases compared'
    exact restored
  · have accepted : validateSignatureWindow
        (signature sending.hashing ⟨files.contents old.path, planOld⟩ window pos).window =
          .ok () :=
      if_neg (by simp only [signature]; have := most.trans small; omega)
    have compared' : compareWith sending
        (signature sending.hashing ⟨files.contents old.path, planOld⟩ window pos)
        ⟨contents old.path, plan⟩ = .ok delta := by
      unfold compareWith
      rw [compared]
    rw [← same] at isPath opened
    simp only [isPath, opened, nextSignature, accepted, compared', bind, Except.bind, ne_eq,
      not_true_eq_false, if_false]
    rfl

/-- Collecting takes all signatures that are left, and gives a detail for each action with one. -/
theorem DetailSides.collects (sides : DetailSides files hashes signs sending contents actions)
    (small : config.normalized.max.toNat ≤ maxSignatureWindow)
    (distinct : Distinct files sending.hashing contents checks config actions)
    (later : Actions) (inside : later ⊆ actions) (signatures : Signatures)
    (signed : List.Forall₂ (Signed files sending.hashing checks config)
      (later.filterMap signedEntry) signatures) :
    ∃ details, detailedChangesFrom sending signatures (reverse later) = .ok details ∧
      List.Forall₂ (Details files contents)
        (later.filter fun action => (applyDetailKind action).isSome) details := by
  induction later generalizing signatures with
  | nil =>
    cases List.forall₂_nil_left_iff.mp signed
    exact ⟨[], rfl, .nil⟩
  | cons action later ih =>
    have mem : action ∈ actions := inside List.mem_cons_self
    have rest : later ⊆ actions := fun other later => inside (List.mem_cons_of_mem _ later)
    have step := detailedChangesFrom_cons sending signatures action.flip (reverse later)
    change detailedChangesFrom sending signatures (reverse (action :: later)) = _ at step
    cases classified action with
    | nothing applied served signed' collected =>
      rw [List.filterMap_cons_none signed'] at signed
      obtain ⟨details, collects, all⟩ := ih rest signatures signed
      refine ⟨details, ?_, ?_⟩
      · rw [step, collected]
        simp only [bind, Except.bind, collects]
        rfl
      · rw [List.filter_cons_of_neg (by simp [applied])]
        exact all
    | file entry applied served signed' output collected =>
      rw [List.filterMap_cons_none signed'] at signed
      obtain ⟨details, collects, all⟩ := ih rest signatures signed
      refine ⟨.contents (contents entry.path) :: details, ?_, ?_⟩
      · rw [step, collected]
        simp only [sides.readContents mem output, bind, Except.bind, pure, Except.pure, collects]
        rfl
      · rw [List.filter_cons_of_pos (by simp [applied])]
        exact .cons ⟨entry, output, rfl⟩ all
    | diff old entry applied served signed' output change collected =>
      rw [List.filterMap_cons_some signed'] at signed
      obtain ⟨next, others, ofOld, signedRest, rfl⟩ := List.forall₂_cons_left_iff.mp signed
      obtain ⟨details, collects, all⟩ := ih rest others signedRest
      obtain ⟨delta, gives, collectsHere⟩ :=
        sides.collectDiff small distinct mem output change signed' others ofOld
      refine ⟨.diff delta :: details, ?_, ?_⟩
      · rw [step, collected, collectsHere]
        simp only [bind, Except.bind, collects]
        rfl
      · rw [List.filter_cons_of_pos (by simp [applied])]
        exact .cons gives all

end Sides

end Duet.Detail
