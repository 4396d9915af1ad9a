import Duet.DeltaRoundTrip
import Duet.Sync.DetailOutputs
import Duet.Sync.FrameGrammar

/-!
# The applier accepts the grammar

In every state the applier expects the words of one language: the streams of the actions
that are left, or the rest of an open group and then these. Each frame takes the language
to its quotient or is refused, and after a refusal nothing is accepted again.
-/

namespace Duet.Detail

open Lib

/-! ## Data of an action with a detail -/

section Data

variable {hashes : ContentHashes} {action : Action} {entry : DirEntryWithMeta}
  {kind : ApplyDetailKind} {bytes : List UInt8}

/-- Contents that fit into the counter are verified exactly when they are declared. -/
theorem verifyContents_eq_ok (short : bytes.length < 2 ^ 63) :
    verifyContents hashes entry bytes = .ok () ↔ Declared hashes entry bytes := by
  have count : saturatingAdd 0 bytes.length = bytes.length := by
    unfold saturatingAdd
    omega
  unfold verifyContents Declared
  simp only [count]
  by_cases size : bytes.length = entry.size.toNat
  · rw [if_neg (not_not.mpr size)]
    cases digest : entry.digest with
    | some expected =>
      by_cases same : hashes.blake2b bytes = expected.bytes
      · simp [size, same]
      · have apart : (⟨hashes.blake2b bytes⟩ : ContentDigest) ≠ expected :=
          fun eq => same (congrArg ContentDigest.bytes eq)
        simp [apart, same]
    | none =>
      by_cases same : hashes.adler32 bytes = entry.checksum
      · simp [size, same]
      · simp [same]
  · rw [if_pos size]
    simp [size]

theorem wrap_eq_ok {check : Except ContentMismatch Unit} :
    ContentMismatch.wrap check = .ok () ↔ check = .ok () := by
  cases check <;> simp [ContentMismatch.wrap]

/-- An action with a detail has an output. -/
theorem exists_outputEntry (detail : applyDetailKind action = some kind) :
    ∃ entry, actionOutputEntry action = .ok entry := by
  cases action with
  | «local» change =>
    obtain ⟨entry, -, output⟩ := changeOutputEntry_of_kind detail
    exact ⟨entry, by rw [actionOutputEntry, output, withMessage]⟩
  | resolvedLocal _ change =>
    obtain ⟨entry, -, output⟩ := changeOutputEntry_of_kind detail
    exact ⟨entry, by rw [actionOutputEntry, output, withMessage]⟩
  | _ => cases detail

/-- The change that an output belongs to. -/
theorem actionOutputEntry_eq_ok (output : actionOutputEntry action = .ok entry) :
    ∃ change ∈ action.changes, (change = .added entry ∨ ∃ old, change = .modified old entry) ∧
      ((∃ conflict, action = .resolvedLocal conflict change) ∨ action = .local change) := by
  have ofChange : ∀ change : Change,
      withMessage DetailError.noOutputEntry (changeOutputEntry change) = .ok entry →
      change = .added entry ∨ ∃ old, change = .modified old entry := by
    intro change found
    cases output : changeOutputEntry change with
    | ok entry' =>
      rw [output] at found
      cases found
      exact changeOutputEntry_eq_ok output
    | error message =>
      rw [output] at found
      cases found
  cases action with
  | «local» change =>
    exact ⟨change, List.mem_singleton_self _, ofChange change output, Or.inr rfl⟩
  | resolvedLocal conflict change =>
    exact ⟨change, by simp [Action.changes], ofChange change output, Or.inl ⟨conflict, rfl⟩⟩
  | _ => cases output

theorem finishedEntry_of_output (output : actionOutputEntry action = .ok entry) :
    finishedEntry action = .ok entry := by
  obtain ⟨change, -, rfl | ⟨old, rfl⟩, ⟨conflict, rfl⟩ | rfl⟩ := actionOutputEntry_eq_ok output
  all_goals rfl

theorem detailFilename_of_output (output : actionOutputEntry action = .ok entry) :
    detailFilename action = match validateRelativePath entry.path with
      | .ok () => .ok entry.path
      | .error cause => .error (.invalidPath cause) := by
  obtain ⟨change, -, rfl | ⟨old, rfl⟩, ⟨conflict, rfl⟩ | rfl⟩ := actionOutputEntry_eq_ok output
  all_goals rfl

/-- A diff has an old entry. -/
theorem exists_diffOldEntry (detail : applyDetailKind action = some .diff) :
    ∃ old, replacementOldEntry action = some old := by
  have ofChange : ∀ change : Change, applyDetailKindForChange change = some .diff →
      ∃ old new, change = .modified old new := by
    intro change isDiff
    cases change with
    | removed old => cases isDiff
    | added new =>
      by_cases isFile : new.isFile = true
      · simp [applyDetailKindForChange, isFile] at isDiff
      · simp [applyDetailKindForChange, isFile] at isDiff
    | modified old new => exact ⟨old, new, rfl⟩
  cases action with
  | «local» change =>
    obtain ⟨old, new, rfl⟩ := ofChange change detail
    exact ⟨old, rfl⟩
  | resolvedLocal _ change =>
    obtain ⟨old, new, rfl⟩ := ofChange change detail
    exact ⟨old, rfl⟩
  | _ => cases detail

end Data

/-- What the applier relies on to accept a stream: no call is refused, the actions were
validated, no output is longer than a file can be, and the old files are what their
entries say. -/
structure Serves (files : OutputFiles) (hashes : ContentHashes) (actions : Actions) : Prop where
  granting : files.Granting
  validated : validateActions actions = .ok ()
  sized : ∀ action ∈ actions, ∀ entry, actionOutputEntry action = .ok entry →
    entry.size.toNat < 2 ^ 63
  sources : ∀ action ∈ actions, applyDetailKind action = some .diff →
    ∀ entry, actionOutputEntry action = .ok entry → ∀ old, replacementOldEntry action = some old →
      verifyContents hashes old (files.contents entry.path) = .ok ()

/-- A copy starts where a file has positions. -/
def InFile : DetailPayload → Prop
  | .diffCopy offset _ => offset < 2 ^ 63
  | _ => True

section Steps

variable {files : OutputFiles} {hashes : ContentHashes} {applier : DetailApplier}
  {L : Language DetailFrame} {frame : DetailFrame}

/-- The language of the frames that may still come. -/
inductive Expects (files : OutputFiles) (hashes : ContentHashes) (applier : DetailApplier) :
    Language DetailFrame → Prop where
  | idle {index : Nat} {later : Actions}
      (current : applier.actionIndex = index) (idle : applier.state = none)
      (left : applier.actions.drop index = later) :
      Expects files hashes applier (detailStream files hashes index later)
  | file {index : Nat} {output : TempOutput} {verifier : StreamedOutputVerifier}
      {action : Action} {later : Actions} {entry : DirEntryWithMeta}
      (current : applier.actionIndex = index)
      (started : applier.state = some (.file index output verifier))
      (left : applier.actions.drop index = action :: later)
      (outputEntry : actionOutputEntry action = .ok entry)
      (written : output.file = verifier.fed) (short : verifier.fed.length < 2 ^ 63) :
      Expects files hashes applier
        (openGroup hashes .file index (files.contents entry.path) entry verifier.fed *
          detailStream files hashes (index + 1) later)
  | diff {index : Nat} {diff : DiffState} {action : Action} {later : Actions}
      {entry : DirEntryWithMeta} {path : Path}
      (current : applier.actionIndex = index)
      (started : applier.state = some (.diff index path diff))
      (left : applier.actions.drop index = action :: later)
      (outputEntry : actionOutputEntry action = .ok entry)
      (written : diff.Written (files.contents entry.path) diff.verifier.fed)
      (short : diff.verifier.fed.length < 2 ^ 63) :
      Expects files hashes applier
        (openGroup hashes .diff index (files.contents entry.path) entry diff.verifier.fed *
          detailStream files hashes (index + 1) later)

/-- The state between two frames of a stream for these actions. -/
structure Between (files : OutputFiles) (hashes : ContentHashes) (actions : Actions)
    (applier : DetailApplier) (L : Language DetailFrame) : Prop where
  fresh : applier.failed = none
  actions : applier.actions = actions
  sealable : applier.Sealable
  expects : Expects files hashes applier L

/-! ## Passing and ending -/

/-- The actions that are passed have no detail, or else their group is missing. -/
theorem ends_advanceActions (files : OutputFiles) (hashes : ContentHashes) (left : Nat)
    (rest : Actions) (applier : DetailApplier) :
    (advanceActions left rest).Ends
      (fun _ next => next = { applier with actionIndex := applier.actionIndex + left } ∧
        detailStream files hashes applier.actionIndex rest =
          detailStream files hashes (applier.actionIndex + left) (rest.drop left))
      (fun _ _ => ∀ frames ∈ detailStream files hashes applier.actionIndex rest,
        ∃ frame later, frames = frame :: later ∧
          frame.actionIndex.toNat < applier.actionIndex + left) applier := by
  induction left generalizing rest applier with
  | zero => exact ⟨rfl, rfl⟩
  | succ left ih =>
    have index : applier.actionIndex + 1 + left = applier.actionIndex + (left + 1) := by omega
    unfold advanceActions
    rw [Effect.ends_bind, Effect.ends_read]
    cases rest with
    | nil =>
      rw [if_neg (by simp), Effect.ends_bind, Effect.ends_write]
      refine (ih [] _).mono ?_ ?_
      · rintro _ next ⟨same, -⟩
        dsimp only at same
        rw [index] at same
        exact ⟨same, rfl⟩
      · intro _ _ missing frames inside
        obtain ⟨frame, later, eq, before⟩ := missing frames inside
        exact ⟨frame, later, eq, by dsimp only at before; omega⟩
    | cons action rest =>
      cases detail : applyDetailKind action with
      | some kind =>
        rw [if_pos (by simp [detail])]
        intro frames inside
        obtain ⟨frame, later, eq, here, -⟩ := detailStream_missing detail inside
        exact ⟨frame, later, eq, by omega⟩
      | none =>
        rw [if_neg (by simp [detail]), Effect.ends_bind, Effect.ends_write,
          detailStream_none detail]
        refine (ih rest _).mono ?_ ?_
        · rintro _ next ⟨same, stream⟩
          dsimp only at same stream
          rw [index] at same stream
          exact ⟨same, stream⟩
        · intro _ _ missing frames inside
          obtain ⟨frame, later, eq, before⟩ := missing frames inside
          exact ⟨frame, later, eq, by dsimp only at before; omega⟩

/-- An output ends when its contents are the declared ones. -/
theorem ends_finishOutput {action : Action} {output : TempOutput}
    {verifier : StreamedOutputVerifier} {entry : DirEntryWithMeta} (sealable : applier.Sealable)
    (finished : finishedEntry action = .ok entry) (short : verifier.fed.length < 2 ^ 63) :
    (finishOutput files hashes applier.actionIndex action output verifier).Ends
      (fun _ next => next.progress =
          (applier.actions, applier.actionIndex + 1, none, applier.failed) ∧
        next.Sealable ∧ Declared hashes entry verifier.fed)
      (fun _ _ => files.Granting → ¬ Declared hashes entry verifier.fed) applier := by
  unfold finishOutput applierUpdate
  simp only [Effect.ends_bind, Effect.ends_read, Effect.ends_write, finished,
    Effect.ends_check_ok]
  cases verified : verifyContents hashes entry verifier.fed with
  | error mismatch =>
    intro _ declared
    rw [(verifyContents_eq_ok short).mpr declared] at verified
    cases verified
  | ok done =>
    have declared := (verifyContents_eq_ok short).mp verified
    simp only [ContentMismatch.wrap, Effect.ends_check_ok, Effect.ends_bind]
    refine (quiet_prepareOutput output action entry _).mono ?_ ?_
    · rintro prepared next ⟨progress, outputs⟩
      obtain ⟨actions, index, idle, fresh⟩ := DetailApplier.progress_eq_iff.mp progress
      dsimp only at index
      have later : next.Sealable := sealable.advance outputs index.ge
      have pushed := later.push prepared
      rw [index] at pushed
      rw [Effect.ends_bind, Effect.ends_read, Effect.ends_bind, Effect.ends_write]
      split
      · refine pushed.ends_sealOutputs.mono ?_ ?_
        · rintro _ last ⟨progress', sealable'⟩
          refine ⟨progress'.trans ?_, sealable', declared⟩
          simp only [DetailApplier.progress, actions, idle, fresh]
        · exact fun _ _ refused granting => absurd granting refused
      · refine ⟨?_, pushed, declared⟩
        simp only [DetailApplier.progress, actions, idle, fresh]
    · exact fun _ _ refused granting => absurd granting refused

/-! ## Frames -/

variable {actions : Actions} {index : Nat} {action : Action} {later : Actions}
  {entry : DirEntryWithMeta}

/-- A step that takes the language to its quotient by the frame, or refuses the frame. -/
def Reads (files : OutputFiles) (hashes : ContentHashes) (actions : Actions) (frame : DetailFrame)
    (L : Language DetailFrame) (m : Applying Unit) (applier : DetailApplier) : Prop :=
  m.Ends (fun _ next => Between files hashes actions next (L.leftQuotient [frame]))
    (fun _ _ => Serves files hashes actions ∧ InFile frame.payload → Refuses L frame) applier

theorem reads_fail (refuses : Refuses L frame) (error : DetailError) :
    Reads files hashes actions frame L (Effect.fail error) applier :=
  fun _ => refuses

/-- A step before, which keeps what is finished, does not matter. -/
theorem Reads.bind {α : Type} {m : Applying α} {f : α → Applying Unit}
    (first : m.Ends (fun _ next => next.progress = applier.progress ∧ next.Sealable)
      (fun _ _ => ¬ files.Granting) applier)
    (rest : ∀ a next, next.progress = applier.progress → next.Sealable →
      Reads files hashes actions frame L (f a) next) :
    Reads files hashes actions frame L (m >>= f) applier := by
  unfold Reads
  rw [Effect.ends_bind]
  refine first.mono (fun a next keeps => rest a next keeps.1 keeps.2) ?_
  exact fun _ _ refused serves => absurd serves.1.granting refused

/-- A check that succeeds. -/
theorem reads_check {α : Type} {x : Except DetailError α} {a : α} {f : α → Applying Unit}
    (ok : x = .ok a) (rest : Reads files hashes actions frame L (f a) applier) :
    Reads files hashes actions frame L (Effect.check x >>= f) applier := by
  rw [ok]
  exact rest

/-- The output in progress is replaced. -/
theorem Between.put {next : DetailApplier} {st : ApplyState} (fresh : applier.failed = none)
    (same : applier.actions = actions) (progress : next.progress = applier.progress)
    (sealable : next.Sealable) (expects : Expects files hashes { next with state := some st } L) :
    Between files hashes actions { next with state := some st } L := by
  obtain ⟨actions', -, -, fresh'⟩ := DetailApplier.progress_eq_iff.mp progress
  exact ⟨fresh'.trans fresh, actions'.trans same,
    ⟨sealable.distinct, sealable.behind, sealable.free, sealable.ahead⟩, expects⟩

/-- A language that begins with the rest of a group. -/
theorem quotient_group {kind : ApplyDetailKind} {old written : List UInt8}
    (S : Language DetailFrame) :
    (openGroup hashes kind index old entry written * S).leftQuotient [frame] =
      (openGroup hashes kind index old entry written).leftQuotient [frame] * S :=
  leftQuotient_mul nil_notMem_openGroup S frame

/-- A frame of another action does not go on with the group. -/
theorem refuses_other {kind : ApplyDetailKind} {old written : List UInt8}
    {S : Language DetailFrame} (other : frame.actionIndex.toNat ≠ index) :
    Refuses (openGroup hashes kind index old entry written * S) frame :=
  Refuses.mul nil_notMem_openGroup (fun _ inside => other (openGroup_cons inside).1) S

/-- The end of a group, whose contents are verified and batched. -/
theorem reads_finishOutput {kind : ApplyDetailKind} {old : List UInt8} {output : TempOutput}
    {verifier : StreamedOutputVerifier} (fresh : applier.failed = none)
    (same : applier.actions = actions) (sealable : applier.Sealable)
    (current : applier.actionIndex = index) (left : applier.actions.drop index = action :: later)
    (outputEntry : actionOutputEntry action = .ok entry) (short : verifier.fed.length < 2 ^ 63)
    (here : frame.actionIndex.toNat = index) (last : frame.payload = ends kind) :
    Reads files hashes actions frame
      (openGroup hashes kind index old entry verifier.fed *
        detailStream files hashes (index + 1) later)
      (finishOutput files hashes index action output verifier) applier := by
  subst current
  refine (ends_finishOutput sealable (finishedEntry_of_output outputEntry) short).mono ?_ ?_
  · rintro _ next ⟨progress, sealable', declared⟩
    obtain ⟨actions', current', idle, fresh'⟩ := DetailApplier.progress_eq_iff.mp progress
    rw [quotient_group, openGroup_ends here last declared, one_mul]
    refine ⟨fresh'.trans fresh, actions'.trans same, sealable', .idle current' idle ?_⟩
    rw [actions', ← List.drop_drop, left]
    rfl
  · rintro _ _ refused ⟨serves, -⟩
    refine Refuses.mul nil_notMem_openGroup (fun _ inside => ?_) _
    rcases (openGroup_cons inside).2 with piece | ⟨-, declared⟩
    · rw [last] at piece
      exact not_piece_ends piece
    · exact refused serves.granting declared

/-- A payload that neither adds to the group nor ends it. -/
theorem refuses_payload {kind : ApplyDetailKind} {old written : List UInt8}
    {S : Language DetailFrame} (noPiece : ¬ Piece kind frame.payload)
    (noEnd : frame.payload ≠ ends kind) :
    Refuses (openGroup hashes kind index old entry written * S) frame := by
  refine Refuses.mul nil_notMem_openGroup (fun _ inside => ?_) S
  rcases (openGroup_cons inside).2 with piece | ⟨last, -⟩
  · exact noPiece piece
  · exact noEnd last

/-- A piece that would make the output longer than it is declared. -/
theorem refuses_long {kind : ApplyDetailKind} {old written : List UInt8}
    {S : Language DetailFrame} (here : frame.actionIndex.toNat = index)
    (piece : Piece kind frame.payload)
    (long : entry.size.toNat < (written ++ produces old frame.payload).length) :
    Refuses (openGroup hashes kind index old entry written * S) frame := by
  refine Refuses.mul nil_notMem_openGroup (fun frames inside => ?_) S
  have quotient : frames ∈ (openGroup hashes kind index old entry written).leftQuotient [frame] :=
    inside
  rw [openGroup_piece here piece] at quotient
  exact absurd (openGroup_length quotient) (not_le.mpr long)

/-- The action that an open group belongs to is one of the validated ones. -/
theorem mem_of_drop (same : applier.actions = actions)
    (left : applier.actions.drop index = action :: later) : action ∈ actions := by
  have inside : action ∈ applier.actions.drop index := left ▸ List.mem_cons_self
  exact same ▸ List.mem_of_mem_drop inside

theorem reads_applyFilePayload {output : TempOutput} {verifier : StreamedOutputVerifier}
    (fresh : applier.failed = none) (same : applier.actions = actions)
    (sealable : applier.Sealable) (current : applier.actionIndex = index)
    (left : applier.actions.drop index = action :: later)
    (outputEntry : actionOutputEntry action = .ok entry) (written : output.file = verifier.fed)
    (short : verifier.fed.length < 2 ^ 63) (here : frame.actionIndex.toNat = index) :
    Reads files hashes actions frame
      (openGroup hashes .file index (files.contents entry.path) entry verifier.fed *
        detailStream files hashes (index + 1) later)
      (applyFilePayload files hashes index action output verifier frame.payload) applier := by
  cases payload : frame.payload with
  | fileBytes bytes =>
    have piece : Piece .file frame.payload := by
      rw [payload]
      trivial
    have added : produces (files.contents entry.path) frame.payload = bytes := by
      rw [payload]
      rfl
    refine Reads.bind ((quiet_writeCalls _ _).keeps sealable) fun _ next progress sealable' => ?_
    unfold Reads checkFileLength applierUpdate
    rw [written]
    split
    · next fits =>
      simp only [Effect.ends_bind, Effect.ends_check_ok, Effect.ends_read, Effect.ends_write]
      rw [quotient_group, openGroup_piece here piece, added]
      obtain ⟨actions', current', -, -⟩ := DetailApplier.progress_eq_iff.mp progress
      refine Between.put fresh same progress sealable' ?_
      exact .file (current'.trans current) rfl (actions' ▸ left) outputEntry
        rfl fits
    · next long =>
      simp only [Effect.ends_bind, Effect.ends_check_error]
      rintro ⟨serves, -⟩
      refine refuses_long here piece (lt_of_lt_of_le ?_ (added.symm ▸ not_lt.mp long))
      exact serves.sized action (mem_of_drop same left) entry outputEntry
  | fileEnd =>
    exact reads_finishOutput fresh same sealable current left outputEntry short here payload
  | _ =>
    refine reads_fail (refuses_payload ?_ ?_) _
    · rw [payload]
      exact id
    · rw [payload]
      intro eq
      cases eq

/-- A move of a diff appends what it produces, unless no file holds that. -/
theorem moveDiff_cases {old : List UInt8} {diff : DiffState} {payload : DetailPayload}
    (written : diff.Written old diff.verifier.fed) (piece : Piece .diff payload) :
    (∃ next, moveDiff diff payload = .ok next ∧ next.Written old next.verifier.fed ∧
      next.verifier.fed = diff.verifier.fed ++ produces old payload ∧
      next.verifier.fed.length < 2 ^ 63) ∨
    ∃ e, moveDiff diff payload = .error e ∧ (InFile payload →
      2 ^ 63 ≤ (diff.verifier.fed ++ produces old payload).length) := by
  have moves : payload.Moves := by
    cases payload with
    | diffCopy _ _ | diffBytes _ => trivial
    | _ => cases piece
  have described : describes old [payload] = produces old payload := by
    cases payload with
    | diffCopy _ _ | diffBytes _ => exact List.append_nil _
    | _ => cases piece
  have refines := written.refines payload
  cases spec : appendMove old diff.verifier.fed payload with
  | ok done =>
    rw [spec] at refines
    obtain ⟨next, step, written'⟩ := refines
    have appended := appendMove_of_ok spec
    rw [described] at appended
    have moved : moveDiff diff payload = (do checkFileLength done.length; pure next) := by
      unfold moveDiff
      rw [step, ← written'.position]
      rfl
    rw [moved, ← appended]
    unfold checkFileLength
    by_cases fits : done.length < 2 ^ 63
    · refine Or.inl ⟨next, ?_, ?_, written'.fed, ?_⟩
      · rw [if_pos fits]
        rfl
      · rw [written'.fed]
        exact written'
      · rw [written'.fed]
        exact fits
    · refine Or.inr ⟨.output "File too large (os error 27)", ?_, fun _ => not_lt.mp fits⟩
      rw [if_neg fits]
      rfl
  | error e =>
    rw [spec] at refines
    refine Or.inr ⟨.output e, ?_, fun inFile => ?_⟩
    · unfold moveDiff
      rw [show applyDiffMove diff payload = .error e from refines]
      rfl
    · by_contra fits
      have offsets : ∀ offset len, payload = .diffCopy offset len → offset < 2 ^ 63 := by
        rintro offset len rfl
        exact inFile
      have accepted : appendMove old diff.verifier.fed payload =
          .ok (diff.verifier.fed ++ describes old [payload]) :=
        appendMove_eq_ok moves offsets (by rw [described]; omega)
      rw [spec] at accepted
      cases accepted

/-- A copy or a literal of a diff. -/
theorem reads_moveDiff {diff : DiffState} {path : Path} (fresh : applier.failed = none)
    (same : applier.actions = actions) (sealable : applier.Sealable)
    (current : applier.actionIndex = index) (left : applier.actions.drop index = action :: later)
    (outputEntry : actionOutputEntry action = .ok entry)
    (written : diff.Written (files.contents entry.path) diff.verifier.fed)
    (here : frame.actionIndex.toNat = index) (piece : Piece .diff frame.payload) :
    Reads files hashes actions frame
      (openGroup hashes .diff index (files.contents entry.path) entry diff.verifier.fed *
        detailStream files hashes (index + 1) later)
      (do
        let next ← Effect.check (moveDiff diff frame.payload)
        applierUpdate fun applier => { applier with state := some (.diff index path next) })
      applier := by
  unfold Reads applierUpdate
  rcases moveDiff_cases written piece with ⟨next, step, written', fed, fits⟩ | ⟨e, step, long⟩
  · rw [step]
    simp only [Effect.ends_bind, Effect.ends_check_ok, Effect.ends_read, Effect.ends_write]
    rw [quotient_group, openGroup_piece here piece, ← fed]
    refine Between.put fresh same rfl sealable ?_
    exact .diff current rfl left outputEntry written' fits
  · rw [step]
    simp only [Effect.ends_bind, Effect.ends_check_error]
    rintro ⟨serves, inFile⟩
    refine refuses_long here piece (lt_of_lt_of_le ?_ (long inFile))
    exact serves.sized action (mem_of_drop same left) entry outputEntry

theorem reads_applyDiffPayload {diff : DiffState} {path : Path} (fresh : applier.failed = none)
    (same : applier.actions = actions) (sealable : applier.Sealable)
    (current : applier.actionIndex = index) (left : applier.actions.drop index = action :: later)
    (outputEntry : actionOutputEntry action = .ok entry)
    (written : diff.Written (files.contents entry.path) diff.verifier.fed)
    (short : diff.verifier.fed.length < 2 ^ 63) (here : frame.actionIndex.toNat = index) :
    Reads files hashes actions frame
      (openGroup hashes .diff index (files.contents entry.path) entry diff.verifier.fed *
        detailStream files hashes (index + 1) later)
      (applyDiffPayload files hashes index action path diff frame.payload) applier := by
  cases payload : frame.payload with
  | diffCopy offset len =>
    have piece : Piece .diff frame.payload := by
      rw [payload]
      trivial
    refine Reads.bind ((quiet_copyCalls _ _ _ _).keeps sealable) fun _ next progress sealable' => ?_
    obtain ⟨actions', current', -, fresh'⟩ := DetailApplier.progress_eq_iff.mp progress
    rw [← payload]
    exact reads_moveDiff (fresh'.trans fresh) (actions'.trans same) sealable'
      (current'.trans current) (actions' ▸ left) outputEntry written here piece
  | diffBytes bytes =>
    have piece : Piece .diff frame.payload := by
      rw [payload]
      trivial
    refine Reads.bind ((quiet_writeCalls _ _).keeps sealable) fun _ next progress sealable' => ?_
    obtain ⟨actions', current', -, fresh'⟩ := DetailApplier.progress_eq_iff.mp progress
    rw [← payload]
    exact reads_moveDiff (fresh'.trans fresh) (actions'.trans same) sealable'
      (current'.trans current) (actions' ▸ left) outputEntry written here piece
  | diffEnd =>
    refine Reads.bind ((quiet_outputCall _).keeps sealable) fun _ next progress sealable' => ?_
    obtain ⟨actions', current', -, fresh'⟩ := DetailApplier.progress_eq_iff.mp progress
    exact reads_finishOutput (fresh'.trans fresh) (actions'.trans same) sealable'
      (current'.trans current) (actions' ▸ left) outputEntry short here payload
  | _ =>
    refine reads_fail (refuses_payload ?_ ?_) _
    · rw [payload]
      exact id
    · rw [payload]
      intro eq
      cases eq

/-! ## Begins -/

/-- A group that is begun: its language, and what the frame leaves of it. -/
theorem quotient_begins {kind : ApplyDetailKind} (detail : applyDetailKind action = some kind)
    (outputEntry : actionOutputEntry action = .ok entry)
    (here : frame.actionIndex.toNat = index) (first : frame.payload = begins kind) :
    (detailStream files hashes index (action :: later)).leftQuotient [frame] =
      openGroup hashes kind index (files.contents entry.path) entry [] *
        detailStream files hashes (index + 1) later := by
  rw [detailStream_some detail, leftQuotient_mul nil_notMem_detailGroup,
    detailGroup_begins here first outputEntry]

/-- The steps of both begins that only look at the action. -/
theorem reads_filename {f : Path → Applying Unit} (acts : action ∈ actions)
    (outputEntry : actionOutputEntry action = .ok entry)
    (rest : Reads files hashes actions frame L (f entry.path) applier) :
    Reads files hashes actions frame L
      (Effect.check (detailFilename action) >>= f) applier := by
  unfold Reads
  rw [Effect.ends_bind, detailFilename_of_output outputEntry]
  cases valid : validateRelativePath entry.path with
  | ok done => exact rest
  | error cause =>
    rintro ⟨serves, -⟩
    obtain ⟨change, mem, added, -⟩ := actionOutputEntry_eq_ok outputEntry
    have inside : entry ∈ change.entries := by
      rcases added with rfl | ⟨old, rfl⟩
      · exact List.mem_singleton_self _
      · exact .tail _ (List.mem_singleton_self _)
    have canonical := validateActions_eq_ok.mp serves.validated action acts change mem entry inside
    rw [canonical.validateRelativePath] at valid
    cases valid

theorem reads_beginFileDetail (fresh : applier.failed = none) (same : applier.actions = actions)
    (sealable : applier.Sealable) (current : applier.actionIndex = index)
    (left : applier.actions.drop index = action :: later)
    (detail : applyDetailKind action = some .file) (here : frame.actionIndex.toNat = index)
    (first : frame.payload = .fileBegin) :
    Reads files hashes actions frame (detailStream files hashes index (action :: later))
      (beginFileDetail files index action) applier := by
  obtain ⟨entry, outputEntry⟩ := exists_outputEntry detail
  unfold beginFileDetail
  refine reads_check outputEntry ?_
  refine Reads.bind (sealable.ends_flushBeforeOutput _) fun _ flushed progress sealed => ?_
  refine reads_filename (mem_of_drop same left) outputEntry ?_
  refine Reads.bind ((quiet_newOutput _).keeps sealed) fun _ next progress' sealable' => ?_
  have whole := progress'.trans progress
  obtain ⟨actions', current', -, -⟩ := DetailApplier.progress_eq_iff.mp whole
  unfold Reads applierUpdate
  rw [Effect.ends_bind, Effect.ends_read, Effect.ends_write,
    quotient_begins detail outputEntry here first]
  refine Between.put fresh same whole sealable' ?_
  have short : (⟨[]⟩ : StreamedOutputVerifier).fed.length < 2 ^ 63 := Nat.two_pow_pos 63
  exact .file (current'.trans current) rfl (actions' ▸ left) outputEntry rfl short

theorem reads_beginDiffDetail (fresh : applier.failed = none) (same : applier.actions = actions)
    (sealable : applier.Sealable) (current : applier.actionIndex = index)
    (left : applier.actions.drop index = action :: later)
    (detail : applyDetailKind action = some .diff) (here : frame.actionIndex.toNat = index)
    (first : frame.payload = .diffBegin) :
    Reads files hashes actions frame (detailStream files hashes index (action :: later))
      (beginDiffDetail files hashes index action) applier := by
  obtain ⟨entry, outputEntry⟩ := exists_outputEntry detail
  obtain ⟨old, replaced⟩ := exists_diffOldEntry detail
  have oldEntry : diffOldEntry action = .ok old := by rw [diffOldEntry, replaced]
  unfold beginDiffDetail
  refine reads_check outputEntry ?_
  refine Reads.bind (sealable.ends_flushBeforeOutput _) fun _ flushed progress sealed => ?_
  refine reads_filename (mem_of_drop same left) outputEntry ?_
  refine reads_check oldEntry ?_
  refine Reads.bind ((quiet_outputCall _).keeps sealed) fun _ opened progress' sealed' => ?_
  cases verified : verifyContents hashes old (files.contents entry.path) with
  | error mismatch =>
    rintro ⟨serves, -⟩
    have source := serves.sources action (mem_of_drop same left) detail entry outputEntry old replaced
    rw [source] at verified
    cases verified
  | ok done =>
    refine reads_check rfl ?_
    refine Reads.bind ((quiet_newOutput _).keeps sealed') fun _ next progress'' sealable' => ?_
    have whole := progress''.trans (progress'.trans progress)
    obtain ⟨actions', current', -, -⟩ := DetailApplier.progress_eq_iff.mp whole
    unfold Reads applierUpdate
    rw [Effect.ends_bind, Effect.ends_read, Effect.ends_write,
      quotient_begins detail outputEntry here first]
    refine Between.put fresh same whole sealable' ?_
    let diff := DiffState.begin (files.contents entry.path) (files.clones next.calls)
      (files.readPlan next.calls)
    exact @Expects.diff files hashes { next with state := some (.diff index entry.path diff) } index
      diff action later entry entry.path (current'.trans current) rfl (actions' ▸ left) outputEntry
      (DiffState.written_begin _ _ _) (Nat.two_pow_pos 63)

/-! ## One frame -/

/-- No word of an idle state's language starts with a frame that does not begin the group
of its action. -/
theorem refuses_begin (noBegin : ∀ kind, applyDetailKind action = some kind →
      frame.payload ≠ begins kind)
    (here : frame.actionIndex.toNat = index) :
    Refuses (detailStream files hashes index (action :: later)) frame := by
  intro frames inside
  cases detail : applyDetailKind action with
  | none =>
    rw [detailStream_none detail] at inside
    have := (detailStream_index inside frame List.mem_cons_self).1
    omega
  | some kind =>
    obtain ⟨first, rest, eq, -, begin_⟩ := detailStream_missing detail inside
    cases eq
    exact noBegin kind detail begin_

theorem reads_beginDetail (fresh : applier.failed = none) (same : applier.actions = actions)
    (sealable : applier.Sealable) (current : applier.actionIndex = index)
    (left : applier.actions.drop index = action :: later)
    (here : frame.actionIndex.toNat = index) :
    Reads files hashes actions frame (detailStream files hashes index (action :: later))
      (beginDetail files hashes index action frame.payload) applier := by
  have refused : ∀ error, (∀ kind, applyDetailKind action = some kind →
      frame.payload ≠ begins kind) → Reads files hashes actions frame
        (detailStream files hashes index (action :: later)) (Effect.fail error) applier :=
    fun error noBegin => reads_fail (refuses_begin noBegin here) error
  unfold beginDetail
  split
  · next first detail =>
    exact reads_beginFileDetail fresh same sealable current left detail here first
  · next first detail =>
    exact reads_beginDiffDetail fresh same sealable current left detail here first
  · next first notFile =>
    refine refused _ fun kind detail eq => ?_
    cases kind with
    | file => exact notFile detail
    | diff => cases first.symm.trans eq
  · next first notDiff =>
    refine refused _ fun kind detail eq => ?_
    cases kind with
    | file => cases first.symm.trans eq
    | diff => exact notDiff detail
  · next noFile noDiff =>
    refine refused _ fun kind detail eq => ?_
    cases kind with
    | file => exact noFile eq detail
    | diff => exact noDiff eq detail

/-- A frame in a state between frames, for an action of the list. -/
theorem Between.reads_applyFrameFor (between : Between files hashes actions applier L)
    (here : frame.actionIndex.toNat = index) (at_ : applier.actions[index]? = some action) :
    Reads files hashes actions frame L
      (applyFrameFor files hashes index action frame.payload applier) applier := by
  obtain ⟨fresh, same, sealable, expects⟩ := between
  have start : ∃ later, applier.actions.drop index = action :: later := by
    obtain ⟨inside, eq⟩ := List.getElem?_eq_some_iff.mp at_
    exact ⟨_, (List.drop_eq_getElem_cons inside).trans (by rw [eq])⟩
  unfold applyFrameFor
  cases expects with
  | idle current idle left =>
    rw [idle]
    dsimp only
    split
    · next before =>
      refine reads_fail (fun frames inside => ?_) _
      have := (detailStream_index inside frame List.mem_cons_self).1
      omega
    · next notBefore =>
      subst current
      unfold Reads advanceToAction
      rw [Effect.ends_bind, Effect.ends_bind, Effect.ends_read, left]
      refine (ends_advanceActions files hashes _ _ applier).mono ?_ ?_
      · rintro _ next ⟨rfl, stream⟩
        have target : applier.actionIndex + (index - applier.actionIndex) = index := by omega
        rw [← left, List.drop_drop, target] at stream
        obtain ⟨later', rest⟩ := start
        rw [rest, left] at stream
        rw [stream]
        exact reads_beginDetail fresh same (sealable.advance rfl (Nat.le_add_right _ _)) target rest
          here
      · rintro _ _ missing _ frames inside
        obtain ⟨first, rest, eq, before⟩ := missing _ inside
        cases eq
        omega
  | file current started left outputEntry written short =>
    rw [started]
    dsimp only
    split
    · next other =>
      exact reads_fail (refuses_other fun eq => other (eq.symm.trans here)) _
    · next eq =>
      obtain rfl := not_not.mp eq
      obtain ⟨later', rest⟩ := start
      cases left.symm.trans rest
      exact reads_applyFilePayload fresh same sealable current left outputEntry written short here
  | diff current started left outputEntry written short =>
    rw [started]
    dsimp only
    split
    · next other =>
      exact reads_fail (refuses_other fun eq => other (eq.symm.trans here)) _
    · next eq =>
      obtain rfl := not_not.mp eq
      obtain ⟨later', rest⟩ := start
      cases left.symm.trans rest
      exact reads_applyDiffPayload fresh same sealable current left outputEntry written short here

/-- The frames that are expected belong to actions of the list. -/
theorem Expects.actionIndex_lt (expects : Expects files hashes applier L) {frames : List DetailFrame}
    (inside : frame :: frames ∈ L) : frame.actionIndex.toNat < applier.actions.length := by
  have bound : ∀ {index : Nat} {rest : Actions}, applier.actions.drop index = rest →
      frame.actionIndex.toNat < index + rest.length → index ≤ frame.actionIndex.toNat →
      frame.actionIndex.toNat < applier.actions.length := by
    intro index rest left below above
    rw [← left, List.length_drop] at below
    omega
  cases expects with
  | idle current idle left =>
    obtain ⟨above, below⟩ := detailStream_index inside frame List.mem_cons_self
    exact bound left below above
  | file current started left outputEntry written short =>
    by_contra outside
    refine refuses_other (fun here => ?_) frames inside
    exact outside (bound left (by simp [here]) here.ge)
  | diff current started left outputEntry written short =>
    by_contra outside
    refine refuses_other (fun here => ?_) frames inside
    exact outside (bound left (by simp [here]) here.ge)

/-- A frame takes the language to its quotient or is refused. -/
theorem Between.reads_applyFrame (between : Between files hashes actions applier L) :
    Reads files hashes actions frame L (applyFrame files hashes frame) applier := by
  have inner : Reads files hashes actions frame L (applyFrameInner files hashes frame) applier := by
    unfold Reads applyFrameInner
    rw [Effect.ends_bind, Effect.ends_read]
    dsimp only
    cases at_ : applier.actions[frame.actionIndex.toNat]? with
    | none =>
      intro _ frames inside
      have := between.expects.actionIndex_lt inside
      have := List.getElem?_eq_none_iff.mp at_
      omega
    | some action => exact between.reads_applyFrameFor rfl at_
  unfold Reads Effect.Ends at inner ⊢
  unfold applyFrame
  rw [between.fresh]
  dsimp only
  generalize applyFrameInner files hashes frame applier = run at inner ⊢
  rcases run with ⟨cause | done, next⟩
  · exact inner
  · exact inner

/-- The end of the stream: nothing may be missing. -/
theorem Between.ends_finishOutputs (between : Between files hashes actions applier L) :
    (finishOutputs files).Ends (fun _ _ => [] ∈ L)
      (fun _ _ => Serves files hashes actions → [] ∉ L) applier := by
  obtain ⟨fresh, same, sealable, expects⟩ := between
  unfold finishOutputs
  rw [Effect.ends_bind, Effect.ends_read, fresh]
  dsimp only
  cases expects with
  | @idle index later current idle left =>
    rw [idle, if_neg (by simp)]
    subst current
    unfold advanceToAction
    rw [Effect.ends_bind, Effect.ends_bind, Effect.ends_read, left]
    refine (ends_advanceActions files hashes _ _ applier).mono ?_ ?_
    · rintro _ next ⟨rfl, stream⟩
      have atEnd : later.drop (applier.actions.length - applier.actionIndex) = [] := by
        rw [← left, List.drop_drop]
        exact List.drop_eq_nil_of_le (by omega)
      rw [atEnd] at stream
      have nothing : [] ∈ detailStream files hashes applier.actionIndex later := by
        rw [stream]
        exact Language.nil_mem_one
      have passed : DetailApplier.Sealable { applier with
          actionIndex := applier.actionIndex + (applier.actions.length - applier.actionIndex) } :=
        sealable.advance rfl (Nat.le_add_right _ _)
      refine passed.ends_sealOutputs.mono (fun _ _ _ => nothing) ?_
      exact fun _ _ refused serves => absurd serves.granting refused
    · rintro _ _ missing _ inside
      obtain ⟨first, rest, eq, -⟩ := missing _ inside
      cases eq
  | file current started left outputEntry written short =>
    rw [started, if_pos (by simp)]
    exact fun _ => nil_notMem_mul nil_notMem_openGroup
  | diff current started left outputEntry written short =>
    rw [started, if_pos (by simp)]
    exact fun _ => nil_notMem_mul nil_notMem_openGroup

/-- The applier is a machine with residual languages. -/
theorem residual_between (files : OutputFiles) (hashes : ContentHashes) (actions : Actions) :
    Residual (applyFrame files hashes) (finishOutputs files) (Between files hashes actions)
      (fun frame => Serves files hashes actions ∧ InFile frame.payload)
      (Serves files hashes actions) where
  step _ _ _ between := between.reads_applyFrame
  finish _ _ between := between.ends_finishOutputs

theorem between_new (files : OutputFiles) (hashes : ContentHashes) (actions : Actions)
    (attemptId : Option String) (monitor : Bool) (config : OutputBatchConfig) :
    Between files hashes actions (DetailApplier.new actions attemptId monitor config)
      (detailStream files hashes 0 actions) :=
  ⟨rfl, rfl, DetailApplier.sealable_new actions attemptId monitor config, .idle rfl rfl rfl⟩

/-! ## After a failure -/

/-- A state in which the applier has failed: nothing is accepted, and nothing changes. -/
structure Poisoned (files : OutputFiles) (hashes : ContentHashes) (applier : DetailApplier) :
    Prop where
  frames : ∀ frame, ∃ cause, applyFrame files hashes frame applier = (.error cause, applier)
  chunks : ∀ chunk, ∃ cause, applyFileByteChunk files hashes chunk applier = (.error cause, applier)
  finish : ∀ {α : Type} (commit : Applying α),
    ∃ cause, finish files commit applier = (.error cause, applier)

theorem poisoned_of_failed {cause : DetailError} (failed : applier.failed = some cause) :
    Poisoned files hashes applier := by
  have refused : ∀ frame, applyFrame files hashes frame applier =
      (.error (.alreadyFailed cause), applier) := by
    intro frame
    unfold applyFrame
    rw [failed]
  have unfinished : finishOutputs files applier = (.error (.alreadyFailed cause), applier) := by
    simp only [finishOutputs, bind, Effect.bind, Effect.read, failed, Effect.fail]
  refine ⟨fun frame => ⟨_, refused frame⟩, fun chunk => ⟨_, refused _⟩, fun commit => ?_⟩
  refine ⟨.alreadyFailed cause, ?_⟩
  unfold finish
  change Effect.bind (finishOutputs files) _ applier = _
  unfold Effect.bind
  rw [unfinished]

/-- A rejected frame poisons the applier. -/
theorem poisoned_of_applyFrame {next : DetailApplier} {cause : DetailError}
    (rejected : applyFrame files hashes frame applier = (.error cause, next)) :
    Poisoned files hashes next := by
  unfold applyFrame at rejected
  cases failed : applier.failed with
  | some earlier =>
    rw [failed] at rejected
    cases rejected
    exact poisoned_of_failed failed
  | none =>
    rw [failed] at rejected
    dsimp only at rejected
    generalize applyFrameInner files hashes frame applier = run at rejected
    rcases run with ⟨cause' | done, after⟩
    · cases rejected
      exact poisoned_of_failed rfl
    · cases rejected

end Steps

/-! ## The result -/

/-- Whatever the calls answer, only streams of the grammar are accepted: one group for each
action with a detail, in the order of the actions, that gives the declared contents, and
no other frame. When no call is refused, all of them are. A rejected frame poisons the
applier: every later frame, chunk and finish fails and changes nothing. -/
theorem applier_accepts_grammar (files : OutputFiles) (hashes : ContentHashes)
    (actions : Actions) (attemptId : Option String) (monitor : Bool) (config : OutputBatchConfig)
    (frames : List DetailFrame) :
    ((accept (applyFrame files hashes) (finishOutputs files) frames
        (.new actions attemptId monitor config)).1 = .ok () →
      frames ∈ detailStream files hashes 0 actions) ∧
    (Serves files hashes actions → (∀ frame ∈ frames, InFile frame.payload) →
      ((accept (applyFrame files hashes) (finishOutputs files) frames
          (.new actions attemptId monitor config)).1 = .ok () ↔
        frames ∈ detailStream files hashes 0 actions)) ∧
    ∀ applier frame cause next, applyFrame files hashes frame applier = (.error cause, next) →
      Poisoned files hashes next := by
  have run := (residual_between files hashes actions).ends_accept
    (between_new files hashes actions attemptId monitor config) frames
  have accepted : (accept (applyFrame files hashes) (finishOutputs files) frames
        (.new actions attemptId monitor config)).1 = .ok () →
      frames ∈ detailStream files hashes 0 actions := by
    intro ok
    exact run.of_ok (Prod.ext ok rfl)
  refine ⟨accepted, fun serves inFile => ⟨accepted, fun inside => ?_⟩, ?_⟩
  · cases ends : (accept (applyFrame files hashes) (finishOutputs files) frames
        (.new actions attemptId monitor config)).1 with
    | ok done => rfl
    | error cause =>
      have refused := run.of_error (Prod.ext ends rfl)
      exact absurd inside (refused (fun frame mem => ⟨serves, inFile frame mem⟩) serves)
  · intro applier frame cause next rejected
    exact poisoned_of_applyFrame rejected

/-- Files on which everything succeeds. -/
def calmFiles : OutputFiles where
  refuses _ _ := false
  contents _ := []
  clones _ := false
  readPlan _ := []
  ino _ := 7

/-- A tree in which each file holds these bytes, and in which every call succeeds. -/
def treeOf (bytes : List UInt8) : OutputFiles := { calmFiles with contents := fun _ => bytes }

/-- Adler-32, next to the digest of short byte strings. -/
def paddedHashes : ContentHashes where
  adler32 bytes := paddedHashing.hash (paddedHashing.fromBuffer bytes)
  blake2b := paddedHashing.blake2b

/-- The entry of a file that holds these bytes. -/
def filed (path : Path) (bytes : List UInt8) : DirEntryWithMeta :=
  ⟨path, UInt64.ofNat bytes.length, 0, 7, 0o644, none, false, paddedHashes.adler32 bytes,
    some ⟨paddedHashes.blake2b bytes⟩⟩

theorem declared_filed (path : Path) {bytes : List UInt8} (short : bytes.length < 2 ^ 63) :
    Declared paddedHashes (filed path bytes) bytes := by
  refine ⟨?_, rfl⟩
  change bytes.length = (UInt64.ofNat bytes.length).toNat
  rw [UInt64.toNat_ofNat_of_lt' (by have : UInt64.size = 2 ^ 64 := rfl; omega)]

/-- An empty file is added, another one is removed, and a third one changes. -/
def mixedPlan : Actions :=
  [.local (.added (filed [.normal [97]] [])), .local (.removed (filed [.normal [98]] [5])),
    .local (.modified (filed [.normal [99]] [2, 3]) (filed [.normal [99]] [3, 1, 2]))]

theorem serves_mixedPlan : Serves (treeOf [2, 3]) paddedHashes mixedPlan := by
  refine ⟨fun _ _ => rfl, rfl, ?_, ?_⟩
  · intro action mem entry output
    rcases List.mem_cons.mp mem with rfl | mem
    · cases output
      decide
    rcases List.mem_pair.mp mem with rfl | rfl
    · cases output
    · cases output
      decide
  · intro action mem detail entry output old replaced
    rcases List.mem_cons.mp mem with rfl | mem
    · cases detail
    rcases List.mem_pair.mp mem with rfl | rfl
    · cases detail
    · cases output
      cases replaced
      exact (verifyContents_eq_ok (by decide)).mpr (declared_filed _ (by decide))

/-- The group of the added file and the one of the changed file, which copies a part of the
old one, are in the stream. -/
theorem stream_mixedPlan :
    [⟨0, .fileBegin⟩, ⟨0, .fileEnd⟩, ⟨2, .diffBegin⟩, ⟨2, .diffCopy 1 1⟩,
        ⟨2, .diffBytes [1, 2]⟩, ⟨2, .diffEnd⟩] ∈
      detailStream (treeOf [2, 3]) paddedHashes 0 mixedPlan := by
  have whole : applyDetailKind (.local (.added (filed [.normal [97]] []))) = some .file := rfl
  have changes : applyDetailKind (.local (.modified (filed [.normal [99]] [2, 3])
      (filed [.normal [99]] [3, 1, 2]))) = some .diff := rfl
  unfold mixedPlan
  rw [detailStream_some whole, detailStream_none rfl, detailStream_some changes]
  refine Language.mem_mul.mpr ⟨[⟨0, .fileBegin⟩, ⟨0, .fileEnd⟩], ⟨by decide, _, rfl, [], rfl,
    nofun, declared_filed _ (by decide)⟩, _, Language.mem_mul.mpr ⟨[⟨2, .diffBegin⟩,
    ⟨2, .diffCopy 1 1⟩, ⟨2, .diffBytes [1, 2]⟩, ⟨2, .diffEnd⟩], ⟨by decide, _, rfl,
    [.diffCopy 1 1, .diffBytes [1, 2]], rfl, ?_, declared_filed _ (by decide)⟩, [], rfl, rfl⟩, rfl⟩
  intro piece mem
  rcases List.mem_pair.mp mem with rfl | rfl
  · trivial
  · trivial

/-- The stream of the plan is accepted, and without the diff it is not. -/
theorem applier_accepts_grammar_mixed :
    (accept (applyFrame (treeOf [2, 3]) paddedHashes) (finishOutputs (treeOf [2, 3]))
        [⟨0, .fileBegin⟩, ⟨0, .fileEnd⟩, ⟨2, .diffBegin⟩, ⟨2, .diffCopy 1 1⟩,
          ⟨2, .diffBytes [1, 2]⟩, ⟨2, .diffEnd⟩]
        (.new mixedPlan none false ⟨1, 1⟩)).1 = .ok () ∧
      (accept (applyFrame (treeOf [2, 3]) paddedHashes) (finishOutputs (treeOf [2, 3]))
        [⟨0, .fileBegin⟩, ⟨0, .fileEnd⟩] (.new mixedPlan none false ⟨1, 1⟩)).1 ≠ .ok () := by
  constructor
  · refine ((applier_accepts_grammar _ _ _ none false ⟨1, 1⟩ _).2.1 serves_mixedPlan ?_).mpr
      stream_mixedPlan
    simp [InFile]
  · intro accepted
    have inside := (applier_accepts_grammar _ _ _ none false ⟨1, 1⟩ _).1 accepted
    have third : mixedPlan[2]? = some (.local (.modified (filed [.normal [99]] [2, 3])
        (filed [.normal [99]] [3, 1, 2]))) := rfl
    obtain ⟨frame, mem, index⟩ := exists_frame_of_detail inside third rfl
    rcases List.mem_pair.mp mem with rfl | rfl
    · cases index
    · cases index

end Duet.Detail
