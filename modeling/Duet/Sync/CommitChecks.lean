import Duet.Sync.CommitActions

/-!
# The checks before a commit

The checks only make calls. When they accept, each staged output is what its entry says, and
the tree is what the changes were made for (`looks_revalidate`). With what the preparation
leaves (`Staged`), the forward pass may begin (`Validated`).

A receipt stands for the outputs of an earlier validation as long as an output with the same
fingerprint has the same contents (`CommitValidationReceipt.Vouches`); the receipts that a
validation leaves do (`vouches_of_found`).
-/

namespace Duet.Commit

open Lib

/-- What the preparation leaves: no results yet, and an output for each change that needs
one. -/
structure Staged (actions : Actions) (s : State) : Prop where
  results : s.localResults = List.replicate actions.length none
  idle : ∀ (i : Nat) (a : Action), actions[i]? = some a → a.appliedChange = none →
    s.preparedOutputs i = none
  plain : ∀ (i : Nat) (a : Action) c, actions[i]? = some a → a.appliedChange = some c →
    s.preparedOutputs i = none → applyDetailKindForChange c = none
  outputs : ∀ (i : Nat) (a : Action) c, actions[i]? = some a → a.appliedChange = some c →
    ∀ prepared, s.preparedOutputs i = some prepared → OutputFits c prepared

/-- What the forward pass begins with: each change finds what it was made for, and its
output. -/
structure Validated (hashes : Detail.ContentHashes) (actions : Actions) (s : State) : Prop where
  waiting : ∀ (i : Nat) (a : Action) c, actions[i]? = some a → a.appliedChange = some c →
    Waiting hashes c (s.spot a.path i)
  idle : ∀ (i : Nat) (a : Action), actions[i]? = some a → a.appliedChange = none →
    s.preparedOutputs i = none
  ready : ∀ (i : Nat) (a : Action) c, actions[i]? = some a → a.appliedChange = some c →
    OutputReady hashes c (s.preparedOutputs i)

theorem Staged.free {actions : Actions} {s : State} {i : Nat} {a : Action}
    (staged : Staged actions s) (isAction : actions[i]? = some a) :
    s.localResults[i]? = some none := by
  obtain ⟨bound, -⟩ := List.getElem?_eq_some_iff.mp isAction
  rw [staged.results, List.getElem?_replicate, if_pos bound]

/-- An output that is found from now on with the fingerprint of a receipt holds what its entry
says. -/
def CommitValidationReceipt.Vouches (receipt : CommitValidationReceipt) (kernel : Kernel)
    (hashes : Detail.ContentHashes) (s : State) : Prop :=
  ∀ (i : Nat) out expected, s.preparedOutputs i = some out →
    receipt.fingerprints[i]? = some (some expected) →
    ∀ number, s.calls ≤ number → fingerprint kernel number out = expected → Verified hashes out

section Checks

variable {kernel : Kernel} {hashes : Detail.ContentHashes} {α β : Type} {s t u : State} {p : Path}
  {C : Prop}

/-- The checks of a list, one after the other. -/
theorem looks_forM {f : α → Committing PUnit} {Q : α → Prop} {l : List α}
    (each : ∀ a ∈ l, ∀ calls, s.calls ≤ calls →
      Looks kernel (s.atCall calls) (f a) (fun _ => Q a) C) :
    Looks kernel s (l.forM f) (fun _ => ∀ a ∈ l, Q a) C := by
  induction l generalizing s with
  | nil => exact ⟨.refl s, fun _ mem => absurd mem List.not_mem_nil⟩
  | cons a rest ih =>
    change Looks kernel s (f a >>= fun _ => rest.forM f) _ C
    refine Looks.after (s := s) (each a List.mem_cons_self s.calls le_rfl)
      fun _ calls later first => ?_
    refine (ih (s := s.atCall calls) fun b mem calls' later' =>
      each b (List.mem_cons_of_mem _ mem) calls' (later.trans later')).mono ?_ id
    intro _ others b mem
    rcases List.mem_cons.mp mem with rfl | inRest
    · exact first
    · exact others b inRest

/-! ## Preflight -/

/-- The program only makes calls, whatever it finds. -/
abbrev OnlyLooks (kernel : Kernel) (s : State) (m : Committing α) : Prop :=
  Looks kernel s m (fun _ => True) True

theorem OnlyLooks.bind {m : Committing α} {f : α → Committing β} (first : OnlyLooks kernel s m)
    (rest : ∀ a calls, OnlyLooks kernel (s.atCall calls) (f a)) :
    OnlyLooks kernel s (m >>= f) :=
  Looks.bind first fun a calls _ => rest a calls

theorem OnlyLooks.pure {a : α} : OnlyLooks kernel s (pure a : Committing α) := Looks.pure trivial

theorem OnlyLooks.fail {e : Error} : OnlyLooks kernel s (Effect.fail e : Committing α) :=
  Looks.fail trivial

theorem OnlyLooks.check {x : Except Error α} : OnlyLooks kernel s (Effect.check x) :=
  Looks.check (fun _ _ => trivial) fun _ _ => trivial

theorem OnlyLooks.forM {f : α → Committing PUnit} {l : List α}
    (each : ∀ a calls, OnlyLooks kernel (s.atCall calls) (f a)) : OnlyLooks kernel s (l.forM f) :=
  (looks_forM fun a _ calls _ => each a calls).mono (fun _ _ => trivial) id

theorem onlyLooks_look : OnlyLooks kernel s (look kernel p) :=
  looks_look.mono (fun _ _ => trivial) id

theorem onlyLooks_symlinkMetadata : OnlyLooks kernel s (symlinkMetadata kernel p) :=
  looks_symlinkMetadata.mono (fun _ _ => trivial) fun _ => trivial

theorem onlyLooks_tryExists : OnlyLooks kernel s (tryExists kernel p) := by
  unfold tryExists
  split
  · exact .pure
  · refine onlyLooks_look.bind fun found calls => ?_
    cases found with
    | found m =>
      dsimp only
      split
      · exact .pure
      · exact .pure
    | missing => exact .pure
    | failed => exact .fail

theorem onlyLooks_parentMetadata : OnlyLooks kernel s (parentMetadata kernel p) := by
  unfold parentMetadata
  split
  · exact Looks.call rfl fun calls => OnlyLooks.pure
  · exact onlyLooks_symlinkMetadata.bind fun m calls => .pure

theorem onlyLooks_preflightReadFile (source : SourceRead) :
    OnlyLooks kernel s (preflightReadFile kernel source) := by
  refine OnlyLooks.check.bind fun filename calls => ?_
  refine Looks.call rfl fun calls' => ?_
  refine onlyLooks_tryExists.bind fun found calls'' => ?_
  split
  · exact .pure
  · exact .fail

/-- A check of the tree alone. -/
theorem onlyLooks_onDisk {x : Except RemovalError α} :
    OnlyLooks kernel s (onDisk (Effect.check x)) := by
  cases x with
  | ok a => exact ⟨.refl s, trivial⟩
  | error cause => exact ⟨.refl s, .inr trivial⟩

theorem onlyLooks_preflightRemovals (plan : CommitPlan) :
    OnlyLooks kernel s (preflightRemovals plan) := by
  refine Looks.read (onlyLooks_onDisk.bind fun report calls => ?_)
  cases report.blockers.find? fun blocker => !blocker.prunable with
  | some blocker => exact .fail
  | none => exact onlyLooks_onDisk

theorem onlyLooks_preflightMetadataTarget (target : Path) :
    OnlyLooks kernel s (preflightMetadataTarget kernel target) := by
  refine OnlyLooks.check.bind fun path calls => ?_
  exact onlyLooks_symlinkMetadata.bind fun m calls' => .pure

theorem onlyLooks_preflightExistingWritableDirectory :
    OnlyLooks kernel s (preflightExistingWritableDirectory kernel p) := by
  refine onlyLooks_parentMetadata.bind fun ⟨fileType, mode⟩ calls => ?_
  dsimp only
  split
  · exact .fail
  · split
    · exact .fail
    · exact .pure

theorem onlyLooks_nearestExisting (paths : List Path) :
    OnlyLooks kernel s (nearestExisting kernel paths) := by
  induction paths generalizing s with
  | nil => exact .pure
  | cons current above ih =>
    refine onlyLooks_tryExists.bind fun found calls => ?_
    split
    · exact .pure
    · exact ih

theorem onlyLooks_preflightDirectoryWritableOrCreatable :
    OnlyLooks kernel s (preflightDirectoryWritableOrCreatable kernel p) := by
  refine onlyLooks_tryExists.bind fun found calls => ?_
  split
  · exact onlyLooks_preflightExistingWritableDirectory
  · refine (onlyLooks_nearestExisting _).bind fun ancestor calls' => ?_
    cases ancestor with
    | some ancestor => exact onlyLooks_preflightExistingWritableDirectory
    | none => exact .fail

theorem onlyLooks_preflightParentMutation (plan : CommitPlan) (mutation : ParentMutation) :
    OnlyLooks kernel s (preflightParentMutation kernel plan mutation) := by
  refine onlyLooks_tryExists.bind fun found calls => ?_
  split
  · refine onlyLooks_parentMetadata.bind fun ⟨fileType, mode⟩ calls' => ?_
    dsimp only
    split
    · exact .fail
    · split
      · exact .pure
      · split
        · exact .fail
        · exact .pure
  · split
    · exact .pure
    · split
      · exact onlyLooks_preflightDirectoryWritableOrCreatable
      · exact .fail

theorem onlyLooks_preflightCommitPlan (plan : CommitPlan) :
    OnlyLooks kernel s (preflightCommitPlan kernel plan) := by
  refine (OnlyLooks.forM fun source _ => onlyLooks_preflightReadFile source).bind fun _ calls => ?_
  refine (onlyLooks_preflightRemovals plan).bind fun _ calls' => ?_
  refine (OnlyLooks.forM fun target _ => onlyLooks_preflightMetadataTarget target).bind
    fun _ calls'' => ?_
  exact OnlyLooks.forM fun mutation _ => onlyLooks_preflightParentMutation plan mutation

/-! ## Validation -/

/-- The fingerprint is that of a call which is still to come. -/
theorem looks_reopenPrepared {out : Detail.PreparedOutput} :
    Looks kernel s (reopenPrepared kernel out)
      (fun found => found = fingerprint kernel s.calls out) True := by
  refine Looks.call rfl fun calls => ?_
  dsimp only
  split
  · exact Looks.fail trivial
  · exact Looks.pure rfl

theorem looks_verifyPreparedContents {out : Detail.PreparedOutput} :
    Looks kernel s (verifyPreparedContents kernel hashes out)
      (fun found => found = fingerprint kernel s.calls out ∧ Verified hashes out) True := by
  refine looks_reopenPrepared.bind fun before calls first => ?_
  refine Looks.call rfl fun calls' => Looks.call rfl fun calls'' => ?_
  cases verified : Detail.verifyContents hashes out.finalEntry out.output.file with
  | error cause => exact Looks.fail trivial
  | ok =>
    refine Looks.call rfl fun calls''' => ?_
    dsimp only
    split
    · exact Looks.fail trivial
    next same =>
      refine Looks.call rfl fun _ => Looks.pure ⟨?_, verified⟩
      exact (not_not.mp same).symm.trans first

/-- The fingerprint that an output had at one of the calls from a state on. -/
def FoundAt (kernel : Kernel) (hashes : Detail.ContentHashes) (s : State) (index : Nat)
    (found : Option StagedOutputFingerprint) : Prop :=
  ∀ out, s.preparedOutputs index = some out → Verified hashes out ∧
    ∃ number, s.calls ≤ number ∧ found = some (fingerprint kernel number out)

theorem FoundAt.later {index calls : Nat} {found : Option StagedOutputFingerprint}
    (later : s.calls ≤ calls) (at' : FoundAt kernel hashes (s.atCall calls) index found) :
    FoundAt kernel hashes s index found := by
  intro out isOutput
  obtain ⟨verified, number, after, same⟩ := at' out isOutput
  exact ⟨verified, number, later.trans after, same⟩

theorem looks_validateOutput (index : Nat) :
    Looks kernel s (validateOutput kernel hashes index) (FoundAt kernel hashes s index) True := by
  refine Looks.read ?_
  cases output : s.preparedOutputs index with
  | none =>
    refine Looks.pure fun out isOutput => ?_
    rw [output] at isOutput
    cases isOutput
  | some prepared =>
    refine looks_verifyPreparedContents.bind fun found calls seen => Looks.pure ?_
    intro out isOutput
    rw [output] at isOutput
    cases isOutput
    exact ⟨seen.2, s.calls, le_rfl, congrArg some seen.1⟩

theorem looks_validatePreparedOutputs (indices : List Nat) :
    Looks kernel s (validatePreparedOutputs kernel hashes indices)
      (List.Forall₂ (FoundAt kernel hashes s) indices) True := by
  induction indices generalizing s with
  | nil => exact Looks.pure .nil
  | cons index rest ih =>
    refine (looks_validateOutput index).after fun found calls later first => ?_
    refine ih.after fun others calls' later' following => Looks.pure (.cons first ?_)
    exact following.imp fun _ _ => FoundAt.later later

/-- After a check that accepts. -/
theorem Looks.checked {a : α} {f : α → Committing β} {R : β → Prop}
    (rest : Looks kernel s (f a) R C) : Looks kernel s (Effect.check (.ok a) >>= f) R C := rest

/-- The target of a change is what the change was made for. -/
theorem looks_validateTarget {actions : Actions} {a : Action} {i : Nat}
    (slots : ∀ c, a.appliedChange = some c → Slot actions a i c) (unseen : kernel.Unseen a.path) :
    Looks kernel s (validateTarget kernel hashes a)
      (fun _ => ∀ c, a.appliedChange = some c →
        Shows hashes (s.disk.tree.entry? a.path) (s.contents a.path) c.oldEntry) True := by
  unfold validateTarget
  cases applied : a.appliedChange with
  | none => exact Looks.pure fun _ isChange => by cases isChange
  | some c =>
    have slot := slots c applied
    dsimp only
    rw [slot.paths.2, joinBase_canonical slot.canonical]
    have here : ∀ {old : DirEntryWithMeta}, c.oldEntry = some old →
        Looks kernel s (verifyCurrentMatchesEntry kernel hashes a.path old "staged commit target")
          (fun _ => ∀ d, some c = some d →
            Shows hashes (s.disk.tree.entry? a.path) (s.contents a.path) d.oldEntry) True := by
      intro old isOld
      refine (looks_verifyCurrentMatchesEntry unseen).mono ?_ fun _ => trivial
      intro _ fits d same
      cases same
      rw [isOld]
      exact fits
    cases c with
    | removed old => exact here rfl
    | modified old new => exact here rfl
    | added entry =>
      refine Looks.checked (looks_look.bind ?_)
      rintro found calls rfl
      cases isFound : s.disk.tree.lookup kernel.behind a.path with
      | found m => exact Looks.fail trivial
      | failed => exact Looks.fail trivial
      | missing =>
        refine Looks.pure fun d same => ?_
        cases same
        cases isNode : s.disk.tree.entry? a.path with
        | none => rfl
        | some n =>
          rw [DirectoryTree.lookup_of_entry isNode] at isFound
          cases isFound

/-- What the targets were made for. -/
theorem looks_validateCommitTargetsAndCapacity {prepared : Prepared}
    (slots : ∀ (i : Nat) (a : Action) c, prepared.actions[i]? = some a → a.appliedChange = some c →
      Slot prepared.actions a i c)
    (unseen : ∀ a ∈ prepared.actions, kernel.Unseen a.path) :
    Looks kernel s (validateCommitTargetsAndCapacity kernel hashes prepared.actions)
      (fun _ => ∀ a ∈ prepared.actions, ∀ c, a.appliedChange = some c →
        Shows hashes (s.disk.tree.entry? a.path) (s.contents a.path) c.oldEntry) True := by
  refine Looks.bind (looks_forM (s := s) (Q := fun a => ∀ c, a.appliedChange = some c →
    Shows hashes (s.disk.tree.entry? a.path) (s.contents a.path) c.oldEntry) ?_) ?_
  · intro a mem calls _
    obtain ⟨i, isAction⟩ := List.mem_iff_getElem?.mp mem
    exact looks_validateTarget (s := s.atCall calls)
      (fun c applied => slots i a c isAction applied) (unseen a mem)
  · intro _ calls targets
    exact Looks.call rfl fun calls' => Looks.pure targets

theorem looks_validateCommitFull {prepared : Prepared}
    (slots : ∀ (i : Nat) (a : Action) c, prepared.actions[i]? = some a → a.appliedChange = some c →
      Slot prepared.actions a i c)
    (unseen : ∀ a ∈ prepared.actions, kernel.Unseen a.path) :
    Looks kernel s (validateCommitFull kernel hashes prepared)
      (fun found => List.Forall₂ (FoundAt kernel hashes s)
          (List.range prepared.actions.length) found ∧
        ∀ a ∈ prepared.actions, ∀ c, a.appliedChange = some c →
          Shows hashes (s.disk.tree.entry? a.path) (s.contents a.path) c.oldEntry) True := by
  refine (onlyLooks_preflightCommitPlan prepared.plan).after fun _ calls later _ => ?_
  refine (looks_validatePreparedOutputs _).bind fun found calls' outputs => ?_
  refine (looks_validateCommitTargetsAndCapacity slots unseen).bind fun _ calls'' targets =>
    Looks.pure ⟨?_, targets⟩
  exact outputs.imp fun _ _ => FoundAt.later later

theorem exists_of_range {R : Nat → β → Prop} {n i : Nat} {found : List β}
    (all : List.Forall₂ R (List.range n) found) (bound : i < n) :
    ∃ y, found[i]? = some y ∧ R i y := by
  obtain ⟨lengths, each⟩ := List.forall₂_iff_get.mp all
  rw [List.length_range] at lengths
  have inside : i < found.length := lengths ▸ bound
  have holds := each i (by rwa [List.length_range]) inside
  rw [List.get_eq_getElem, List.getElem_range] at holds
  exact ⟨_, List.getElem?_eq_getElem inside, holds⟩

/-- What the checks have seen when they accept. -/
def Accepted (hashes : Detail.ContentHashes) (prepared : Prepared) (s : State) : Prop :=
  (∀ i ∈ List.range prepared.actions.length, ∀ out,
    s.preparedOutputs i = some out → Verified hashes out) ∧
  ∀ a ∈ prepared.actions, ∀ c, a.appliedChange = some c →
    Shows hashes (s.disk.tree.entry? a.path) (s.contents a.path) c.oldEntry

theorem looks_validateCommit {prepared : Prepared}
    (slots : ∀ (i : Nat) (a : Action) c, prepared.actions[i]? = some a → a.appliedChange = some c →
      Slot prepared.actions a i c)
    (unseen : ∀ a ∈ prepared.actions, kernel.Unseen a.path) :
    Looks kernel s (validateCommit kernel hashes prepared)
      (fun _ => Accepted hashes prepared s) True := by
  refine (looks_validateCommitFull slots unseen).bind fun found calls seen =>
    Looks.pure ⟨fun i mem out isOutput => ?_, seen.2⟩
  obtain ⟨fp, -, foundAt⟩ := exists_of_range seen.1 (List.mem_range.mp mem)
  exact (foundAt out isOutput).1

/-! ## Receipts -/

/-- An output that a filled slot of a receipt vouches for. -/
theorem looks_checkReceiptSlot {slot : Nat × Option StagedOutputFingerprint}
    (filled : (s.preparedOutputs slot.1).isSome → slot.2.isSome)
    (vouches : ∀ out expected, s.preparedOutputs slot.1 = some out → slot.2 = some expected →
      fingerprint kernel s.calls out = expected → Verified hashes out) :
    Looks kernel s (checkReceiptSlot kernel slot)
      (fun _ => ∀ out, s.preparedOutputs slot.1 = some out → Verified hashes out) True := by
  refine Looks.read ?_
  cases output : s.preparedOutputs slot.1 with
  | none => exact Looks.pure fun out isOutput => by cases isOutput
  | some out =>
    rw [output] at filled
    obtain ⟨expected, isExpected⟩ := Option.isSome_iff_exists.mp (filled rfl)
    rw [isExpected]
    refine looks_reopenPrepared.bind fun found calls seen => ?_
    split
    · exact Looks.fail trivial
    next same =>
      refine Looks.call rfl fun calls' => Looks.pure fun other isOutput => ?_
      cases isOutput
      exact vouches out expected output isExpected (seen.symm.trans (not_not.mp same))

/-- The slot of an action is filled where there is an output. -/
theorem filled_of_structurallyValid {prepared : Prepared} {receipt : CommitValidationReceipt}
    (valid : receiptIsStructurallyValid prepared s.preparedOutputs receipt = true) :
    receipt.fingerprints.length = prepared.actions.length ∧
      ∀ slot ∈ (List.range prepared.actions.length).zip receipt.fingerprints,
        (s.preparedOutputs slot.1).isSome → slot.2.isSome := by
  simp only [receiptIsStructurallyValid, Bool.and_eq_true, List.all_eq_true, beq_iff_eq] at valid
  refine ⟨valid.1.2, fun slot mem isOutput => ?_⟩
  rw [← valid.2 slot mem]
  exact isOutput

theorem looks_validateCommitFromReceipt {prepared : Prepared}
    {receipt : CommitValidationReceipt}
    (slots : ∀ (i : Nat) (a : Action) c, prepared.actions[i]? = some a → a.appliedChange = some c →
      Slot prepared.actions a i c)
    (unseen : ∀ a ∈ prepared.actions, kernel.Unseen a.path)
    (valid : receiptIsStructurallyValid prepared s.preparedOutputs receipt = true)
    (vouches : receipt.Vouches kernel hashes s) :
    Looks kernel s (validateCommitFromReceipt kernel hashes prepared receipt)
      (fun _ => Accepted hashes prepared s) True := by
  obtain ⟨lengths, filled⟩ := filled_of_structurallyValid valid
  have place : ∀ slot ∈ (List.range prepared.actions.length).zip receipt.fingerprints,
      receipt.fingerprints[slot.1]? = some slot.2 := by
    intro slot mem
    obtain ⟨j, isSlot⟩ := List.mem_iff_getElem?.mp mem
    obtain ⟨isIndex, isFound⟩ := List.getElem?_zip_eq_some.mp isSlot
    obtain ⟨inside, index⟩ := List.getElem?_eq_some_iff.mp isIndex
    rw [List.getElem_range] at index
    rwa [← index]
  refine Looks.bind (looks_forM (s := s) (Q := fun slot => ∀ out,
    s.preparedOutputs slot.1 = some out → Verified hashes out) ?_) fun _ calls outputs => ?_
  · intro slot mem calls later
    refine looks_checkReceiptSlot (s := s.atCall calls) (filled slot mem)
      fun out expected isOutput isExpected same => ?_
    exact vouches slot.1 out expected isOutput ((place slot mem).trans (congrArg some isExpected))
      calls later same
  refine Looks.bind (onlyLooks_preflightCommitPlan prepared.plan) fun _ calls' _ => ?_
  refine (looks_validateCommitTargetsAndCapacity slots unseen).mono (fun _ targets => ?_) id
  refine ⟨fun i mem out isOutput => ?_, targets⟩
  have bound := List.mem_range.mp mem
  have inside : i < receipt.fingerprints.length := lengths ▸ bound
  refine outputs (i, receipt.fingerprints[i]) ?_ out isOutput
  refine List.mem_iff_getElem?.mpr ⟨i, List.getElem?_zip_eq_some.mpr ⟨?_, ?_⟩⟩
  · exact List.getElem?_range bound
  · exact List.getElem?_eq_getElem inside

/-- What the validation at the start of a commit has seen when it accepts, with a receipt or
without one. -/
theorem looks_revalidate {prepared : Prepared}
    (slots : ∀ (i : Nat) (a : Action) c, prepared.actions[i]? = some a → a.appliedChange = some c →
      Slot prepared.actions a i c)
    (unseen : ∀ a ∈ prepared.actions, kernel.Unseen a.path)
    (vouched : ∀ receipt, prepared.validationReceipt = some receipt →
      receiptIsStructurallyValid prepared s.preparedOutputs receipt = true →
      receipt.Vouches kernel hashes s) :
    Looks kernel s (revalidate kernel hashes prepared)
      (fun _ => Accepted hashes prepared s) True := by
  refine Looks.read ?_
  cases isReceipt : prepared.validationReceipt with
  | none => exact looks_validateCommit slots unseen
  | some receipt =>
    dsimp only
    split
    next valid =>
      exact looks_validateCommitFromReceipt slots unseen valid (vouched receipt isReceipt valid)
    · exact looks_validateCommit slots unseen

/-- Between two states an output is as it was, or it is found with another fingerprint from
then on. -/
def Faithful (kernel : Kernel) (s u : State) : Prop :=
  ∀ (i : Nat) out, u.preparedOutputs i = some out →
    ∃ earlier, s.preparedOutputs i = some earlier ∧ earlier.finalEntry = out.finalEntry ∧
      ∀ before number, s.calls ≤ before → u.calls ≤ number →
        fingerprint kernel number out = fingerprint kernel before earlier →
        out.output.file = earlier.output.file

/-- A validation leaves the state as it was, and a receipt of what it has found. -/
theorem validateCommitReceipted_left {prepared validated : Prepared}
    (slots : ∀ (i : Nat) (a : Action) c, prepared.actions[i]? = some a → a.appliedChange = some c →
      Slot prepared.actions a i c)
    (unseen : ∀ a ∈ prepared.actions, kernel.Unseen a.path)
    (run : validateCommitReceipted kernel hashes prepared s = (.ok validated, t)) :
    Still s t ∧ ∃ generation receipt,
      List.Forall₂ (FoundAt kernel hashes s) (List.range prepared.actions.length)
        receipt.fingerprints ∧
      validated = { prepared with
        validationGeneration := generation
        validationReceipt := some receipt } := by
  have left : Looks kernel s (validateCommitReceipted kernel hashes prepared)
      (fun validated => ∃ generation receipt,
        List.Forall₂ (FoundAt kernel hashes s) (List.range prepared.actions.length)
          receipt.fingerprints ∧
        validated = { prepared with
          validationGeneration := generation
          validationReceipt := some receipt }) True := by
    unfold validateCommitReceipted Prepared.nextGeneration
    split
    · refine Looks.checked ((looks_validateCommitFull slots unseen).bind
        fun found calls seen => Looks.pure ⟨_, _, seen.1, rfl⟩)
    · exact ⟨.refl s, .inr trivial⟩
  have post := left.of_ok run
  exact ⟨post.1.still, post.2⟩

/-- The receipt of a validation vouches for its outputs. -/
theorem vouches_of_found {n : Nat} {receipt : CommitValidationReceipt}
    (found : List.Forall₂ (FoundAt kernel hashes s) (List.range n) receipt.fingerprints)
    (faithful : Faithful kernel s u) : receipt.Vouches kernel hashes u := by
  intro i out expected isOutput isExpected number later same
  obtain ⟨lengths, -⟩ := List.forall₂_iff_get.mp found
  obtain ⟨inside, -⟩ := List.getElem?_eq_some_iff.mp isExpected
  rw [List.length_range] at lengths
  obtain ⟨fp, isFound, foundAt⟩ := exists_of_range found (lengths ▸ inside)
  obtain ⟨earlier, isEarlier, entries, unaltered⟩ := faithful i out isOutput
  obtain ⟨verified, before, after, seen⟩ := foundAt earlier isEarlier
  rw [isFound, seen] at isExpected
  have file := unaltered before number after later
    (same.trans (Option.some.inj (Option.some.inj isExpected)).symm)
  unfold Verified at verified ⊢
  rw [file, ← entries]
  exact verified

/-- The forward pass begins with what was staged and seen. -/
theorem validated_of_checks {actions : Actions} (staged : Staged actions s)
    (outputs : ∀ i ∈ List.range actions.length, ∀ out,
      s.preparedOutputs i = some out → Verified hashes out)
    (targets : ∀ a ∈ actions, ∀ c, a.appliedChange = some c →
      Shows hashes (s.disk.tree.entry? a.path) (s.contents a.path) c.oldEntry) :
    Validated hashes actions s where
  waiting i a c isAction applied := by
    have mem : a ∈ actions := List.mem_of_getElem? isAction
    exact ⟨targets a mem c applied, staged.free isAction⟩
  idle := staged.idle
  ready i a c isAction applied := by
    obtain ⟨bound, -⟩ := List.getElem?_eq_some_iff.mp isAction
    cases output : s.preparedOutputs i with
    | none => exact staged.plain i a c isAction applied output
    | some prepared =>
      refine ⟨staged.outputs i a c isAction applied prepared output, ?_⟩
      exact outputs i (List.mem_range.mpr bound) prepared output

end Checks

end Duet.Commit
