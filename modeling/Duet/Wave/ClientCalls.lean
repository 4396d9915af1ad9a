import Duet.Wave.ClientRules

/-!
# The client before a commit

What the client does from the beginning of a wave to its validation: on both sides the state
file and the tree stay those of the checkpoint. Whatever goes wrong, both sides are left in a
state that can be aborted; a part that ends without an error leaves no marker, or both sides
prepared.
-/

namespace Duet

open Lib Marker

/-! ## The stages of a wave on both sides -/

/-- How far the synchronization has come: before the commit of a wave both sides have a
checkpoint, a state file and a tree. -/
inductive WaveStage where
  | before (here there : Option HostFile × TargetTree)
  | committing (wave : Nat) (attemptId : String)
  | saved (wave : Nat) (attemptId : String)

def WaveStage.sides (p : Profile) : WaveStage → Sides
  | .before here there =>
    ⟨(·.Untouched p.localState here.1 here.2), (·.Untouched p.remoteState there.1 there.2),
      AnyPhase, anyPhase_steady, anyPhase_lasting⟩
  | .committing wave attemptId =>
    ⟨(·.Committing p.localState wave attemptId), (·.Committing p.remoteState wave attemptId),
      LatePhase, latePhase_steady, latePhase_lasting⟩
  | .saved wave attemptId =>
    ⟨(·.Saved p.localState wave attemptId), (·.Saved p.remoteState wave attemptId),
      LatePhase, latePhase_steady, latePhase_lasting⟩

/-! ## Calls that read -/

section Reads

variable {policy : Policy} {sides : Sides} {H I : Host → Prop}
  {K : DuetServerImpl → Host → Prop} {phases : InterruptPhase → Prop}
  {begun : List (Nat × String)} {w : World} {failed : World → Prop}

/-- The client looks for an interrupt. -/
theorem wp_poll (steady : Steady phases) (inStage : InStage policy sides H I phases begun)
    (holds : Holds H I K Unserved phases begun w) :
    (clientContract policy).wp (interrupt isCancelRequested).run
      (Outcome (fun _ w' => Holds H I K Unserved phases begun w') failed) w :=
  wp_outcome (wp_interrupt steady inStage (fun _ known => known) holds fun _ known =>
    isCancelRequested_spec steady (fun _ known => known) known)
    (fun _ _ polled => { polled with phase := polled.phase.1 }) fun _ failed => failed

/-- A query leaves the server as it is. -/
theorem wp_query_free (steady : Steady phases) (inStage : InStage policy sides H I phases begun)
    (holds : Holds H I K Unserved phases begun w) :
    (clientContract policy).wp (remote .query).run
      (Outcome (fun _ w' => Holds H I K Unserved phases begun w' ∧ w'.server.Free)
        fun w' => Holds H I K Unserved phases begun w') w := by
  refine wp_remote_free (A := fun _ => I) (B := fun _ => K) steady inStage
    (fun _ known => known) holds fun server h known idle => ?_
  refine Contract.wp_mono (query_call known) fun out h' same => ?_
  obtain ⟨rfl, same⟩ := same
  rcases out with ⟨error | reply, server'⟩
  · exact same ▸ idle
  · exact ⟨known, same ▸ idle⟩

theorem wp_query (steady : Steady phases) (inStage : InStage policy sides H I phases begun)
    (holds : Holds H I K Unserved phases begun w) :
    (clientContract policy).wp (remote .query).run
      (Outcome (fun _ w' => Holds H I K Unserved phases begun w')
        fun w' => Holds H I K Unserved phases begun w') w :=
  wp_outcome (wp_query_free steady inStage holds) (fun _ _ free => free.1) fun _ failed => failed

/-- A check on the own host. -/
theorem wp_check {what : HostCheck} (steady : Steady phases)
    (inStage : InStage policy sides H I phases begun) (holds : Holds H I K Unserved phases begun w) :
    (clientContract policy).wp (here (host (.check what))).run
      (Outcome (fun _ w' => Holds H I K Unserved phases begun w')
        fun w' => Holds H I K Unserved phases begun w') w := by
  have reads : ∀ h, H h → (Contract.keeping Host.exec H).wp (host (.check what)).run
      (fun _ _ => True) h := fun h known =>
    Contract.wp_mono (readOnly_keeping (check_readOnly what) known) fun _ _ _ => trivial
  refine Contract.wp_mono (wp_here steady inStage (fun _ known => known) holds reads)
    fun result w' after => ?_
  have kept : Holds H I K Unserved phases begun w' := { after with here := after.here.1 }
  cases result with
  | ok _ => exact kept
  | error _ => exact kept

end Reads

/-! ## A wave before its commit -/

section Before

variable {p : Profile} {policy : Policy} {here there : Option HostFile × TargetTree}
  {wave stream : Nat} {attemptId : String} {begun : List (Nat × String)} {w : World}
  {H I : Host → Prop} {K : DuetServerImpl → Host → Prop}

/-- What is known of the wave allows an abort on both sides. -/
def CanAbort (p : Profile) (here there : Option HostFile × TargetTree) (attemptId : String)
    (begun : List (Nat × String)) (w : World) : Prop :=
  Holds (·.Untouched p.localState here.1 here.2) (·.Untouched p.remoteState there.1 there.2)
    (fun server _ => server.Abortable p.remoteState attemptId) Unserved EarlyPhase begun w

/-- The wave is being prepared: both sides take frames. -/
def Preparing (p : Profile) (here there : Option HostFile × TargetTree) (wave : Nat)
    (attemptId : String) (stream : Nat) (begun : List (Nat × String)) (w : World) : Prop :=
  Holds (·.Tidy p.localState here.1 here.2 wave) (·.Tidy p.remoteState there.1 there.2 wave)
    (fun server _ => server.Preparing p.remoteState attemptId stream) Unserved EarlyPhase begun w

/-- The own side is prepared, and the other one takes frames. -/
def PreparedHere (p : Profile) (here there : Option HostFile × TargetTree) (wave : Nat)
    (attemptId : String) (stream : Nat) (begun : List (Nat × String)) (w : World) : Prop :=
  Holds (·.Prepared p.localState here.1 here.2 wave attemptId)
    (·.Tidy p.remoteState there.1 there.2 wave)
    (fun server _ => server.Preparing p.remoteState attemptId stream) Unserved EarlyPhase begun w

/-- Both sides are prepared. -/
def PreparedBoth (p : Profile) (here there : Option HostFile × TargetTree) (wave : Nat)
    (attemptId : String) (begun : List (Nat × String)) (w : World) : Prop :=
  Holds (·.Prepared p.localState here.1 here.2 wave attemptId)
    (·.Prepared p.remoteState there.1 there.2 wave attemptId)
    (fun server _ => server.Prepared p.remoteState attemptId) Unserved EarlyPhase begun w

/-- Neither side has a marker. -/
def Unmarked (p : Profile) (here there : Option HostFile × TargetTree)
    (begun : List (Nat × String)) (w : World) : Prop :=
  Holds
    (fun h => h.Untouched p.localState here.1 here.2 ∧ h.files (applyAttemptPath p.localState) = none)
    (fun h => h.Untouched p.remoteState there.1 there.2 ∧
      h.files (applyAttemptPath p.remoteState) = none)
    (fun _ _ => True) Unserved AnyPhase begun w

/-- The applier of an attempt of the own side. -/
structure DetailApplier.Of (applier : DetailApplier) (p : Profile) (attemptId : String) : Prop where
  state : applier.attemptState = some p.localState
  id : applier.attemptId = some attemptId

theorem DetailApplier.Of.abort {prepared : PreparedApply} (of : prepared.inner.Of p attemptId) :
    prepared.abort = abortStagedApplyAttempt p.localState attemptId := by
  rw [PreparedApply.abort, of.state, of.id]

theorem Holds.weaken {H' I' : Host → Prop} {K' : DuetServerImpl → Host → Prop}
    {phases phases' : InterruptPhase → Prop} (holds : Holds H I K Unserved phases begun w)
    (here : ∀ h, H h → H' h) (there : ∀ h, I h → I' h)
    (idle : ∀ server h, I h → K server h → K' server h)
    (phase : ∀ phase, phases phase → phases' phase) : Holds H' I' K' Unserved phases' begun w :=
  ⟨here _ holds.here, holds.server.mono there idle fun _ _ _ answer => answer, phase _ holds.phase,
    holds.begun⟩

theorem Preparing.canAbort (preparing : Preparing p here there wave attemptId stream begun w) :
    CanAbort p here there attemptId begun w :=
  Holds.weaken preparing (fun _ tidy => tidy.toUntouched) (fun _ tidy => tidy.toUntouched)
    (fun _ _ _ preparing => preparing.abortable) fun _ early => early

theorem PreparedHere.canAbort (prepared : PreparedHere p here there wave attemptId stream begun w) :
    CanAbort p here there attemptId begun w :=
  Holds.weaken prepared (fun _ tidy => tidy.toUntouched) (fun _ tidy => tidy.toUntouched)
    (fun _ _ _ preparing => preparing.abortable) fun _ early => early

theorem PreparedBoth.canAbort (prepared : PreparedBoth p here there wave attemptId begun w) :
    CanAbort p here there attemptId begun w :=
  Holds.weaken prepared (fun _ tidy => tidy.toUntouched) (fun _ tidy => tidy.toUntouched)
    (fun _ _ _ prepared => .prepared prepared) fun _ early => early

variable (allowed : ∀ begun, policy begun ((WaveStage.before here there).sides p))
include allowed

theorem inStage_before {phases : InterruptPhase → Prop}
    (ofHere : ∀ h, H h → h.Untouched p.localState here.1 here.2)
    (ofThere : ∀ h, I h → h.Untouched p.remoteState there.1 there.2) :
    InStage policy ((WaveStage.before here there).sides p) H I phases begun :=
  ⟨ofHere, ofThere, fun _ _ => trivial, allowed begun⟩

/-! ### Abort -/

/-- The abort of the other side. -/
theorem abortRemote_call (ofHere : ∀ h, H h → h.Untouched p.localState here.1 here.2)
    (holds : Holds H (·.Untouched p.remoteState there.1 there.2)
      (fun server _ => server.Abortable p.remoteState attemptId) Unserved EarlyPhase begun w) :
    (clientContract policy).wp (remote (.abortStagedApply attemptId)).run
      (Outcome (fun _ w' => Holds H (fun h => h.Untouched p.remoteState there.1 there.2 ∧
          h.files (applyAttemptPath p.remoteState) = none)
          (fun server _ => server.Abortable p.remoteState attemptId) Unserved EarlyPhase begun w')
        fun w' => Holds H (·.Untouched p.remoteState there.1 there.2)
          (fun server _ => server.Abortable p.remoteState attemptId) Unserved EarlyPhase begun w') w := by
  refine wp_remote (A := fun _ h => h.Untouched p.remoteState there.1 there.2 ∧
      h.files (applyAttemptPath p.remoteState) = none)
    (B := fun _ server _ => server.Abortable p.remoteState attemptId) earlyPhase_steady
    (inStage_before allowed ofHere fun _ known => known) (fun _ known => known) holds
    fun server h known abortable => ?_
  refine Handler.wp_reply (Contract.wp_mono (abortStagedApply_call abortable known)
    fun out h' kept => ?_)
  obtain ⟨untouched, still, gone⟩ := kept
  rcases out with ⟨error | value, server'⟩
  · exact still
  · exact ⟨⟨untouched, gone rfl⟩, still⟩

/-- Both sides abort. -/
theorem abortBoth_call {abort : HostM Unit}
    (aborts : abort = abortStagedApplyAttempt p.localState attemptId)
    (holds : CanAbort p here there attemptId begun w) :
    (clientContract policy).wp (abortBoth abort attemptId).run
      (Outcome (fun errors w' => CanAbort p here there attemptId begun w' ∧
        (errors.1 = none → errors.2 = none → Unmarked p here there begun w')) fun _ => False) w := by
  subst aborts
  unfold abortBoth
  refine wp_then (wp_result (wp_here earlyPhase_steady
    (inStage_before allowed (fun _ known => known) fun _ known => known) (fun _ known => known) holds
    fun h known => abortStagedApplyAttempt_untouched known)) fun mine w₁ after => ?_
  refine wp_then (wp_result (abortRemote_call allowed (fun _ known => known.1) after))
    fun theirs w₂ outcome => ?_
  cases theirs with
  | error error =>
    exact ⟨Holds.weaken outcome (fun _ known => known.1) (fun _ known => known)
      (fun _ _ _ idle => idle) fun _ early => early, fun _ none => nomatch none⟩
  | ok reply =>
    refine ⟨Holds.weaken outcome (fun _ known => known.1) (fun _ known => known.1)
      (fun _ _ _ idle => idle) fun _ early => early, fun none _ => ?_⟩
    cases mine with
    | error error => cases none
    | ok _ =>
      exact Holds.weaken outcome (fun _ known => ⟨known.1, known.2.2 rfl⟩) (fun _ known => known)
        (fun _ _ _ _ => trivial) fun _ _ => trivial

theorem abortAndThrow_call {α : Type} {abort : HostM Unit} {error : Report} {ok : α → World → Prop}
    (aborts : abort = abortStagedApplyAttempt p.localState attemptId)
    (holds : CanAbort p here there attemptId begun w) :
    (clientContract policy).wp (abortAndThrow (α := α) abort attemptId error).run
      (Outcome ok (CanAbort p here there attemptId begun)) w :=
  wp_then (wp_outcome (abortBoth_call allowed aborts holds) (fun _ _ both => both) fun _ => False.elim)
    fun _ _ both => both.1

theorem abortInterrupted_call {α : Type} {abort : HostM Unit} {message : Report} {value : α}
    {R : α → World → Prop} (aborts : abort = abortStagedApplyAttempt p.localState attemptId)
    (holds : CanAbort p here there attemptId begun w)
    (clean : ∀ w', Unmarked p here there begun w' → R value w') :
    (clientContract policy).wp (abortInterrupted abort attemptId message value).run
      (Outcome R (CanAbort p here there attemptId begun)) w := by
  refine wp_then (wp_outcome (abortBoth_call allowed aborts holds) (fun _ _ both => both)
    fun _ => False.elim) fun errors w' both => ?_
  obtain ⟨localCleanup, remoteCleanup⟩ := errors
  dsimp only
  split_ifs with failed
  · exact both.1
  · rw [Bool.or_eq_true, not_or, Option.not_isSome_iff_eq_none, Option.not_isSome_iff_eq_none] at failed
    exact clean w' (both.2 failed.1 failed.2)

/-! ### Streaming -/

/-- The frames of a batch on the own side. -/
theorem applyFrames_call (frames : Nat) {applier : DetailApplier} (of : applier.Of p attemptId)
    (holds : Preparing p here there wave attemptId stream begun w) :
    (clientContract policy).wp (applyFrames applier frames).run
      (Outcome (fun applier w' => applier.Of p attemptId ∧
          Preparing p here there wave attemptId stream begun w')
        (Preparing p here there wave attemptId stream begun)) w := by
  induction frames generalizing applier w with
  | zero => exact ⟨of, holds⟩
  | succ frames ih =>
    unfold applyFrames
    have applied := wp_embed_here earlyPhase_steady (inStage_before allowed
      (fun _ (known : Host.Tidy _ p.localState here.1 here.2 wave) => known.toUntouched)
      fun _ (known : Host.Tidy _ p.remoteState there.1 there.2 wave) => known.toUntouched)
      (fun _ known => known) holds fun h known => applyFrame_tidy of.state known
    refine Contract.wp_run_bind.mpr (Contract.wp_run_lift.mpr
      (Contract.wp_mono applied fun out w₁ after => ?_))
    rcases out with ⟨result, applier₁⟩
    have kept : Preparing p here there wave attemptId stream begun w₁ :=
      { after with here := after.here.1 }
    have still : applier₁.Of p attemptId := ⟨after.here.2.2.1, after.here.2.2.2.trans of.id⟩
    cases result with
    | ok _ => exact ih still kept
    | error error => exact kept

/-- What is sent for the other side leaves its attempt open. -/
theorem sendPart_call (part : SentPart)
    (holds : Preparing p here there wave attemptId stream begun w) :
    (clientContract policy).wp (remote (part.request stream)).run
      (Outcome (fun _ w' => Preparing p here there wave attemptId stream begun w')
        (Preparing p here there wave attemptId stream begun)) w := by
  refine wp_remote (A := fun _ => (·.Tidy p.remoteState there.1 there.2 wave))
    (B := fun _ server _ => server.Preparing p.remoteState attemptId stream) earlyPhase_steady
    (inStage_before allowed (fun _ known => known.toUntouched) fun _ known => known.toUntouched)
    (fun _ known => known) holds fun server h known preparing => ?_
  cases part with
  | frames count =>
    refine Handler.wp_reply (Contract.wp_mono (applyDetailChunks_call count preparing known)
      fun out h' kept => ?_)
    rcases out with ⟨error | value, server'⟩
    · exact kept.2
    · exact kept
  | fileByteChunk =>
    refine Handler.wp_reply (Contract.wp_mono (applyDetailChunk_call preparing known)
      fun out h' kept => ?_)
    rcases out with ⟨error | value, server'⟩
    · exact kept.2
    · exact kept

theorem poll_preparing (holds : Preparing p here there wave attemptId stream begun w)
    {failed : World → Prop} :
    (clientContract policy).wp (interrupt isCancelRequested).run
      (Outcome (fun _ w' => Preparing p here there wave attemptId stream begun w') failed) w :=
  wp_poll earlyPhase_steady (inStage_before allowed (fun _ known => known.toUntouched)
    fun _ known => known.toUntouched) holds

theorem query_preparing (holds : Preparing p here there wave attemptId stream begun w) :
    (clientContract policy).wp (remote .query).run
      (Outcome (fun _ w' => Preparing p here there wave attemptId stream begun w')
        (Preparing p here there wave attemptId stream begun)) w :=
  wp_query earlyPhase_steady (inStage_before allowed (fun _ known => known.toUntouched)
    fun _ known => known.toUntouched) holds

theorem applyDetailFrames_call (parts : List SentPart)
    (holds : Preparing p here there wave attemptId stream begun w) :
    (clientContract policy).wp (applyDetailFrames stream parts).run
      (Outcome (fun _ w' => Preparing p here there wave attemptId stream begun w')
        (Preparing p here there wave attemptId stream begun)) w := by
  induction parts generalizing w with
  | nil => exact holds
  | cons part parts ih =>
    refine wp_then (sendPart_call allowed part holds) fun _ w₁ sent => ?_
    refine wp_then (poll_preparing allowed sent) fun cancelled w₂ polled => ?_
    split_ifs
    · exact polled
    · exact ih polled

theorem receiveFrames_call (received : Option Nat) {applier : DetailApplier}
    (of : applier.Of p attemptId) (holds : Preparing p here there wave attemptId stream begun w) :
    (clientContract policy).wp (receiveFrames applier received).run
      (Outcome (fun applier w' => (∀ found, applier = some found → found.Of p attemptId) ∧
          Preparing p here there wave attemptId stream begun w')
        (Preparing p here there wave attemptId stream begun)) w := by
  cases received with
  | none => exact ⟨fun found same => Option.some.inj same ▸ of, holds⟩
  | some frames =>
    refine wp_then (query_preparing allowed holds) fun _ w₁ asked => ?_
    refine wp_then (poll_preparing allowed asked) fun cancelled w₂ polled => ?_
    split_ifs
    · exact ⟨nofun, polled⟩
    · refine wp_then (applyFrames_call allowed frames of polled) fun applier₁ w₃ applied => ?_
      exact ⟨fun found same => Option.some.inj same ▸ applied.1, applied.2⟩

theorem sendFrames_call (sent : Option (List SentPart))
    (holds : Preparing p here there wave attemptId stream begun w) :
    (clientContract policy).wp (sendFrames stream sent).run
      (Outcome (fun _ w' => Preparing p here there wave attemptId stream begun w')
        (Preparing p here there wave attemptId stream begun)) w := by
  cases sent with
  | none => exact holds
  | some parts =>
    refine wp_then (poll_preparing allowed holds) fun cancelled w₁ polled => ?_
    split_ifs
    · exact polled
    · refine wp_then (wp_check earlyPhase_steady (inStage_before allowed
        (fun _ known => known.toUntouched) fun _ known => known.toUntouched) polled)
        fun _ w₂ checked => ?_
      exact applyDetailFrames_call allowed parts checked

theorem streamRounds_call (rounds : List Round) {applier : DetailApplier}
    (of : applier.Of p attemptId) (holds : Preparing p here there wave attemptId stream begun w) :
    (clientContract policy).wp (streamRounds stream applier rounds).run
      (Outcome (fun applier w' => (∀ found, applier = some found → found.Of p attemptId) ∧
          Preparing p here there wave attemptId stream begun w')
        (Preparing p here there wave attemptId stream begun)) w := by
  induction rounds generalizing applier w with
  | nil => exact ⟨fun found same => Option.some.inj same ▸ of, holds⟩
  | cons round rounds ih =>
    refine wp_then (poll_preparing allowed holds) fun cancelled w₁ polled => ?_
    split_ifs
    · exact ⟨nofun, polled⟩
    · refine wp_then (receiveFrames_call allowed round.received of polled) fun applier₁ w₂ got => ?_
      cases applier₁ with
      | none => exact ⟨nofun, got.2⟩
      | some applier₁ =>
        refine wp_then (sendFrames_call allowed round.sent got.2) fun went w₃ sent => ?_
        split_ifs
        · exact ih (got.1 _ rfl) sent
        · exact ⟨nofun, sent⟩

/-- What the streaming of a wave comes to. -/
def Streamed (p : Profile) (here there : Option HostFile × TargetTree) (wave : Nat)
    (attemptId : String) (begun : List (Nat × String)) : StreamDetailedChangesRun → World → Prop
  | .complete prepared, w =>
    prepared.inner.Of p attemptId ∧ PreparedBoth p here there wave attemptId begun w
  | .interrupted, w => CanAbort p here there attemptId begun w
  | .interruptedCleaned, w => Unmarked p here there begun w

/-- The end of the preparation on the own side. -/
theorem finishPreparationHere_call {applier : DetailApplier} (of : applier.Of p attemptId)
    (holds : Preparing p here there wave attemptId stream begun w) :
    (clientContract policy).wp (Duet.here applier.finishPreparation).run
      (Outcome (fun prepared w' => prepared.inner.Of p attemptId ∧
          PreparedHere p here there wave attemptId stream begun w')
        (CanAbort p here there attemptId begun)) w := by
  refine Contract.wp_mono (wp_here earlyPhase_steady (inStage_before allowed
    (fun _ (known : Host.Tidy _ p.localState here.1 here.2 wave) => known.toUntouched)
    fun _ (known : Host.Tidy _ p.remoteState there.1 there.2 wave) => known.toUntouched)
    (fun _ known => known) holds fun h known => finishPreparation_tidy of.state of.id known)
    fun result w₁ after => ?_
  cases result with
  | error error =>
    have kept : Preparing p here there wave attemptId stream begun w₁ :=
      { after with here := after.here.1 }
    exact kept.canAbort
  | ok prepared =>
    obtain ⟨inner, ready⟩ := after.here.2.2 prepared rfl
    exact ⟨inner ▸ of, { after with here := ready }⟩

/-- The end of the preparation on the other side. -/
theorem finishPreparationThere_call
    (holds : PreparedHere p here there wave attemptId stream begun w) :
    (clientContract policy).wp (remote (.finishStagedPrepare stream attemptId)).run
      (Outcome (fun _ w' => PreparedBoth p here there wave attemptId begun w')
        (CanAbort p here there attemptId begun)) w := by
  refine wp_outcome (wp_remote
    (A := fun _ => (·.Prepared p.remoteState there.1 there.2 wave attemptId))
    (B := fun _ server _ => server.Prepared p.remoteState attemptId)
    (D := fun server _ => server.Abortable p.remoteState attemptId) earlyPhase_steady
    (inStage_before allowed (fun _ known => known.toUntouched) fun _ known => known.toUntouched)
    (fun _ known => known) holds fun server h known preparing => ?_)
    (fun _ _ both => both) fun _ failed => ?_
  · refine Handler.wp_reply (Contract.wp_mono (finishStagedPrepareInner_call preparing known)
      fun out h' kept => ?_)
    obtain ⟨-, abortable, done⟩ := kept
    rcases out with ⟨error | value, server'⟩
    · exact abortable
    · exact ⟨(done rfl).2, (done rfl).1⟩
  · exact Holds.weaken failed (fun _ known => known.toUntouched) (fun _ known => known.toUntouched)
      (fun _ _ _ idle => idle) fun _ early => early

theorem streamDetailedChangesStarted_call {context : SyncContext} (plan : RunPlan)
    (wc : WaveContext) (ofContext : context = p.context)
    (holds : Preparing p here there wave wc.attemptId stream begun w) :
    (clientContract policy).wp (streamDetailedChangesStarted context plan wc stream).run
      (Outcome (Streamed p here there wave wc.attemptId begun)
        (CanAbort p here there wc.attemptId begun)) w := by
  subst ofContext
  have aborted : ∀ {α : Type} {part : ClientM α} {ok : α → World → Prop} {w : World},
      (clientContract policy).wp part.run (Outcome ok
        (Preparing p here there wave wc.attemptId stream begun)) w →
      (clientContract policy).wp part.run (Outcome ok (CanAbort p here there wc.attemptId begun)) w :=
    fun holds => wp_outcome holds (fun _ _ known => known) fun _ preparing => preparing.canAbort
  refine wp_then (poll_preparing allowed holds) fun cancelled w₁ polled => ?_
  split
  · exact polled.canAbort
  refine wp_then (aborted (query_preparing allowed polled)) fun _ w₂ asked => ?_
  refine wp_then (poll_preparing allowed asked) fun cancelled w₃ polled => ?_
  split
  · exact polled.canAbort
  refine wp_then (aborted (streamRounds_call allowed wc.rounds ⟨rfl, rfl⟩ polled))
    fun applier w₄ streamed => ?_
  cases applier with
  | none => exact streamed.2.canAbort
  | some applier =>
    refine wp_then (poll_preparing allowed streamed.2) fun cancelled w₅ polled => ?_
    split
    · exact polled.canAbort
    refine wp_then (finishPreparationHere_call allowed (streamed.1 _ rfl) polled)
      fun prepared w₆ finished => ?_
    refine wp_then (wp_poll earlyPhase_steady (inStage_before allowed (fun _ known => known.toUntouched)
      fun _ known => known.toUntouched) finished.2) fun cancelled w₇ polled => ?_
    have preparedHere : PreparedHere p here there wave wc.attemptId stream begun w₇ := polled
    split
    · exact abortInterrupted_call allowed finished.1.abort preparedHere.canAbort
        fun _ unmarked => unmarked
    refine wp_then (finishPreparationThere_call allowed preparedHere) fun _ w₈ both => ?_
    split
    · refine wp_then (wp_outcome (wp_query earlyPhase_steady (inStage_before allowed
        (fun _ known => known.toUntouched) fun _ known => known.toUntouched) both)
        (fun _ _ known => known) fun _ failed => PreparedBoth.canAbort failed) fun _ w₉ asked => ?_
      exact ⟨finished.1, asked⟩
    · exact ⟨finished.1, both⟩

/-- What a wave is when it may commit, or has been given up. -/
def WaveReady (p : Profile) (here there : Option HostFile × TargetTree) (wave : Nat)
    (attemptId : String) (begun : List (Nat × String)) : Option PreparedApply → World → Prop
  | some prepared, w =>
    prepared.inner.Of p attemptId ∧ PreparedBoth p here there wave attemptId begun w
  | none, w => Unmarked p here there begun w

theorem endStreaming_call {context : SyncContext} (wc : WaveContext)
    (ofContext : context = p.context) {result : Except Report StreamDetailedChangesRun}
    (holds : Outcome (Streamed p here there wave wc.attemptId begun)
      (CanAbort p here there wc.attemptId begun) result w) :
    (clientContract policy).wp (endStreaming context wc result).run
      (Outcome (WaveReady p here there wave wc.attemptId begun)
        (CanAbort p here there wc.attemptId begun)) w := by
  subst ofContext
  rcases result with error | run
  · exact abortAndThrow_call allowed rfl holds
  · cases run with
    | complete prepared => exact holds
    | interrupted => exact abortInterrupted_call allowed rfl holds fun _ unmarked => unmarked
    | interruptedCleaned => exact holds

/-- Neither side has a marker, and a wave is begun. -/
def WaveBegun (p : Profile) (here there : Option HostFile × TargetTree) (wave : Nat)
    (begun : List (Nat × String)) (w : World) : Prop :=
  Holds
    (fun h => h.Tidy p.localState here.1 here.2 wave ∧
      h.files (applyAttemptPath p.localState) = none)
    (fun h => h.Tidy p.remoteState there.1 there.2 wave ∧
      h.files (applyAttemptPath p.remoteState) = none)
    (fun server _ => server.Calm p.remoteState) Unserved EarlyPhase begun w

/-- The client has given up, before anything was committed. -/
def Stopped (p : Profile) (here there : Option HostFile × TargetTree)
    (begun : List (Nat × String)) (w : World) : Prop :=
  Holds (·.Untouched p.localState here.1 here.2) (·.Untouched p.remoteState there.1 there.2)
    (fun _ _ => True) Unserved AnyPhase begun w

omit allowed in
theorem CanAbort.stopped (holds : CanAbort p here there attemptId begun w) :
    Stopped p here there begun w :=
  Holds.weaken holds (fun _ known => known) (fun _ known => known) (fun _ _ _ _ => trivial)
    fun _ _ => trivial

omit allowed in
theorem WaveBegun.unmarked (holds : WaveBegun p here there wave begun w) :
    Unmarked p here there begun w :=
  Holds.weaken holds (fun _ known => ⟨known.1.toUntouched, known.2⟩)
    (fun _ known => ⟨known.1.toUntouched, known.2⟩) (fun _ _ _ _ => trivial) fun _ _ => trivial

/-- The attempt is begun on the other side. -/
theorem beginThere_call (holds : WaveBegun p here there wave begun w) :
    (clientContract policy).wp (remote (.beginStagedApply attemptId)).run
      (Outcome (fun reply w' => Stopped p here there begun w' ∧ ∀ stream, reply = .stream stream →
          Holds (fun h => h.Tidy p.localState here.1 here.2 wave ∧
              h.files (applyAttemptPath p.localState) = none)
            (·.Tidy p.remoteState there.1 there.2 wave)
            (fun server _ => server.Preparing p.remoteState attemptId stream) Unserved EarlyPhase
            begun w')
        (Stopped p here there begun)) w := by
  refine wp_outcome (wp_remote (A := fun _ => (·.Tidy p.remoteState there.1 there.2 wave))
    (B := fun reply server _ => ∀ stream, reply = .stream stream →
      server.Preparing p.remoteState attemptId stream)
    (D := fun _ _ => True) earlyPhase_steady
    (inStage_before allowed (fun _ known => known.1.toUntouched) fun _ known => known.toUntouched)
    (fun _ known => known.1) holds fun server h known calm => ?_)
    (fun reply _ after => ⟨Holds.weaken after (fun _ known => known.1.toUntouched)
      (fun _ known => known.toUntouched) (fun _ _ _ _ => trivial) fun _ _ => trivial,
      fun stream same => Holds.weaken after (fun _ known => known) (fun _ known => known)
      (fun _ _ _ idle => idle stream same) fun _ early => early⟩)
    fun _ failed => Holds.weaken failed (fun _ known => known.1.toUntouched)
      (fun _ known => known.toUntouched) (fun _ _ _ _ => trivial) fun _ _ => trivial
  refine Handler.wp_reply (Contract.wp_mono (beginStagedApply_call calm known.1)
    fun out h' kept => ?_)
  obtain ⟨tidy, preparing⟩ := kept
  rcases out with ⟨error | id, server'⟩
  · trivial
  · refine ⟨tidy, fun stream same => ?_⟩
    cases same
    exact preparing id rfl

theorem streamDetailedChanges_call {context : SyncContext} (plan : RunPlan) (wc : WaveContext)
    (ofContext : context = p.context) (holds : WaveBegun p here there wave begun w) :
    (clientContract policy).wp (streamDetailedChanges context plan wc).run
      (Outcome (WaveReady p here there wave wc.attemptId begun) (Stopped p here there begun)) w := by
  subst ofContext
  refine wp_then (wp_poll earlyPhase_steady (inStage_before allowed (fun _ known => known.1.toUntouched)
    fun _ known => known.1.toUntouched) holds) fun cancelled w₁ polled => ?_
  have begunHere : WaveBegun p here there wave begun w₁ := polled
  split_ifs
  · exact begunHere.unmarked
  refine wp_then (beginThere_call allowed begunHere) fun reply w₂ after => ?_
  cases reply with
  | stream stream =>
    refine wp_then (wp_poll earlyPhase_steady (inStage_before allowed (fun _ known => known.1.toUntouched)
      fun _ known => known.toUntouched) (after.2 stream rfl)) fun cancelled w₃ polled => ?_
    split_ifs
    · refine wp_then (wp_result (abortRemote_call allowed (fun _ known => known.1.toUntouched)
        (polled.weaken (fun _ known => known) (fun _ known => known.toUntouched)
          (fun _ _ _ preparing => preparing.abortable) fun _ early => early))) fun result w₄ outcome => ?_
      cases result with
      | ok _ =>
        exact Holds.weaken outcome (fun _ known => ⟨known.1.toUntouched, known.2⟩)
          (fun _ known => known) (fun _ _ _ _ => trivial) fun _ _ => trivial
      | error _ =>
        exact Holds.weaken outcome (fun _ known => known.1.toUntouched) (fun _ known => known)
          (fun _ _ _ _ => trivial) fun _ _ => trivial
    · refine wp_then (wp_result (wp_here earlyPhase_steady (inStage_before allowed
        (fun _ known => known.toUntouched) fun _ known => known.toUntouched)
        (fun _ known => known.1) polled fun h known =>
          startStagedApplyAttempt_tidy "local" p.context.localBase wc.actions known.1))
        fun result w₄ begunBoth => ?_
      have preparing : Preparing p here there wave wc.attemptId stream begun w₄ :=
        { begunBoth with here := begunBoth.here.1 }
      cases result with
      | error error =>
        refine wp_then (wp_result (abortRemote_call allowed (fun _ known => known)
          preparing.canAbort)) fun result w₅ outcome => ?_
        cases result with
        | ok _ =>
          exact Holds.weaken outcome (fun _ known => known) (fun _ known => known.1)
            (fun _ _ _ _ => trivial) fun _ _ => trivial
        | error _ =>
          exact Holds.weaken outcome (fun _ known => known) (fun _ known => known)
            (fun _ _ _ _ => trivial) fun _ _ => trivial
      | ok _ =>
        refine wp_then (wp_result (streamDetailedChangesStarted_call allowed plan wc rfl
          preparing)) fun result w₅ outcome => ?_
        exact wp_outcome (endStreaming_call allowed wc rfl outcome) (fun _ _ known => known)
          fun _ failed => failed.stopped
  | _ => exact after.1

end Before

end Duet
