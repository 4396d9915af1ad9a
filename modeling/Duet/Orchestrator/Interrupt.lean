import Duet.Lib.Program
import Mathlib.Logic.Relation

/-!
# Interrupts

The state that the synchronization shares with the handler of Ctrl-C. It is one atomic word;
each side loads it and exchanges it. The handler asks for an interrupt, and the synchronization
asks whether to stop, begins a commit, goes back after a checkpoint, and completes.
-/

namespace Duet

open Lib

inductive InterruptPhase where
  | preCommit
  | cancelRequested
  | committed
  | committedInterrupted
  | complete
  | completeInterrupted
deriving DecidableEq, Repr

inductive InterruptRequest where
  | cancel
  | deferred
  | force
deriving DecidableEq, Repr

inductive PhaseOp where
  | load
  | compareExchange (expected next : InterruptPhase)

/-- What an atomic operation answers: the word, or an error with the word that was found. -/
abbrev PhaseOp.Value : PhaseOp → Type
  | .load => InterruptPhase
  | .compareExchange _ _ => Except InterruptPhase Unit

abbrev phaseEffects : Effects where
  Op := PhaseOp
  Reply op := op.Value

namespace InterruptPhase

/-- One atomic operation on the word. -/
def exec : (op : PhaseOp) → InterruptPhase → op.Value → InterruptPhase → Prop
  | .load, phase, found, phase' => phase' = phase ∧ found = phase
  | .compareExchange expected next, phase, result, phase' =>
    if phase = expected then result = .ok () ∧ phase' = next
    else result = .error phase ∧ phase' = phase

end InterruptPhase

abbrev PhaseM := Program phaseEffects

def loadPhase : PhaseM InterruptPhase := Program.perform (E := phaseEffects) .load

def compareExchange (expected next : InterruptPhase) : PhaseM (Except InterruptPhase Unit) :=
  Program.perform (E := phaseEffects) (.compareExchange expected next)

/-- The end of a round of a loop that exchanges the word: there is no result when another
thread changed the word in between. -/
def exchangePhase {α : Type} (phase next : InterruptPhase) (result : α) : PhaseM (Option α) := do
  match ← compareExchange phase next with
  | .ok _ => return some result
  | .error _ => return none

/-! ## The handler -/

/-- One round of the loop of `request_interrupt`. -/
def requestInterruptRound : PhaseM (Option InterruptRequest) := do
  match ← loadPhase with
  | .preCommit => exchangePhase .preCommit .cancelRequested .cancel
  | .committed => exchangePhase .committed .committedInterrupted .deferred
  | .complete => exchangePhase .complete .completeInterrupted .deferred
  | .cancelRequested | .committedInterrupted | .completeInterrupted => return some .force

/-- The loop, with a bound on its rounds. -/
def requestInterrupt : Nat → PhaseM (Option InterruptRequest)
  | 0 => return none
  | rounds + 1 => do
    match ← requestInterruptRound with
    | some result => return some result
    | none => requestInterrupt rounds

/-! ## The synchronization -/

def isCancelRequested : PhaseM Bool := do
  let phase ← loadPhase
  return phase = .cancelRequested

def tryBeginCommit : PhaseM Bool := do
  match ← compareExchange .preCommit .committed with
  | .ok _ => return true
  | .error _ => return false

/-- The answer of `try_reset_after_checkpoint`, and nothing where it panics. -/
def tryResetAfterCheckpoint : PhaseM (Option Bool) := do
  match ← compareExchange .committed .preCommit with
  | .ok _ =>
    let cancelled ← isCancelRequested
    return some (!cancelled)
  | .error .committedInterrupted => return some false
  | .error .cancelRequested => return some false
  | .error _ => return none

/-- One round of the loop of `complete`. -/
def completeRound : PhaseM (Option Bool) := do
  match ← loadPhase with
  | .preCommit => exchangePhase .preCommit .complete false
  | .committed => exchangePhase .committed .complete false
  | .committedInterrupted => exchangePhase .committedInterrupted .completeInterrupted false
  | .cancelRequested => return some true
  | .complete | .completeInterrupted => return some false

/-- The loop, with a bound on its rounds. -/
def complete : Nat → PhaseM (Option Bool)
  | 0 => return none
  | rounds + 1 => do
    match ← completeRound with
    | some result => return some result
    | none => complete rounds

/-! ## The changes of the word -/

/-- The word after an interrupt that did not force the process to exit. -/
inductive InterruptPhase.Interrupted : InterruptPhase → InterruptPhase → Prop where
  | cancel : Interrupted .preCommit .cancelRequested
  | committed : Interrupted .committed .committedInterrupted
  | complete : Interrupted .complete .completeInterrupted

/-- The word after the end of the synchronization. -/
inductive InterruptPhase.Completed : InterruptPhase → InterruptPhase → Prop where
  | preCommit : Completed .preCommit .complete
  | committed : Completed .committed .complete
  | interrupted : Completed .committedInterrupted .completeInterrupted

/-- The changes of the word within a run. -/
inductive InterruptPhase.Next : InterruptPhase → InterruptPhase → Prop where
  | interrupted {phase phase' : InterruptPhase} (interrupted : phase.Interrupted phase') :
      Next phase phase'
  | commit : Next .preCommit .committed
  | reset : Next .committed .preCommit
  | completed {phase phase' : InterruptPhase} (completed : phase.Completed phase') :
      Next phase phase'

/-- An interrupt leaves what is known about the word. -/
def Steady (phases : InterruptPhase → Prop) : Prop :=
  ∀ ⦃phase phase'⦄, phase.Interrupted phase' → phases phase → phases phase'

/-- The end of the synchronization leaves what is known about the word. -/
def Lasting (phases : InterruptPhase → Prop) : Prop :=
  ∀ ⦃phase phase'⦄, phase.Completed phase' → phases phase → phases phase'

/-- The word of the synchronization, with the handler of interrupts. What is kept of the word
holds after every operation. -/
def phaseContract (kept : InterruptPhase → Prop) : Contract phaseEffects InterruptPhase where
  exec := InterruptPhase.exec
  rely := Relation.ReflTransGen InterruptPhase.Interrupted
  guar phase phase' := kept phase' ∧ (phase' = phase ∨ phase.Next phase')

/-! ### Sets of phases -/

/-- Every phase of interrupts. -/
def AnyPhase : InterruptPhase → Prop := fun _ => True

/-- Nothing of the wave is committed. -/
def EarlyPhase (phase : InterruptPhase) : Prop := phase = .preCommit ∨ phase = .cancelRequested

/-- An interrupt is deferred. -/
def CommitPhase (phase : InterruptPhase) : Prop :=
  phase = .committed ∨ phase = .committedInterrupted

/-- The synchronization does not stop for an interrupt any more. -/
def LatePhase (phase : InterruptPhase) : Prop := ¬EarlyPhase phase

theorem anyPhase_steady : Steady AnyPhase := fun _ _ _ _ => trivial

theorem anyPhase_lasting : Lasting AnyPhase := fun _ _ _ _ => trivial

theorem earlyPhase_steady : Steady EarlyPhase := by
  intro phase phase' interrupted early
  rcases early with rfl | rfl
  · cases interrupted
    exact .inr rfl
  · cases interrupted

theorem commitPhase_steady : Steady CommitPhase := by
  intro phase phase' interrupted committed
  rcases committed with rfl | rfl
  · cases interrupted
    exact .inr rfl
  · cases interrupted

theorem latePhase_steady : Steady LatePhase := by
  intro phase phase' interrupted late
  cases interrupted with
  | cancel => exact absurd (.inl rfl) late
  | committed => exact nofun
  | complete => exact nofun

theorem latePhase_lasting : Lasting LatePhase := by
  intro phase phase' completed late
  cases completed <;> exact nofun

theorem CommitPhase.late {phase : InterruptPhase} (committed : CommitPhase phase) :
    LatePhase phase := by
  rcases committed with rfl | rfl <;> exact nofun

theorem Steady.star {phases : InterruptPhase → Prop} {phase phase' : InterruptPhase}
    (steady : Steady phases) (related : Relation.ReflTransGen InterruptPhase.Interrupted phase phase')
    (known : phases phase) : phases phase' := by
  induction related with
  | refl => exact known
  | tail _ interrupted ih => exact steady interrupted ih

/-- An interrupt has been deferred, and the run ends with the wave that it commits. -/
def DeferredPhase (phase : InterruptPhase) : Prop :=
  phase = .committedInterrupted ∨ phase = .completeInterrupted

theorem DeferredPhase.next {phase phase' : InterruptPhase} (deferred : DeferredPhase phase)
    (next : phase.Next phase') : DeferredPhase phase' := by
  rcases deferred with rfl | rfl
  · cases next with
    | interrupted interrupted => cases interrupted
    | completed completed =>
      cases completed
      exact .inr rfl
  · cases next with
    | interrupted interrupted => cases interrupted
    | completed completed => cases completed

theorem DeferredPhase.late {phase : InterruptPhase} (deferred : DeferredPhase phase) :
    LatePhase phase := by
  rcases deferred with rfl | rfl <;> exact nofun

/-- A run that is cancelled stays so. -/
theorem InterruptPhase.Next.not_cancelled {phase : InterruptPhase} :
    ¬InterruptPhase.cancelRequested.Next phase := by
  intro next
  cases next with
  | interrupted interrupted => cases interrupted
  | completed completed => cases completed

/-- There is nothing to do any more for an interrupt. -/
def Answered (phase : InterruptPhase) : Prop := ∃ seen : InterruptPhase, seen.Interrupted phase

theorem Answered.last {phase phase' : InterruptPhase} (answered : Answered phase) :
    ¬phase.Interrupted phase' := by
  obtain ⟨seen, interrupted⟩ := answered
  cases interrupted <;> exact nofun

theorem answered_steady : Steady Answered :=
  fun _ _ interrupted answered => absurd interrupted answered.last

/-- Only one interrupt is accepted between two changes of the synchronization. -/
theorem InterruptPhase.Interrupted.of_star {seen found : InterruptPhase}
    (related : Relation.ReflTransGen InterruptPhase.Interrupted seen found) (other : found ≠ seen) :
    seen.Interrupted found := by
  rcases related.cases_head with rfl | ⟨middle, first, rest⟩
  · exact absurd rfl other
  · have same : found = middle := by
      rcases rest.cases_head with rfl | ⟨_, second, _⟩
      · rfl
      · exact absurd second (Answered.last ⟨seen, first⟩)
    exact same ▸ first

/-! ### What the programs do to the word -/

section Programs

variable {kept phases : InterruptPhase → Prop} {phase : InterruptPhase} {α : Type}
  {Q : α → InterruptPhase → Prop}

/-- An operation that reads the word. -/
theorem wp_load {next : InterruptPhase → PhaseM α} (steady : Steady phases)
    (inside : ∀ phase, phases phase → kept phase) (known : phases phase)
    (continues : ∀ found, phases found → (phaseContract kept).wp (next found) Q found) :
    (phaseContract kept).wp (loadPhase >>= next) Q phase := by
  intro current related found phase' run
  obtain ⟨rfl, rfl⟩ := run
  have still : phases found := steady.star related known
  exact ⟨⟨inside _ still, .inl rfl⟩, continues found still⟩

/-- An operation that exchanges the word. -/
theorem wp_compareExchange {expected new : InterruptPhase}
    {next : Except InterruptPhase Unit → PhaseM α} (steady : Steady phases)
    (inside : ∀ phase, phases phase → kept phase) (known : phases phase) (allowed : expected.Next new)
    (swapped : phases expected → kept new ∧ (phaseContract kept).wp (next (.ok ())) Q new)
    (failed : ∀ found, Relation.ReflTransGen InterruptPhase.Interrupted phase found →
      phases found → found ≠ expected → (phaseContract kept).wp (next (.error found)) Q found) :
    (phaseContract kept).wp (compareExchange expected new >>= next) Q phase := by
  intro current related reply phase' run
  have still : phases current := steady.star related known
  have exchanged : if current = expected then reply = .ok () ∧ phase' = new
      else reply = .error current ∧ phase' = current := run
  split at exchanged
  · next same =>
    obtain ⟨rfl, rfl⟩ := exchanged
    subst same
    exact ⟨⟨(swapped still).1, .inr allowed⟩, (swapped still).2⟩
  · next other =>
    obtain ⟨rfl, rfl⟩ := exchanged
    exact ⟨⟨inside _ still, .inl rfl⟩, failed _ related still other⟩

theorem isCancelRequested_spec (steady : Steady phases)
    (inside : ∀ phase, phases phase → kept phase) (known : phases phase) :
    (phaseContract kept).wp isCancelRequested
      (fun cancelled phase' => phases phase' ∧ (cancelled = true → phase' = .cancelRequested)) phase :=
  wp_load steady inside known fun _ still => ⟨still, of_decide_eq_true⟩

/-- A commit begins only before an interrupt. -/
theorem tryBeginCommit_spec (early : EarlyPhase phase) :
    (phaseContract AnyPhase).wp tryBeginCommit (fun begins phase' =>
      if begins then phase' = .committed else phase' = .cancelRequested) phase := by
  refine wp_compareExchange earlyPhase_steady (fun _ _ => trivial) early .commit
    (fun _ => ⟨trivial, rfl⟩) fun found _ still other => ?_
  rcases still with rfl | rfl
  · exact absurd rfl other
  · rfl

/-- After a commit the phase is one that the checkpoint expects, so that it does not panic. -/
theorem tryResetAfterCheckpoint_spec (committed : CommitPhase phase) :
    (phaseContract AnyPhase).wp tryResetAfterCheckpoint (fun reset phase' =>
      (reset = some true ∧ EarlyPhase phase') ∨
      (reset = some false ∧ (phase' = .cancelRequested ∨ phase' = .committedInterrupted))) phase := by
  refine wp_compareExchange commitPhase_steady (fun _ _ => trivial) committed .reset
    (fun _ => ⟨trivial, ?_⟩) fun _ _ still other => ?_
  · refine wp_load earlyPhase_steady (fun _ _ => trivial) (.inl rfl) fun _ still => ?_
    rcases still with rfl | rfl
    · exact .inl ⟨rfl, .inl rfl⟩
    · exact .inr ⟨rfl, .inl rfl⟩
  · rcases still with rfl | rfl
    · exact absurd rfl other
    · exact .inr ⟨rfl, .inr rfl⟩

/-- The end of a run leaves the word cancelled, or complete. -/
def Completes (result : Option Bool) (phase : InterruptPhase) : Prop :=
  (result = some true ∧ phase = .cancelRequested) ∨
    (result = some false ∧ (phase = .complete ∨ phase = .completeInterrupted))

/-- One round of `complete` settles the word, or an interrupt came in between. -/
theorem completeRound_spec (steady : Steady phases) (inside : ∀ phase, phases phase → kept phase)
    (lasting : Lasting kept) (known : phases phase) :
    (phaseContract kept).wp completeRound (fun result phase' => kept phase' ∧
      (Completes result phase' ∨ (result = none ∧ phases phase' ∧
        ∃ seen, phases seen ∧ seen.Interrupted phase'))) phase := by
  refine wp_load steady inside known fun found still => ?_
  have exchange : ∀ next : InterruptPhase, found.Completed next →
      next = .complete ∨ next = .completeInterrupted →
      (phaseContract kept).wp (exchangePhase found next false) (fun result phase' => kept phase' ∧
      (Completes result phase' ∨ (result = none ∧ phases phase' ∧
        ∃ seen, phases seen ∧ seen.Interrupted phase'))) found := fun next completed ends =>
    wp_compareExchange steady inside still (.completed completed)
      (fun _ => have settled := lasting completed (inside _ still)
        ⟨settled, settled, .inl (.inr ⟨rfl, ends⟩)⟩)
      fun current related seen other => ⟨inside _ seen, .inr ⟨rfl, seen, found, still,
        .of_star related other⟩⟩
  cases found with
  | preCommit => exact exchange .complete .preCommit (.inl rfl)
  | committed => exact exchange .complete .committed (.inl rfl)
  | committedInterrupted => exact exchange .completeInterrupted .interrupted (.inr rfl)
  | cancelRequested => exact ⟨inside _ still, .inl (.inl ⟨rfl, rfl⟩)⟩
  | complete => exact ⟨inside _ still, .inl (.inr ⟨rfl, .inl rfl⟩)⟩
  | completeInterrupted => exact ⟨inside _ still, .inl (.inr ⟨rfl, .inr rfl⟩)⟩

/-- Two rounds are enough for `complete`. -/
theorem complete_spec (steady : Steady kept) (lasting : Lasting kept) (known : kept phase) :
    (phaseContract kept).wp (complete 2) (fun result phase' => kept phase' ∧ Completes result phase')
      phase := by
  refine Contract.wp_bind.mpr (Contract.wp_mono
    (completeRound_spec steady (fun _ known => known) lasting known) fun result phase₁ round => ?_)
  obtain ⟨known₁, settled | ⟨rfl, -, seen, -, interrupted⟩⟩ := round
  · cases result with
    | some result => exact ⟨known₁, settled⟩
    | none => rcases settled with ⟨none, -⟩ | ⟨none, -⟩ <;> cases none
  · have both : Steady fun phase => kept phase ∧ Answered phase := fun _ _ interrupted holds =>
      ⟨steady interrupted holds.1, answered_steady interrupted holds.2⟩
    refine Contract.wp_bind.mpr (Contract.wp_mono (completeRound_spec both (fun _ holds => holds.1)
      lasting ⟨known₁, seen, interrupted⟩) fun result phase₂ round => ?_)
    obtain ⟨known₂, settled | ⟨-, -, seen', holds, interrupted'⟩⟩ := round
    · cases result with
      | some result => exact ⟨known₂, settled⟩
      | none => rcases settled with ⟨none, -⟩ | ⟨none, -⟩ <;> cases none
    · exact absurd interrupted' holds.2.last

/-- One round of `request_interrupt` answers, or another interrupt came in between. -/
theorem requestInterruptRound_spec (steady : Steady phases) (known : phases phase) :
    (phaseContract AnyPhase).wp requestInterruptRound (fun result phase' => result = none →
      phases phase' ∧ ∃ seen, phases seen ∧ seen.Interrupted phase') phase := by
  refine wp_load steady (fun _ _ => trivial) known fun found still => ?_
  have exchange : ∀ (next : InterruptPhase) (request : InterruptRequest), found.Interrupted next →
      (phaseContract AnyPhase).wp (exchangePhase found next request) (fun result phase' =>
        result = none → phases phase' ∧ ∃ seen, phases seen ∧ seen.Interrupted phase') found :=
    fun next request interrupted => wp_compareExchange steady (fun _ _ => trivial) still
      (.interrupted interrupted) (fun _ => ⟨trivial, nofun⟩)
      fun current related seen other => fun _ => ⟨seen, found, still, .of_star related other⟩
  cases found with
  | preCommit => exact exchange _ _ .cancel
  | committed => exact exchange _ _ .committed
  | complete => exact exchange _ _ .complete
  | _ => exact nofun

/-- Two rounds are enough for an interrupt at the prompt, which the synchronization notes
itself. -/
theorem requestInterrupt_spec (phase : InterruptPhase) :
    (phaseContract AnyPhase).wp (requestInterrupt 2) (fun result _ => result ≠ none) phase := by
  refine Contract.wp_bind.mpr (Contract.wp_mono
    (requestInterruptRound_spec anyPhase_steady trivial) fun result phase₁ round => ?_)
  cases result with
  | some request => exact nofun
  | none =>
    obtain ⟨-, seen, -, interrupted⟩ := round rfl
    refine Contract.wp_bind.mpr (Contract.wp_mono
      (requestInterruptRound_spec answered_steady ⟨seen, interrupted⟩) fun result phase₂ round => ?_)
    cases result with
    | some request => exact nofun
    | none =>
      obtain ⟨-, seen', answered, interrupted'⟩ := round rfl
      exact absurd interrupted' answered.last

end Programs

end Duet
