import Duet.Orchestrator.Interrupt

/-!
# The handler of interrupts

The handler exchanges the word while the synchronization changes it as well. What the handler
answers is what it did: for `cancel` and `deferred` it changed the word once, and for `force` it
left the word alone. A round that is lost to the synchronization leaves no trace, so that as many
rounds are enough as the synchronization makes changes, and one.
-/

namespace Duet

open Lib

/-- The word, the changes that the handler has made, and how many changes the synchronization
may still make. -/
structure HandledWord where
  phase : InterruptPhase
  accepted : List (InterruptPhase × InterruptPhase)
  left : Nat

namespace HandledWord

/-- One change by the synchronization, or by another handler. -/
structure Changed (word word' : HandledWord) : Prop where
  phase : word.phase.Next word'.phase
  accepted : word'.accepted = word.accepted
  left : word'.left + 1 = word.left

/-- One operation of the handler. -/
def exec (op : PhaseOp) (word : HandledWord) (reply : op.Value) (word' : HandledWord) : Prop :=
  InterruptPhase.exec op word.phase reply word'.phase ∧ word'.left = word.left ∧
    word'.accepted = word.accepted ++
      if word'.phase = word.phase then [] else [(word.phase, word'.phase)]

end HandledWord

/-- A handler makes no change but an interrupt. -/
def handlerContract : Contract phaseEffects HandledWord where
  exec := HandledWord.exec
  rely := Relation.ReflTransGen HandledWord.Changed
  guar word word' := word'.phase = word.phase ∨ word.phase.Interrupted word'.phase

/-- What an answer of the handler says about its changes. -/
inductive InterruptRequest.Tells : InterruptRequest → List (InterruptPhase × InterruptPhase) → Prop
  | cancel : Tells .cancel [(.preCommit, .cancelRequested)]
  | committed : Tells .deferred [(.committed, .committedInterrupted)]
  | complete : Tells .deferred [(.complete, .completeInterrupted)]
  | force : Tells .force []

section Handler

variable {word word' : HandledWord}

theorem HandledWord.Changed.star (related : Relation.ReflTransGen HandledWord.Changed word word') :
    word'.accepted = word.accepted ∧ word'.left ≤ word.left ∧
      (word'.phase ≠ word.phase → word'.left < word.left) := by
  induction related with
  | refl => exact ⟨rfl, Nat.le_refl _, fun other => absurd rfl other⟩
  | tail _ changed ih =>
    have spent := changed.left
    exact ⟨changed.accepted.trans ih.1, by omega, fun _ => by omega⟩

/-- The end of a round: the word was as it had been seen, or the synchronization has changed
it. -/
theorem exchangePhase_handles {seen next : InterruptPhase} {request : InterruptRequest}
    (interrupted : seen.Interrupted next) (tells : request.Tells [(seen, next)])
    (found : word.phase = seen) :
    handlerContract.wp (exchangePhase seen next request) (fun result word' =>
      (result = some request ∧ word'.accepted = word.accepted ++ [(seen, next)]) ∨
      (result = none ∧ word'.accepted = word.accepted ∧ word'.left < word.left)) word := by
  intro current related reply word₁ run
  obtain ⟨accepted, -, spent⟩ := HandledWord.Changed.star related
  obtain ⟨run, left, own⟩ := run
  have exchanged : if current.phase = seen then reply = .ok () ∧ word₁.phase = next
      else reply = .error current.phase ∧ word₁.phase = current.phase := run
  split at exchanged
  · next same =>
    obtain ⟨rfl, moved⟩ := exchanged
    have differs : next ≠ seen := by cases interrupted <;> decide
    rw [moved, same, if_neg differs] at own
    exact ⟨.inr (by rw [same, moved]; exact interrupted), .inl ⟨rfl, by rw [own, accepted]⟩⟩
  · next other =>
    obtain ⟨rfl, still⟩ := exchanged
    rw [if_pos still, List.append_nil] at own
    refine ⟨.inl still, .inr ⟨rfl, own.trans accepted, ?_⟩⟩
    rw [left]
    exact spent (found ▸ other)

/-- A round answers with what it did, or it is lost to a change of the synchronization. -/
theorem requestInterruptRound_handles (word : HandledWord) :
    handlerContract.wp requestInterruptRound (fun result word' =>
      (∃ request changes, result = some request ∧ request.Tells changes ∧
        word'.accepted = word.accepted ++ changes) ∨
      (result = none ∧ word'.accepted = word.accepted ∧ word'.left < word.left)) word := by
  intro current related seen word₁ run
  obtain ⟨accepted, fewer, -⟩ := HandledWord.Changed.star related
  obtain ⟨⟨still, rfl⟩, left, own⟩ := run
  rw [if_pos still, List.append_nil] at own
  refine ⟨.inl still, ?_⟩
  have exchange : ∀ {seen next : InterruptPhase} {request : InterruptRequest},
      current.phase = seen → seen.Interrupted next → request.Tells [(seen, next)] →
      handlerContract.wp (exchangePhase seen next request) (fun result word' =>
        (∃ request changes, result = some request ∧ request.Tells changes ∧
          word'.accepted = word.accepted ++ changes) ∨
        (result = none ∧ word'.accepted = word.accepted ∧ word'.left < word.left)) word₁ := by
    intro seen next request found interrupted tells
    refine Contract.wp_mono (exchangePhase_handles interrupted tells (still.trans found))
      fun result word₂ ended => ?_
    rcases ended with ⟨rfl, changed⟩ | ⟨rfl, kept, spent⟩
    · exact .inl ⟨request, _, rfl, tells, by rw [changed, own, accepted]⟩
    · exact .inr ⟨rfl, by rw [kept, own, accepted], by omega⟩
  have force : ∃ request changes, some InterruptRequest.force = some request ∧
      request.Tells changes ∧ word₁.accepted = word.accepted ++ changes :=
    ⟨.force, [], rfl, .force, by rw [own, accepted, List.append_nil]⟩
  cases found : current.phase with
  | preCommit => exact exchange found .cancel .cancel
  | committed => exact exchange found .committed .committed
  | complete => exact exchange found .complete .complete
  | _ => exact .inl force

/-- With more rounds than the synchronization makes changes the handler answers, and the answer
tells what it did. -/
theorem requestInterrupt_tells {rounds : Nat} (enough : word.left < rounds) :
    handlerContract.wp (requestInterrupt rounds) (fun result word' =>
      ∃ request changes, result = some request ∧ request.Tells changes ∧
        word'.accepted = word.accepted ++ changes) word := by
  induction rounds generalizing word with
  | zero => omega
  | succ rounds ih =>
    refine Contract.wp_bind.mpr (Contract.wp_mono (requestInterruptRound_handles word)
      fun result word₁ round => ?_)
    rcases round with ⟨request, changes, rfl, told⟩ | ⟨rfl, kept, spent⟩
    · exact ⟨request, changes, rfl, told⟩
    · refine Contract.wp_mono (ih (by omega)) fun result word₂ answered => ?_
      obtain ⟨request, changes, rfl, tells, changed⟩ := answered
      exact ⟨request, changes, rfl, tells, by rw [changed, kept]⟩

/-- The synchronization makes one change while the handler works. -/
theorem requestInterrupt_tells_once :
    handlerContract.wp (requestInterrupt 2) (fun result word' =>
      ∃ request changes, result = some request ∧ request.Tells changes ∧
        word'.accepted = [] ++ changes) ⟨.preCommit, [], 1⟩ :=
  @requestInterrupt_tells ⟨.preCommit, [], 1⟩ 2 (by decide)

end Handler

end Duet
