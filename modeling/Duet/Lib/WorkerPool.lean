import Duet.Lib.Steps
import Mathlib.Algebra.Ring.Nat
import Mathlib.Data.List.Perm.Basic
import Mathlib.Data.List.Range

/-!
# A pool of workers

Workers take the indices below a bound from a counter that they share, one at a time, and send what
the work at an index gives. In whichever order they run, every index has been worked on once when all
of them have stopped, and the results that are collected by index are those of one worker that goes
through the indices in order.
-/

namespace Duet.Lib

open Relation

universe u

variable {ρ : Type u}

inductive Worker where
  | looking
  | working (index : Nat)
  | stopped
deriving DecidableEq

structure WorkerPool (ρ : Type u) where
  next : Nat
  workers : List Worker
  received : List (Nat × ρ)

namespace WorkerPool

def start (count : Nat) : WorkerPool ρ := ⟨0, List.replicate count .looking, []⟩

/-- What a worker does with the index that it took. -/
def taken (bound index : Nat) : Worker := if index < bound then .working index else .stopped

inductive Step (work : Nat → ρ) (bound : Nat) : WorkerPool ρ → WorkerPool ρ → Prop
  | take {next : Nat} {before after : List Worker} {received : List (Nat × ρ)} :
    Step work bound ⟨next, before ++ .looking :: after, received⟩
      ⟨next + 1, before ++ taken bound next :: after, received⟩
  | send {next index : Nat} {before after : List Worker} {received : List (Nat × ρ)} :
    Step work bound ⟨next, before ++ .working index :: after, received⟩
      ⟨next, before ++ .looking :: after, received ++ [(index, work index)]⟩

/-- All workers have stopped. -/
def Stopped (pool : WorkerPool ρ) : Prop := ∀ worker ∈ pool.workers, worker = .stopped

/-- The pool ran to its end. -/
def Ran (work : Nat → ρ) (bound count : Nat) (pool : WorkerPool ρ) : Prop :=
  ReflTransGen (Step work bound) (start count) pool ∧ pool.Stopped

def note (results : List (Option ρ)) (sent : Nat × ρ) : List (Option ρ) :=
  results.set sent.1 (some sent.2)

/-- The results by index, as far as they were received. -/
def collect (bound : Nat) (received : List (Nat × ρ)) : List (Option ρ) :=
  received.foldl note (List.replicate bound none)

/-! ## Every index once -/

def Worker.index? : Worker → Option Nat
  | .working index => some index
  | _ => none

/-- The indices that were taken are those that are worked on and those whose result was sent, each
once. -/
structure Shared (work : Nat → ρ) (bound : Nat) (pool : WorkerPool ρ) : Prop where
  once : (pool.workers.filterMap Worker.index? ++ pool.received.map Prod.fst).Perm
    (List.range (min pool.next bound))
  result : ∀ sent ∈ pool.received, sent.2 = work sent.1
  stopped : Worker.stopped ∈ pool.workers → bound ≤ pool.next

section Run

variable {work : Nat → ρ} {bound count : Nat} {pool pool' : WorkerPool ρ}

theorem Shared.start : Shared work bound (WorkerPool.start count) where
  once := by
    have none : (List.replicate count Worker.looking).filterMap Worker.index? = [] := by
      rw [List.filterMap_eq_nil_iff]
      intro worker mem
      rw [List.eq_of_mem_replicate mem]
      rfl
    simp [WorkerPool.start, none]
  result sent mem := absurd mem List.not_mem_nil
  stopped mem := by
    have looking := List.eq_of_mem_replicate mem
    cases looking

theorem Shared.step (shared : Shared work bound pool) (step : Step work bound pool pool') :
    Shared work bound pool' := by
  cases step with
  | @take next before after received =>
    have once := shared.once
    have stopped := shared.stopped
    simp only [List.filterMap_append, List.filterMap_cons, Worker.index?] at once
    unfold taken
    split
    · next inside =>
      refine ⟨?_, shared.result, fun mem => ?_⟩
      · simp only [List.filterMap_append, List.filterMap_cons, Worker.index?]
        have now : min (next + 1) bound = min next bound + 1 := by omega
        have index : min next bound = next := by omega
        rw [now, List.range_succ, index, List.append_assoc, List.cons_append]
        refine List.perm_middle.trans ?_
        rw [← List.append_assoc]
        refine (List.Perm.cons next (index ▸ once)).trans ?_
        exact (List.perm_append_singleton _ _).symm
      · have earlier : Worker.stopped ∈ before ++ Worker.looking :: after := by
          simpa using mem
        exact Nat.le_succ_of_le (stopped earlier)
    · next outside =>
      have far : bound ≤ next := Nat.not_lt.mp outside
      refine ⟨?_, shared.result, fun _ => Nat.le_succ_of_le far⟩
      simp only [List.filterMap_append, List.filterMap_cons, Worker.index?]
      have now : min (next + 1) bound = min next bound := by omega
      rw [now]
      exact once
  | @send next index before after received =>
    refine ⟨?_, ?_, fun mem => shared.stopped (by simpa using mem)⟩
    · have once := shared.once
      simp only [List.filterMap_append, List.filterMap_cons, Worker.index?, List.map_append,
        List.map_cons, List.map_nil] at once ⊢
      refine List.Perm.trans ?_ once
      rw [← List.append_assoc]
      exact (List.perm_append_singleton _ _).trans (List.perm_middle.symm.append_right _)
    · intro sent mem
      rcases List.mem_append.mp mem with earlier | last
      · exact shared.result sent earlier
      · rw [List.mem_singleton.mp last]

theorem length_workers (run : ReflTransGen (Step work bound) (WorkerPool.start count) pool) :
    pool.workers.length = count := by
  refine invariant_of_run (I := fun pool => pool.workers.length = count) ?_ run ?_
  · intro s t same step
    cases step <;> simpa using same
  · exact List.length_replicate

/-- When all workers have stopped, every index has been worked on once. -/
theorem Ran.received_perm (ran : Ran work bound count pool) (some : 0 < count) :
    (pool.received.map Prod.fst).Perm (List.range bound) ∧
      ∀ sent ∈ pool.received, sent.2 = work sent.1 := by
  obtain ⟨run, stopped⟩ := ran
  have shared : Shared work bound pool :=
    invariant_of_run (I := Shared work bound) (fun _ _ => Shared.step) run .start
  have idle : pool.workers.filterMap Worker.index? = [] := by
    rw [List.filterMap_eq_nil_iff]
    intro worker mem
    rw [stopped worker mem]
    rfl
  have all : bound ≤ pool.next := by
    obtain ⟨worker, mem⟩ := List.exists_mem_of_length_pos (length_workers run ▸ some)
    exact shared.stopped (stopped worker mem ▸ mem)
  have once := shared.once
  rw [idle, List.nil_append, Nat.min_eq_right all] at once
  exact ⟨once, shared.result⟩

theorem length_foldl_note (received : List (Nat × ρ)) (results : List (Option ρ)) :
    (received.foldl note results).length = results.length := by
  induction received generalizing results with
  | nil => rfl
  | cons item received ih => rw [List.foldl_cons, ih, note, List.length_set]

theorem getElem?_foldl_note_of_notMem {received : List (Nat × ρ)} {index : Nat}
    (unsent : index ∉ received.map Prod.fst) (results : List (Option ρ)) :
    (received.foldl note results)[index]? = results[index]? := by
  induction received generalizing results with
  | nil => rfl
  | cons item received ih =>
    rw [List.map_cons, List.mem_cons, not_or] at unsent
    rw [List.foldl_cons, ih unsent.2, note, List.getElem?_set_ne (Ne.symm unsent.1)]

theorem getElem?_foldl_note {received : List (Nat × ρ)} {index : Nat}
    (correct : ∀ sent ∈ received, sent.2 = work sent.1) (mem : index ∈ received.map Prod.fst)
    {results : List (Option ρ)} (inside : index < results.length) :
    (received.foldl note results)[index]? = some (some (work index)) := by
  induction received generalizing results with
  | nil => cases mem
  | cons item received ih =>
    rw [List.foldl_cons]
    by_cases later : index ∈ received.map Prod.fst
    · exact ih (fun sent mem => correct sent (List.mem_cons_of_mem _ mem)) later
        (by rw [note, List.length_set]; exact inside)
    · have same : index = item.1 := (List.mem_cons.mp mem).resolve_right later
      rw [getElem?_foldl_note_of_notMem later, note, correct item List.mem_cons_self, same,
        List.getElem?_set_self (same ▸ inside)]

/-- The results do not depend on the order in which the workers ran. -/
theorem Ran.collect_eq (ran : Ran work bound count pool) (some_worker : 0 < count) :
    collect bound pool.received = (List.range bound).map fun index => some (work index) := by
  obtain ⟨once, sent⟩ := ran.received_perm some_worker
  have length : (collect bound pool.received).length = bound := by
    unfold collect
    rw [length_foldl_note, List.length_replicate]
  apply List.ext_getElem?
  intro index
  by_cases inside : index < bound
  · have mem : index ∈ pool.received.map Prod.fst := once.mem_iff.mpr (List.mem_range.mpr inside)
    unfold collect
    rw [getElem?_foldl_note sent mem (by rwa [List.length_replicate]), List.getElem?_map,
      List.getElem?_range inside]
    rfl
  · have far : bound ≤ index := Nat.not_lt.mp inside
    rw [List.getElem?_eq_none (length.le.trans far), List.getElem?_eq_none]
    simpa using far

/-! ## The end is reached -/

def Worker.weight : Worker → Nat
  | .looking => 1
  | .working _ => 2
  | .stopped => 0

def weight (bound : Nat) (pool : WorkerPool ρ) : Nat :=
  2 * (bound - pool.next) + (pool.workers.map Worker.weight).sum

theorem Step.weight_lt (step : Step work bound pool pool') :
    pool'.weight bound < pool.weight bound := by
  cases step with
  | take =>
    unfold weight taken
    split
    · simp only [List.map_append, List.map_cons, List.sum_append, List.sum_cons, Worker.weight]
      omega
    · simp only [List.map_append, List.map_cons, List.sum_append, List.sum_cons, Worker.weight]
      omega
  | send =>
    unfold weight
    simp only [List.map_append, List.map_cons, List.sum_append, List.sum_cons, Worker.weight]
    omega

/-- Every pool can be run to its end. -/
theorem exists_ran (work : Nat → ρ) (bound count : Nat) :
    ∃ pool : WorkerPool ρ, Ran work bound count pool := by
  refine @exists_final _ (Step work bound) (fun _ => True) (weight bound) Stopped
    (fun _ _ _ _ => trivial) (fun _ _ _ step => step.weight_lt) ?_ (start count) trivial
  intro pool _ unfinished
  obtain ⟨worker, mem, busy⟩ : ∃ worker ∈ pool.workers, worker ≠ .stopped := by
    by_contra none
    refine unfinished fun worker mem => ?_
    by_contra busy
    exact none ⟨worker, mem, busy⟩
  obtain ⟨next, workers, received⟩ := pool
  obtain ⟨before, after, rfl⟩ := List.append_of_mem mem
  cases worker with
  | looking => exact ⟨_, .take⟩
  | working index => exact ⟨_, .send⟩
  | stopped => exact absurd rfl busy

end Run

end WorkerPool

end Duet.Lib
