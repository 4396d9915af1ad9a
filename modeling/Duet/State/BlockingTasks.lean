import Mathlib.Data.Finset.Basic
import Mathlib.Data.Finset.Erase
import Mathlib.Data.List.Enum
import Mathlib.Logic.Relation
import Mathlib.Order.WithBot

/-!
# Blocking tasks under a limit

`run_blocking_with_limit` hashes the files of a manifest on the threads of the runtime. It keeps a
queue of the items that wait and a set of the tasks that run, takes the next task that ends,
whichever that is, and lowers a cutoff when one fails. The tasks behind the cutoff are told to give
up.

An item has the position that it has in the input. `worker` says what the task of an item ends with
when nothing tells it to give up.
-/

namespace Duet

variable {T U E J : Type}

/-- What a task ends with: the answer of its worker, or the error of a task that did not end. -/
abbrev Joined (U E J : Type) := Except J (Except E U)

/-- An error report: of a worker, or `hash worker failed: {error}`. -/
inductive TaskFailure (E J : Type) where
  | worker (error : E)
  | hashWorkerFailed (error : J)
deriving DecidableEq

namespace Joined

def failure? : Joined U E J → Option (TaskFailure E J)
  | .ok (.ok _) => none
  | .ok (.error error) => some (.worker error)
  | .error error => some (.hashWorkerFailed error)

def result? : Joined U E J → Option U
  | .ok (.ok result) => some result
  | _ => none

end Joined

/-- The local state of `run_blocking_with_limit`, with the flags that its tasks share. A cutoff of
`usize::MAX`, which no position reaches, is `⊤`. -/
structure BlockingTasks (T U E J : Type) where
  pending : List (T × Nat)
  active : List (T × Nat) := []
  results : List (Option U)
  activePositions : Finset Nat := ∅
  firstError : Option (Nat × TaskFailure E J) := none
  cutoff : WithTop Nat := ⊤
  all : Bool := false

/-- A call that is under way, one that has returned and one that has panicked. -/
inductive BlockingRun (T U E J : Type) where
  | running (tasks : BlockingTasks T U E J)
  | returned (tasks : BlockingTasks T U E J) (result : Except (TaskFailure E J) (List U))
  | panicked (tasks : BlockingTasks T U E J)

def BlockingRun.tasks : BlockingRun T U E J → BlockingTasks T U E J
  | .running tasks | .returned tasks _ | .panicked tasks => tasks

def BlockingRun.result? : BlockingRun T U E J → Option (Except (TaskFailure E J) (List U))
  | .returned _ result => some result
  | _ => none

namespace BlockingTasks

def init (items : List T) : BlockingTasks T U E J where
  pending := items.zipIdx
  results := List.replicate items.length none

def isCancelled (tasks : BlockingTasks T U E J) (position : Nat) : Bool :=
  tasks.all || decide (tasks.cutoff < WithTop.some position)

/-- One round of the loop that spawns tasks. -/
def spawn (tasks : BlockingTasks T U E J) (item : T) (position : Nat) (rest : List (T × Nat)) :
    BlockingTasks T U E J :=
  { tasks with
    pending := rest
    active := tasks.active ++ [(item, position)]
    activePositions := insert position tasks.activePositions }

def fetchMin (cutoff : WithTop Nat) (position : Nat) : WithTop Nat :=
  if WithTop.some position < cutoff then WithTop.some position else cutoff

def recordFirstError (firstError : Option (Nat × TaskFailure E J)) (position : Nat)
    (error : TaskFailure E J) : Option (Nat × TaskFailure E J) :=
  match firstError with
  | some (first, earlier) =>
    if position < first then some (position, error) else some (first, earlier)
  | none => some (position, error)

/-- The task at a position is no longer active, and what it ended with is noted. -/
def record (tasks : BlockingTasks T U E J) (position : Nat) (joined : Joined U E J) :
    BlockingTasks T U E J :=
  let tasks := { tasks with
    active := tasks.active.eraseP fun task => task.2 == position
    activePositions := tasks.activePositions.erase position }
  let failed (error : TaskFailure E J) := { tasks with
    cutoff := fetchMin tasks.cutoff position
    firstError := recordFirstError tasks.firstError position error }
  match joined with
  | .ok (.ok result) => { tasks with results := tasks.results.set position (some result) }
  | .ok (.error error) => failed (.worker error)
  | .error error => failed (.hashWorkerFailed error)

/-- After a failure nothing behind it is started, and the call returns once nothing before it is
active. -/
def settle (tasks : BlockingTasks T U E J) : BlockingRun T U E J :=
  match tasks.firstError with
  | none => .running tasks
  | some (errorPosition, error) =>
    let tasks := { tasks with
      pending := tasks.pending.filter fun task => decide (task.2 < errorPosition) }
    if ∃ position ∈ tasks.activePositions, position < errorPosition then
      .running tasks
    else
      .returned { tasks with all := true, firstError := none } (.error error)

/-- The end of the loop. The call panics in a debug build when an error is left, and in every build
when a result is missing. -/
def finish (tasks : BlockingTasks T U E J) : BlockingRun T U E J :=
  if tasks.firstError.isSome then .panicked tasks
  else
    match tasks.results.mapM id with
    | some results => .returned { tasks with all := true } (.ok results)
    | none => .panicked tasks

end BlockingTasks

/-! ## Runs -/

/-- What an observer of the call sees. -/
inductive TaskEvent (U E J : Type) where
  | spawned (position : Nat)
  | joined (position : Nat) (joined : Joined U E J)
  | finished

/-- A call with all that was observed of it. -/
structure Observed (T U E J : Type) where
  events : List (TaskEvent U E J)
  run : BlockingRun T U E J

namespace Observed

def init (items : List T) : Observed T U E J := ⟨[], .running (.init items)⟩

variable (worker : Nat → T → Joined U E J) (limit : Nat)

/-- One step of a call. Any active task may be the next to end, and one that was told to give up may
fail in any way. -/
inductive Step : Observed T U E J → Observed T U E J → Prop
  | spawn {events : List (TaskEvent U E J)} {tasks : BlockingTasks T U E J} {item : T}
    {position : Nat} {rest : List (T × Nat)} (waits : tasks.pending = (item, position) :: rest)
    (room : tasks.active.length < limit) :
    Step ⟨events, .running tasks⟩
      ⟨events ++ [.spawned position], .running (tasks.spawn item position rest)⟩
  | join {events : List (TaskEvent U E J)} {tasks : BlockingTasks T U E J} {item : T}
    {position : Nat} {joined : Joined U E J}
    (full : tasks.pending = [] ∨ ¬ tasks.active.length < limit)
    (active : (item, position) ∈ tasks.active)
    (ends : joined = worker position item ∨
      tasks.isCancelled position = true ∧ joined.failure?.isSome) :
    Step ⟨events, .running tasks⟩
      ⟨events ++ [.joined position joined], (tasks.record position joined).settle⟩
  | finish {events : List (TaskEvent U E J)} {tasks : BlockingTasks T U E J}
    (waits : tasks.pending = []) (active : tasks.active = []) :
    Step ⟨events, .running tasks⟩ ⟨events ++ [.finished], tasks.finish⟩

/-- What a call with these items can come to, in whichever order its tasks end. -/
def Reaches (items : List T) : Observed T U E J → Prop :=
  Relation.ReflTransGen (Step worker limit) (init items)

end Observed

end Duet
