import Duet.Lib.Steps
import Duet.State.BlockingTasks
import Mathlib.Data.List.Basic

/-!
# Hashing under a limit does not depend on the order

The first error that the call notes is the failure of the smallest position seen, and the cutoff
is that position. A task is told to give up only behind a failure, so it can not become the first
error. Positions are started in their order: once something failed, everything before it has been
started, and the call returns when that has ended.
-/

namespace Duet

open Lib Relation

variable {T U E J : Type}

/-! ## What a call has to return -/

/-- The results in the order of the items, or the failure of the smallest position. -/
def OrderedAnswer (worker : Nat → T → Joined U E J) (items : List T) :
    Except (TaskFailure E J) (List U) → Prop
  | .ok results => results.length = items.length ∧ ∀ position item, items[position]? = some item →
      ∃ result, results[position]? = some result ∧ worker position item = .ok (.ok result)
  | .error error => ∃ position item, items[position]? = some item ∧
      (worker position item).failure? = some error ∧
      ∀ earlier < position, ∀ item', items[earlier]? = some item' →
        (worker earlier item').failure? = none

/-- A task at the position failed. -/
def Failed (events : List (TaskEvent U E J)) (position : Nat) : Prop :=
  ∃ joined, TaskEvent.joined position joined ∈ events ∧ joined.failure?.isSome

/-- The task at the position ended with the answer of its worker. -/
def Served (worker : Nat → T → Joined U E J) (items : List T) (events : List (TaskEvent U E J))
    (position : Nat) : Prop :=
  ∃ item, items[position]? = some item ∧
    TaskEvent.joined position (worker position item) ∈ events

theorem Failed.append {events : List (TaskEvent U E J)} {position : Nat}
    (failed : Failed events position) (later : List (TaskEvent U E J)) :
    Failed (events ++ later) position := by
  obtain ⟨joined, mem, fails⟩ := failed
  exact ⟨joined, List.mem_append_left _ mem, fails⟩

theorem Joined.cases (joined : Joined U E J) :
    (∃ result, joined = .ok (.ok result)) ∨ ∃ error, joined.failure? = some error := by
  rcases joined with error | error | result
  · exact .inr ⟨_, rfl⟩
  · exact .inr ⟨_, rfl⟩
  · exact .inl ⟨result, rfl⟩

theorem drop_zipIdx_eq_cons {items : List T} {started position : Nat} {item : T}
    {rest : List (T × Nat)} (waits : items.zipIdx.drop started = (item, position) :: rest) :
    position = started ∧ items[started]? = some item ∧ rest = items.zipIdx.drop (started + 1) := by
  have head : (items.zipIdx.drop started)[0]? = some (item, position) := by
    rw [waits]
    rfl
  rw [List.getElem?_drop, Nat.add_zero, List.getElem?_zipIdx, Option.map_eq_some_iff] at head
  obtain ⟨item', found, same⟩ := head
  cases same
  refine ⟨Nat.zero_add _, found, ?_⟩
  rw [← List.drop_drop, waits]
  rfl

/-! ## The invariant of a call -/

/-- The first error and the cutoff are those of the smallest position that failed. -/
def Noted (worker : Nat → T → Joined U E J) (items : List T) (events : List (TaskEvent U E J)) :
    Option (Nat × TaskFailure E J) → WithTop Nat → Prop
  | none, cutoff => cutoff = ⊤ ∧ ∀ position, ¬ Failed events position
  | some (first, error), cutoff => cutoff = WithTop.some first ∧ Failed events first ∧
      (∃ item, items[first]? = some item ∧ (worker first item).failure? = some error) ∧
      ∀ position, Failed events position → first ≤ position

/-- What holds while a call is under way and the items before `started` have been spawned. -/
structure UnderWay (worker : Nat → T → Joined U E J) (limit : Nat) (items : List T) (started : Nat)
    (events : List (TaskEvent U E J)) (tasks : BlockingTasks T U E J) : Prop where
  limited : tasks.active.length ≤ limit
  started_le : started ≤ items.length
  pending : tasks.pending = [] ∨ tasks.pending = items.zipIdx.drop started
  waiting : tasks.firstError = none → tasks.pending = items.zipIdx.drop started
  nodup : (tasks.active.map Prod.snd).Nodup
  active : ∀ task ∈ tasks.active, items[task.2]? = some task.1 ∧ task.2 < started
  positions : ∀ position, position ∈ tasks.activePositions ↔ position ∈ tasks.active.map Prod.snd
  settled : ∀ position < started, position ∈ tasks.active.map Prod.snd ∨
    ∃ joined, TaskEvent.joined position joined ∈ events
  own : ∀ position joined, TaskEvent.joined position joined ∈ events →
    ∃ item, items[position]? = some item ∧ position < started ∧
      (joined = worker position item ∨
        joined.failure?.isSome ∧ ∃ first < position, Failed events first)
  length : tasks.results.length = items.length
  results : ∀ position result, TaskEvent.joined position (.ok (.ok result)) ∈ events →
    tasks.results[position]? = some (some result)
  noted : Noted worker items events tasks.firstError tasks.cutoff
  all : tasks.all = false

/-- The call waits for a task before its first error. -/
def BlockingTasks.Waits (tasks : BlockingTasks T U E J) : Prop :=
  ∀ first error, tasks.firstError = some (first, error) →
    ∃ position ∈ tasks.activePositions, position < first

/-- What holds at every moment of a call. -/
inductive Observed.Good (worker : Nat → T → Joined U E J) (limit : Nat) (items : List T) :
    Observed T U E J → Prop
  | running {started : Nat} {events : List (TaskEvent U E J)} {tasks : BlockingTasks T U E J}
    (underWay : UnderWay worker limit items started events tasks) (waits : tasks.Waits) :
    Good worker limit items ⟨events, .running tasks⟩
  | returned {events : List (TaskEvent U E J)} {tasks : BlockingTasks T U E J}
    {result : Except (TaskFailure E J) (List U)} (limited : tasks.active.length ≤ limit)
    (answer : OrderedAnswer worker items result)
    (served : ∀ position < items.length, (∀ first, Failed events first → position < first) →
      Served worker items events position) :
    Good worker limit items ⟨events, .returned tasks result⟩

section Run

variable {worker : Nat → T → Joined U E J} {limit : Nat} {items : List T} {started : Nat}
  {events : List (TaskEvent U E J)} {tasks : BlockingTasks T U E J}

theorem UnderWay.init : UnderWay worker limit items 0 [] (.init items) where
  limited := Nat.zero_le _
  started_le := Nat.zero_le _
  pending := .inr rfl
  waiting _ := rfl
  nodup := List.nodup_nil
  active task mem := absurd mem List.not_mem_nil
  positions position := by simp [BlockingTasks.init]
  settled position less := absurd less (Nat.not_lt_zero _)
  own position joined mem := absurd mem List.not_mem_nil
  length := List.length_replicate
  results position result mem := absurd mem List.not_mem_nil
  noted := ⟨rfl, fun position failed => by obtain ⟨joined, mem, -⟩ := failed; cases mem⟩
  all := rfl

theorem failed_snoc_spawned {position started : Nat} :
    Failed (events ++ [.spawned started]) position ↔ Failed events position := by
  simp [Failed]

/-- Spawning starts the next item. -/
theorem UnderWay.spawn (underWay : UnderWay worker limit items started events tasks) {item : T}
    {position : Nat} {rest : List (T × Nat)} (waits : tasks.pending = (item, position) :: rest)
    (room : tasks.active.length < limit) :
    UnderWay worker limit items (started + 1) (events ++ [.spawned position])
      (tasks.spawn item position rest) := by
  have drop : items.zipIdx.drop started = (item, position) :: rest := by
    rcases underWay.pending with empty | drop
    · rw [empty] at waits
      cases waits
    · rw [← drop, waits]
  obtain ⟨rfl, found, rest_eq⟩ := drop_zipIdx_eq_cons drop
  have fresh : position ∉ tasks.active.map Prod.snd := by
    intro mem
    obtain ⟨task, isActive, same⟩ := List.mem_map.mp mem
    have less := (underWay.active task isActive).2
    omega
  constructor
  case limited =>
    simp only [BlockingTasks.spawn, List.length_append, List.length_singleton]
    exact room
  case started_le => exact (List.getElem?_eq_some_iff.mp found).1
  case pending => exact .inr rest_eq
  case waiting => exact fun _ => rest_eq
  case nodup =>
    simp only [BlockingTasks.spawn, List.map_append, List.map_cons, List.map_nil]
    exact List.nodup_append.mpr ⟨underWay.nodup, List.nodup_singleton _, fun a mem b last => by
      rw [List.mem_singleton.mp last]
      exact fun same => fresh (same ▸ mem)⟩
  case active =>
    intro task mem
    rcases List.mem_append.mp mem with earlier | last
    · obtain ⟨isItem, less⟩ := underWay.active task earlier
      exact ⟨isItem, Nat.lt_succ_of_lt less⟩
    · rw [List.mem_singleton.mp last]
      exact ⟨found, Nat.lt_succ_self _⟩
  case positions =>
    intro other
    simp only [BlockingTasks.spawn, Finset.mem_insert, underWay.positions, List.map_append,
      List.map_cons, List.map_nil, List.mem_append, List.mem_singleton]
    exact or_comm
  case settled =>
    intro other less
    simp only [BlockingTasks.spawn, List.map_append, List.map_cons, List.map_nil, List.mem_append,
      List.mem_singleton]
    rcases Nat.lt_succ_iff_lt_or_eq.mp less with earlier | rfl
    · rcases underWay.settled other earlier with isActive | ⟨joined, mem⟩
      · exact .inl (.inl isActive)
      · exact .inr ⟨joined, .inl mem⟩
    · exact .inl (.inr rfl)
  case own =>
    intro other joined mem
    have earlier : TaskEvent.joined other joined ∈ events := by simpa using mem
    obtain ⟨item', isItem, less, ends⟩ := underWay.own other joined earlier
    refine ⟨item', isItem, Nat.lt_succ_of_lt less, ends.imp_right fun gaveUp => ?_⟩
    obtain ⟨fails, first, before, failed⟩ := gaveUp
    exact ⟨fails, first, before, failed.append _⟩
  case length => exact underWay.length
  case results =>
    intro other result mem
    exact underWay.results other result (by simpa using mem)
  case noted =>
    have noted := underWay.noted
    unfold Noted at noted ⊢
    simp only [BlockingTasks.spawn, failed_snoc_spawned]
    exact noted
  case all => exact underWay.all

/-! ## The end of a task -/

theorem recordFirstError_ne_none {firstError : Option (Nat × TaskFailure E J)} {position : Nat}
    {error : TaskFailure E J} :
    BlockingTasks.recordFirstError firstError position error ≠ none := by
  unfold BlockingTasks.recordFirstError
  cases firstError with
  | none => exact Option.some_ne_none _
  | some first =>
    dsimp only
    split <;> exact Option.some_ne_none _

theorem BlockingTasks.record_of_failure {position : Nat} {joined : Joined U E J}
    {error : TaskFailure E J} (fails : joined.failure? = some error) :
    tasks.record position joined = { tasks with
      active := tasks.active.eraseP fun task => task.2 == position
      activePositions := tasks.activePositions.erase position
      cutoff := fetchMin tasks.cutoff position
      firstError := recordFirstError tasks.firstError position error } := by
  rcases joined with late | early | result
  · cases fails
    rfl
  · cases fails
    rfl
  · cases fails

theorem BlockingTasks.record_active (position : Nat) (joined : Joined U E J) :
    (tasks.record position joined).active = tasks.active.eraseP (fun task => task.2 == position) ∧
    (tasks.record position joined).activePositions = tasks.activePositions.erase position ∧
    (tasks.record position joined).pending = tasks.pending ∧
    (tasks.record position joined).all = tasks.all := by
  rcases joined with error | error | result <;> exact ⟨rfl, rfl, rfl, rfl⟩

theorem map_eraseP_position {active : List (T × Nat)} {position : Nat} :
    (active.eraseP fun task => task.2 == position).map Prod.snd =
      (active.map Prod.snd).erase position := by
  rw [List.erase_eq_eraseP', List.eraseP_map]
  rfl

theorem failed_snoc_joined {position other : Nat} {joined : Joined U E J} :
    Failed (events ++ [.joined position joined]) other ↔
      Failed events other ∨ other = position ∧ joined.failure?.isSome := by
  simp only [Failed, List.mem_append, List.mem_singleton, TaskEvent.joined.injEq]
  constructor
  · rintro ⟨joined', earlier | ⟨rfl, rfl⟩, fails⟩
    · exact .inl ⟨joined', earlier, fails⟩
    · exact .inr ⟨rfl, fails⟩
  · rintro (⟨joined', earlier, fails⟩ | ⟨rfl, fails⟩)
    · exact ⟨joined', .inl earlier, fails⟩
    · exact ⟨joined, .inr ⟨rfl, rfl⟩, fails⟩

/-- A task that fails behind no failure gives the answer of its worker. -/
theorem noted_failure {firstError : Option (Nat × TaskFailure E J)} {cutoff : WithTop Nat}
    (noted : Noted worker items events firstError cutoff) {position : Nat} {item : T}
    {joined : Joined U E J} {error : TaskFailure E J} (found : items[position]? = some item)
    (ends : joined = worker position item ∨
      joined.failure?.isSome ∧ ∃ first < position, Failed events first)
    (fails : joined.failure? = some error) :
    Noted worker items (events ++ [.joined position joined])
      (BlockingTasks.recordFirstError firstError position error) (BlockingTasks.fetchMin cutoff position) := by
  have isFailure : joined.failure?.isSome := by rw [fails]; rfl
  have here : Failed (events ++ [.joined position joined]) position :=
    failed_snoc_joined.mpr (.inr ⟨rfl, isFailure⟩)
  cases firstError with
  | none =>
    obtain ⟨rfl, unfailed⟩ := noted
    refine ⟨if_pos (WithTop.coe_lt_top position), here, ⟨item, found, ?_⟩, fun other failed => ?_⟩
    · rcases ends with rfl | ⟨-, first, -, failed⟩
      · exact fails
      · exact absurd failed (unfailed first)
    · rcases failed_snoc_joined.mp failed with earlier | ⟨rfl, -⟩
      · exact absurd earlier (unfailed other)
      · exact Nat.le_refl _
  | some earliest =>
    obtain ⟨first, early⟩ := earliest
    obtain ⟨rfl, failedFirst, ownFirst, least⟩ := noted
    unfold BlockingTasks.recordFirstError
    dsimp only
    split
    · next before =>
      have lower : BlockingTasks.fetchMin (WithTop.some first) position = WithTop.some position :=
        if_pos (WithTop.coe_lt_coe.mpr before)
      refine ⟨lower, here, ⟨item, found, ?_⟩, fun other failed => ?_⟩
      · rcases ends with rfl | ⟨-, other, less, failed⟩
        · exact fails
        · have := least other failed
          omega
      · rcases failed_snoc_joined.mp failed with earlier | ⟨rfl, -⟩
        · have := least other earlier
          omega
        · exact Nat.le_refl _
    · next behind =>
      have higher : BlockingTasks.fetchMin (WithTop.some first) position = WithTop.some first :=
        if_neg fun less => behind (WithTop.coe_lt_coe.mp less)
      refine ⟨higher, failedFirst.append _, ownFirst, fun other failed => ?_⟩
      rcases failed_snoc_joined.mp failed with earlier | ⟨rfl, -⟩
      · exact least other earlier
      · exact Nat.not_lt.mp behind

/-- The answer of a task that ends is the one of its worker, unless it was told to give up. -/
theorem UnderWay.ends (underWay : UnderWay worker limit items started events tasks) {item : T}
    {position : Nat} {joined : Joined U E J}
    (ends : joined = worker position item ∨
      tasks.isCancelled position = true ∧ joined.failure?.isSome) :
    joined = worker position item ∨
      joined.failure?.isSome ∧ ∃ first < position, Failed events first := by
  refine ends.imp_right fun gaveUp => ⟨gaveUp.2, ?_⟩
  have behind : tasks.cutoff < WithTop.some position := by
    simpa [BlockingTasks.isCancelled, underWay.all] using gaveUp.1
  have noted := underWay.noted
  cases first : tasks.firstError with
  | none =>
    rw [first] at noted
    rw [noted.1] at behind
    exact absurd behind not_top_lt
  | some earliest =>
    rw [first] at noted
    rw [noted.1] at behind
    exact ⟨earliest.1, WithTop.coe_lt_coe.mp behind, noted.2.1⟩

/-- A result is the answer of its worker. -/
theorem UnderWay.ok_own (underWay : UnderWay worker limit items started events tasks)
    {position : Nat} {result : U}
    (ended : TaskEvent.joined position (.ok (.ok result)) ∈ events) :
    ∃ item, items[position]? = some item ∧ worker position item = .ok (.ok result) := by
  obtain ⟨item, found, -, own | ⟨fails, -⟩⟩ := underWay.own position _ ended
  · exact ⟨item, found, own.symm⟩
  · cases fails

/-- Recording the end of a task. -/
theorem UnderWay.record (underWay : UnderWay worker limit items started events tasks) {item : T}
    {position : Nat} {joined : Joined U E J} (active : (item, position) ∈ tasks.active)
    (ends : joined = worker position item ∨
      joined.failure?.isSome ∧ ∃ first < position, Failed events first) :
    UnderWay worker limit items started (events ++ [.joined position joined])
      (tasks.record position joined) := by
  obtain ⟨found, less⟩ := underWay.active _ active
  obtain ⟨active_eq, positions_eq, pending_eq, all_eq⟩ := tasks.record_active position joined
  constructor
  case limited =>
    rw [active_eq]
    exact Nat.le_trans List.length_eraseP_le underWay.limited
  case started_le => exact underWay.started_le
  case pending => rw [pending_eq]; exact underWay.pending
  case waiting =>
    intro unfailed
    rw [pending_eq]
    rcases joined.cases with ⟨result, rfl⟩ | ⟨error, fails⟩
    · exact underWay.waiting unfailed
    · rw [tasks.record_of_failure fails] at unfailed
      exact absurd unfailed recordFirstError_ne_none
  case nodup =>
    rw [active_eq, map_eraseP_position]
    exact underWay.nodup.erase _
  case active =>
    intro task mem
    rw [active_eq] at mem
    exact underWay.active task (List.mem_of_mem_eraseP mem)
  case positions =>
    intro other
    rw [active_eq, positions_eq, map_eraseP_position, Finset.mem_erase, underWay.positions,
      underWay.nodup.mem_erase_iff]
  case settled =>
    intro other before
    rw [active_eq, map_eraseP_position, underWay.nodup.mem_erase_iff]
    by_cases same : other = position
    · exact .inr ⟨joined, by simp [same]⟩
    · rcases underWay.settled other before with isActive | ⟨joined', mem⟩
      · exact .inl ⟨same, isActive⟩
      · exact .inr ⟨joined', List.mem_append_left _ mem⟩
  case own =>
    intro other joined' mem
    rcases List.mem_append.mp mem with earlier | last
    · obtain ⟨item', isItem, before, ended⟩ := underWay.own other joined' earlier
      refine ⟨item', isItem, before, ended.imp_right fun gaveUp => ?_⟩
      obtain ⟨fails, first, behind, failed⟩ := gaveUp
      exact ⟨fails, first, behind, failed.append _⟩
    · cases List.mem_singleton.mp last
      refine ⟨item, found, less, ends.imp_right fun gaveUp => ?_⟩
      obtain ⟨fails, first, behind, failed⟩ := gaveUp
      exact ⟨fails, first, behind, failed.append _⟩
  case length =>
    rcases joined with error | error | result
    · exact underWay.length
    · exact underWay.length
    · exact List.length_set.trans underWay.length
  case results =>
    intro other result mem
    have before : position < tasks.results.length :=
      underWay.length.symm ▸ (List.getElem?_eq_some_iff.mp found).1
    rcases joined.cases with ⟨last, rfl⟩ | ⟨error, fails⟩
    · have set : (tasks.record position (.ok (.ok last))).results =
        tasks.results.set position (some last) := rfl
      rw [set]
      by_cases same : other = position
      · subst same
        have isLast : worker other item = .ok (.ok last) := by
          rcases ends with own | ⟨fails, -⟩
          · exact own.symm
          · cases fails
        have isResult : worker other item = .ok (.ok result) := by
          rcases List.mem_append.mp mem with earlier | here
          · obtain ⟨item', isItem, own⟩ := underWay.ok_own earlier
            cases found.symm.trans isItem
            exact own
          · cases List.mem_singleton.mp here
            exact isLast
        cases isLast.symm.trans isResult
        exact List.getElem?_set_self before
      · rw [List.getElem?_set_ne (Ne.symm same)]
        rcases List.mem_append.mp mem with earlier | here
        · exact underWay.results other result earlier
        · cases List.mem_singleton.mp here
          exact absurd rfl same
    · rw [tasks.record_of_failure fails]
      rcases List.mem_append.mp mem with earlier | here
      · exact underWay.results other result earlier
      · cases List.mem_singleton.mp here
        cases fails
  case noted =>
    rcases joined.cases with ⟨last, rfl⟩ | ⟨error, fails⟩
    · have noted := underWay.noted
      unfold Noted at noted ⊢
      simp only [failed_snoc_joined, Joined.failure?, Option.isSome_none, Bool.false_eq_true,
        and_false, or_false]
      exact noted
    · rw [tasks.record_of_failure fails]
      exact noted_failure underWay.noted found ends fails
  case all => rw [all_eq]; exact underWay.all

/-! ## The end of a call -/

/-- What was started before every failure and is not active has been served. -/
theorem UnderWay.served (underWay : UnderWay worker limit items started events tasks)
    {position : Nat} (before : position < started) (idle : position ∉ tasks.active.map Prod.snd)
    (first : ∀ other, Failed events other → position < other) :
    Served worker items events position := by
  rcases underWay.settled position before with isActive | ⟨joined, ended⟩
  · exact absurd isActive idle
  · obtain ⟨item, found, -, own | ⟨fails, -⟩⟩ := underWay.own position joined ended
    · exact ⟨item, found, own ▸ ended⟩
    · exact absurd (first position ⟨joined, ended, fails⟩) (Nat.lt_irrefl _)

theorem UnderWay.lt_started (underWay : UnderWay worker limit items started events tasks)
    {position : Nat} (failed : Failed events position) : position < started := by
  obtain ⟨joined, ended, -⟩ := failed
  obtain ⟨item, -, less, -⟩ := underWay.own position joined ended
  exact less

/-- Nothing behind a failure is started, and the call ends at the right moment. -/
theorem UnderWay.settle (underWay : UnderWay worker limit items started events tasks) :
    Observed.Good worker limit items ⟨events, tasks.settle⟩ := by
  have noted := underWay.noted
  unfold BlockingTasks.settle
  cases isFirst : tasks.firstError with
  | none =>
    refine .running underWay fun first error isFirst' => ?_
    rw [isFirst] at isFirst'
    cases isFirst'
  | some earliest =>
    obtain ⟨first, error⟩ := earliest
    rw [isFirst] at noted
    have kept := noted
    obtain ⟨-, failed, ⟨item, found, fails⟩, least⟩ := noted
    have started_first := underWay.lt_started failed
    have nothing : tasks.pending.filter (fun task => decide (task.2 < first)) = [] := by
      rcases underWay.pending with empty | drop
      · rw [empty]
        rfl
      · rw [drop, List.filter_eq_nil_iff]
        intro task mem
        obtain ⟨index, here⟩ := List.mem_iff_getElem?.mp mem
        rw [List.getElem?_drop, List.getElem?_zipIdx, Option.map_eq_some_iff] at here
        obtain ⟨-, -, rfl⟩ := here
        simp only [decide_eq_true_eq]
        omega
    dsimp only
    rw [nothing]
    split
    · next waits =>
      refine @Observed.Good.running _ _ _ _ _ _ _ started _ _ { underWay with
        pending := .inl rfl
        waiting := fun absent => ?_
        noted := kept } fun first' error' isFirst' => ?_
      · cases absent
      · cases isFirst'
        exact waits
    · next idle =>
      have notActive : ∀ position < first, position ∉ tasks.active.map Prod.snd :=
        fun position less mem => idle ⟨position, (underWay.positions position).mpr mem, less⟩
      refine .returned underWay.limited ⟨first, item, found, fails, ?_⟩ fun position _ before => ?_
      · intro earlier less item' isItem
        have ahead : ∀ other, Failed events other → earlier < other :=
          fun other failed' => Nat.lt_of_lt_of_le less (least other failed')
        obtain ⟨item'', found', ended⟩ := underWay.served (Nat.lt_trans less started_first)
          (notActive earlier less) ahead
        cases found'.symm.trans isItem
        by_contra fails'
        have := least earlier ⟨_, ended, Option.isSome_iff_ne_none.mpr fails'⟩
        omega
      · have less := before first failed
        exact underWay.served (Nat.lt_trans less started_first) (notActive position less) before

theorem mapM_id_map_some (results : List U) : (results.map some).mapM id = some results := by
  rw [List.mapM_map]
  exact (List.mapM_pure (m := Option) (f := id)).trans (congrArg some (List.map_id results))

/-- A list of results that are all there. -/
theorem exists_map_some {results : List (Option U)}
    (all : ∀ position < results.length, ∃ result, results[position]? = some (some result)) :
    ∃ present : List U, results = present.map some := by
  induction results with
  | nil => exact ⟨[], rfl⟩
  | cons head rest ih =>
    obtain ⟨result, here⟩ := all 0 (Nat.zero_lt_succ _)
    obtain ⟨present, rfl⟩ := ih fun position less => all (position + 1) (Nat.succ_lt_succ less)
    cases here
    exact ⟨result :: present, rfl⟩

/-- When nothing waits and nothing runs, every result is there. -/
theorem UnderWay.finish (underWay : UnderWay worker limit items started events tasks)
    (waits : tasks.Waits) (pending : tasks.pending = []) (active : tasks.active = []) :
    Observed.Good worker limit items ⟨events ++ [.finished], tasks.finish⟩ := by
  have unfailed : tasks.firstError = none := by
    cases isFirst : tasks.firstError with
    | none => rfl
    | some earliest =>
      obtain ⟨position, isActive, -⟩ := waits earliest.1 earliest.2 isFirst
      rw [underWay.positions, active] at isActive
      cases isActive
  have noted := underWay.noted
  rw [unfailed] at noted
  have none_failed := noted.2
  have all_started : items.length ≤ started := by
    have drop := (underWay.waiting unfailed).symm.trans pending
    simpa using List.drop_eq_nil_iff.mp drop
  have served : ∀ position < items.length, Served worker items events position := by
    intro position less
    refine underWay.served (Nat.lt_of_lt_of_le less all_started) ?_ fun other failed =>
      absurd failed (none_failed other)
    rw [active]
    exact List.not_mem_nil
  have result : ∀ position item, items[position]? = some item → ∃ result,
      tasks.results[position]? = some (some result) ∧ worker position item = .ok (.ok result) := by
    intro position item found
    obtain ⟨item', found', ended⟩ := served position (List.getElem?_eq_some_iff.mp found).1
    cases found.symm.trans found'
    rcases (worker position item).cases with ⟨result, own⟩ | ⟨error, fails⟩
    · rw [own] at ended
      exact ⟨result, underWay.results position result ended, own⟩
    · exact absurd ⟨_, ended, by rw [fails]; rfl⟩ (none_failed position)
  obtain ⟨present, same⟩ : ∃ present : List U, tasks.results = present.map some := by
    apply exists_map_some
    intro position less
    rw [underWay.length] at less
    obtain ⟨result, there, -⟩ := result position _ (List.getElem?_eq_getElem less)
    exact ⟨result, there⟩
  have length : present.length = items.length := by
    rw [← underWay.length, same, List.length_map]
  unfold BlockingTasks.finish
  rw [unfailed, same, mapM_id_map_some]
  refine .returned underWay.limited ⟨length, ?_⟩ fun position less _ => ?_
  · intro position item found
    obtain ⟨value, there, own⟩ := result position item found
    rw [same, List.getElem?_map, Option.map_eq_some_iff] at there
    obtain ⟨value', there, eq⟩ := there
    cases eq
    exact ⟨value, there, own⟩
  · obtain ⟨item, found, ended⟩ := served position less
    exact ⟨item, found, List.mem_append_left _ ended⟩

/-- One step keeps what holds of a call. -/
theorem Observed.Good.step {o o' : Observed T U E J} (good : o.Good worker limit items)
    (step : Step worker limit o o') : o'.Good worker limit items := by
  cases good with
  | returned => cases step
  | running underWay waits =>
    cases step with
    | spawn pending room =>
      refine .running (underWay.spawn pending room) fun first error isFirst => ?_
      obtain ⟨position, isActive, less⟩ := waits first error isFirst
      exact ⟨position, Finset.mem_insert_of_mem isActive, less⟩
    | join full active ends => exact (underWay.record active (underWay.ends ends)).settle
    | finish pending active => exact underWay.finish waits pending active

theorem Observed.Good.of_reaches {o : Observed T U E J} (reaches : Reaches worker limit items o) :
    o.Good worker limit items :=
  invariant_of_run (I := Good worker limit items) (fun _ _ => Good.step) reaches
    (.running .init fun first error isFirst => by cases isFirst)

/-! ## The end is reached -/

/-- The tasks that are not spawned yet count twice. -/
def Observed.remaining (o : Observed T U E J) : Nat :=
  match o.run with
  | .running tasks => 2 * tasks.pending.length + tasks.active.length + 1
  | _ => 0

theorem Observed.remaining_settle (events : List (TaskEvent U E J))
    (tasks : BlockingTasks T U E J) : remaining ⟨events, tasks.settle⟩ ≤
      2 * tasks.pending.length + tasks.active.length + 1 := by
  unfold remaining BlockingTasks.settle
  cases tasks.firstError with
  | none => exact Nat.le_refl _
  | some earliest =>
    dsimp only
    have fewer := List.length_filter_le (fun task : T × Nat => decide (task.2 < earliest.1))
      tasks.pending
    by_cases waits : ∃ position ∈ tasks.activePositions, position < earliest.1
    · rw [if_pos waits]
      dsimp only
      omega
    · rw [if_neg waits]
      exact Nat.zero_le _

theorem Observed.Step.remaining_lt {o o' : Observed T U E J} (step : Step worker limit o o') :
    o'.remaining < o.remaining := by
  cases step with
  | spawn pending room =>
    simp only [remaining, BlockingTasks.spawn, pending, List.length_cons, List.length_append,
      List.length_nil]
    omega
  | @join events tasks item position joined full active ends =>
    obtain ⟨active_eq, -, pending_eq, -⟩ := tasks.record_active position joined
    have shorter := List.length_eraseP_of_mem active (p := fun task => task.2 == position)
      (beq_self_eq_true _)
    have some_active := List.length_pos_of_mem active
    have settled := remaining_settle (events ++ [.joined position joined])
      (tasks.record position joined)
    rw [active_eq, pending_eq, shorter] at settled
    have now : remaining ⟨events, .running tasks⟩ =
      2 * tasks.pending.length + tasks.active.length + 1 := rfl
    omega
  | finish pending active =>
    unfold remaining BlockingTasks.finish
    dsimp only
    split
    · next running =>
      split at running
      · cases running
      · split at running <;> cases running
    · exact Nat.zero_lt_succ _

/-- A call that is under way has a next step. -/
theorem Observed.exists_step (worker : Nat → T → Joined U E J) (positive : 0 < limit)
    (events : List (TaskEvent U E J)) (tasks : BlockingTasks T U E J) :
    ∃ o', Step worker limit ⟨events, .running tasks⟩ o' := by
  by_cases full : tasks.pending = [] ∨ ¬ tasks.active.length < limit
  · cases isActive : tasks.active with
    | nil =>
      have waits : tasks.pending = [] := by
        rcases full with waits | full
        · exact waits
        · rw [isActive] at full
          exact absurd positive full
      exact ⟨_, .finish waits isActive⟩
    | cons task active =>
      have mem : (task.1, task.2) ∈ tasks.active := by rw [isActive]; exact List.mem_cons_self
      exact ⟨_, .join full mem (.inl rfl)⟩
  · obtain ⟨waits, room⟩ := not_or.mp full
    obtain ⟨⟨item, position⟩, rest, pending⟩ := List.exists_cons_of_ne_nil waits
    exact ⟨_, .spawn pending (not_not.mp room)⟩

/-! ## The order does not matter -/

/-- There is one answer. -/
theorem OrderedAnswer.unique {answer answer' : Except (TaskFailure E J) (List U)}
    (ordered : OrderedAnswer worker items answer) (ordered' : OrderedAnswer worker items answer') :
    answer = answer' := by
  cases answer with
  | ok results =>
    obtain ⟨length, results_eq⟩ := ordered
    cases answer' with
    | ok results' =>
      obtain ⟨length', results'_eq⟩ := ordered'
      congr 1
      apply List.ext_getElem (length.trans length'.symm)
      intro position less less'
      have found := List.getElem?_eq_getElem (length ▸ less)
      obtain ⟨result, there, own⟩ := results_eq position _ found
      obtain ⟨result', there', own'⟩ := results'_eq position _ found
      cases own.symm.trans own'
      rw [List.getElem?_eq_getElem less] at there
      rw [List.getElem?_eq_getElem less'] at there'
      exact Option.some.inj (there.trans there'.symm)
    | error error =>
      obtain ⟨position, item, found, fails, -⟩ := ordered'
      obtain ⟨result, -, own⟩ := results_eq position item found
      rw [own] at fails
      cases fails
  | error error =>
    obtain ⟨position, item, found, fails, before⟩ := ordered
    cases answer' with
    | ok results' =>
      obtain ⟨result, -, own⟩ := ordered'.2 position item found
      rw [own] at fails
      cases fails
    | error error' =>
      obtain ⟨position', item', found', fails', before'⟩ := ordered'
      rcases Nat.lt_trichotomy position position' with less | rfl | more
      · rw [before' position less item found] at fails
        cases fails
      · cases found.symm.trans found'
        cases fails.symm.trans fails'
        rfl
      · rw [before position' more item' found'] at fails'
        cases fails'

/-- The task at the position waits, runs without being told to give up, or has given the answer of
its worker. -/
def Observed.Keeps (worker : Nat → T → Joined U E J) (items : List T) (o : Observed T U E J)
    (position : Nat) : Prop :=
  position ∈ o.run.tasks.pending.map Prod.snd ∨
  position ∈ o.run.tasks.active.map Prod.snd ∧ o.run.tasks.isCancelled position = false ∨
  Served worker items o.events position

theorem Observed.Good.keeps {o : Observed T U E J} (good : o.Good worker limit items)
    {position : Nat} (less : position < items.length)
    (before : ∀ first, Failed o.events first → position < first) :
    o.Keeps worker items position := by
  cases good with
  | returned limited answer served => exact .inr (.inr (served position less before))
  | @running started events tasks underWay waits =>
    have noted := underWay.noted
    by_cases isStarted : position < started
    · by_cases isActive : position ∈ tasks.active.map Prod.snd
      · refine .inr (.inl ⟨isActive, ?_⟩)
        have ahead : ¬ tasks.cutoff < WithTop.some position := by
          cases isFirst : tasks.firstError with
          | none =>
            rw [isFirst] at noted
            rw [noted.1]
            exact not_top_lt
          | some earliest =>
            rw [isFirst] at noted
            rw [noted.1]
            intro behind
            have := before earliest.1 noted.2.1
            have := WithTop.coe_lt_coe.mp behind
            omega
        exact Bool.or_eq_false_iff.mpr ⟨underWay.all, decide_eq_false ahead⟩
      · exact .inr (.inr (underWay.served isStarted isActive before))
    · cases isFirst : tasks.firstError with
      | none =>
        refine .inl (List.mem_map.mpr ⟨(items[position], position), ?_, rfl⟩)
        have pending : (⟨events, .running tasks⟩ : Observed T U E J).run.tasks.pending =
          items.zipIdx.drop started := underWay.waiting isFirst
        rw [pending]
        refine List.mem_iff_getElem?.mpr ⟨position - started, ?_⟩
        rw [List.getElem?_drop, List.getElem?_zipIdx, Nat.add_sub_cancel' (Nat.not_lt.mp isStarted),
          List.getElem?_eq_getElem less, Nat.zero_add]
        rfl
      | some earliest =>
        rw [isFirst] at noted
        have := before earliest.1 noted.2.1
        have := underWay.lt_started noted.2.1
        omega

/-- In whichever order the tasks end: no more of them run than the limit allows, none before every
failure seen is told to give up or dropped, no result is missing at the end, and the call returns
the results in the order of the items or the failure of the smallest position, always the same.
Every call can be continued to its return, and none goes on forever. -/
theorem runBlockingWithLimit_ordered (worker : Nat → T → Joined U E J) (items : List T)
    (positive : 0 < limit) :
    (∀ o, Observed.Reaches worker limit items o →
      o.run.tasks.active.length ≤ limit ∧
      (∀ position < items.length, (∀ first, Failed o.events first → position < first) →
        o.Keeps worker items position) ∧
      (∀ tasks, o.run ≠ .panicked tasks) ∧
      (∀ answer, o.run.result? = some answer → OrderedAnswer worker items answer ∧
        ∀ o' answer', Observed.Reaches worker limit items o' → o'.run.result? = some answer' →
          answer' = answer) ∧
      ∃ o', ReflTransGen (Observed.Step worker limit) o o' ∧ o'.run.result?.isSome) ∧
    ¬ ∃ calls : Nat → Observed T U E J, calls 0 = .init items ∧
      ∀ n, Observed.Step worker limit (calls n) (calls (n + 1)) := by
  have ordered : ∀ o answer, Observed.Reaches worker limit items o → o.run.result? = some answer →
      OrderedAnswer worker items answer := by
    intro o answer reaches isAnswer
    cases Observed.Good.of_reaches reaches with
    | running => cases isAnswer
    | returned limited holds served =>
      cases isAnswer
      exact holds
  constructor
  · intro o reaches
    have good := Observed.Good.of_reaches reaches
    refine ⟨?_, fun position => good.keeps, ?_, ?_, ?_⟩
    · cases good with
      | running underWay waits => exact underWay.limited
      | returned limited => exact limited
    · intro tasks panicked
      cases good <;> cases panicked
    · intro answer isAnswer
      have here := ordered o answer reaches isAnswer
      exact ⟨here, fun o' answer' reaches' isAnswer' =>
        (ordered o' answer' reaches' isAnswer').unique here⟩
    · apply exists_final (I := Observed.Good worker limit items)
      · exact fun _ _ => Observed.Good.step
      · exact fun _ _ _ => Observed.Step.remaining_lt
      · intro o good unfinished
        cases good with
        | running => exact Observed.exists_step worker positive _ _
        | returned => exact absurd rfl unfinished
      · exact good
  · rintro ⟨calls, start, steps⟩
    apply no_infinite_run (I := Observed.Good worker limit items)
      (fun _ _ => Observed.Good.step) (fun _ _ _ => Observed.Step.remaining_lt) calls _ steps
    rw [start]
    exact .of_reaches .refl

end Run

/-- A panic of the second of three tasks is what the call returns, whenever the third one fails. -/
theorem runBlockingWithLimit_panic :
    let worker := fun position (_ : Unit) =>
      if position = 0 then (.ok (.ok ()) : Joined Unit Unit Nat) else .error position
    (∃ o, Observed.Reaches worker 2 [(), (), ()] o ∧ o.run.result?.isSome) ∧
    ∀ o answer, Observed.Reaches worker 2 [(), (), ()] o → o.run.result? = some answer →
      answer = .error (.hashWorkerFailed 1) := by
  intro worker
  have always := (@runBlockingWithLimit_ordered _ _ _ _ 2 worker [(), (), ()] (by decide)).1
  constructor
  · obtain ⟨-, -, -, -, o, reaches, returned⟩ := always _ .refl
    exact ⟨o, reaches, returned⟩
  · intro o answer reaches isAnswer
    obtain ⟨-, -, -, answers, -⟩ := always o reaches
    refine (answers answer isAnswer).1.unique ⟨1, (), rfl, rfl, fun earlier less item' _ => ?_⟩
    cases Nat.lt_one_iff.mp less
    rfl

end Duet
