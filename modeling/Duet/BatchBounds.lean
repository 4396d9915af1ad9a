import Duet.FrameAcceptance
import Duet.Sync.PublicationBatch

/-!
# The bounds of a publication batch, and what reaches a slot

The limits are looked at before an output begins and after it ended. Between the two the batch does
not change, so that an output either finds room or comes into an empty batch.

What the log of a pipeline says about the outputs is one equation: as long as nothing failed, the
finished outputs are those that were placed, followed by those in the batch.
-/

namespace Duet.Detail

open Lib Relation

/-! ## Results of the workers -/

section Workers

variable {answers : SealAnswers} {workers : Nat} {pending : List PendingOutput}

theorem workerCount_pos (workers pending : Nat) : 0 < workerCount workers pending :=
  Nat.lt_of_lt_of_le Nat.zero_lt_one (Nat.le_max_right _ _)

/-- The outputs of a batch are looked at with what their own sync gave. -/
theorem checkResults_eq_ok {items : List (PendingOutput × Option SyncOutcome)} {index : Nat}
    (accepted : checkResults index items = .ok ()) :
    ∀ item ∈ items, ∃ outcome, item.2 = some outcome ∧ outcome.error? = none := by
  induction items generalizing index with
  | nil =>
    intro item mem
    cases mem
  | cons first rest ih =>
    obtain ⟨item, result⟩ := first
    cases result with
    | none => cases accepted
    | some outcome =>
      cases error : outcome.error? with
      | some cause =>
        simp only [checkResults, error] at accepted
        cases accepted
      | none =>
        simp only [checkResults, error] at accepted
        intro other mem
        rcases List.mem_cons.mp mem with rfl | later
        · exact ⟨outcome, rfl, error⟩
        · exact ih accepted other later

/-- When the results are accepted, every sync of the batch succeeded. -/
theorem sync_of_checkResults
    (possible : answers.Possible workers pending.length)
    (started : ¬ answers.spawned < workerCount workers pending.length)
    (accepted : checkResults 0 (pending.zip
      (WorkerPool.collect pending.length answers.received)) = .ok ()) :
    ∀ index < pending.length, (answers.sync index).error? = none := by
  obtain ⟨-, pool, ran, received⟩ := possible
  have positive : 0 < answers.spawned :=
    Nat.lt_of_lt_of_le (workerCount_pos _ _) (Nat.not_lt.mp started)
  rw [received, ran.collect_eq positive] at accepted
  intro index inside
  have mem : (pending[index], some (answers.sync index)) ∈ pending.zip
      ((List.range pending.length).map fun index => some (answers.sync index)) := by
    rw [List.mem_iff_getElem]
    refine ⟨index, by simpa using inside, ?_⟩
    rw [List.getElem_zip, List.getElem_map, List.getElem_range]
  obtain ⟨outcome, same, success⟩ := checkResults_eq_ok accepted _ mem
  rw [Option.some.inj same]
  exact success

/-- The workers only sync outputs of the batch. -/
theorem syncEvents_of_mem {received : List (Nat × SyncOutcome)} {event : BatchEvent}
    (mem : event ∈ syncEvents pending received) :
    ∃ item ∈ pending, event = .synced item ∨ event = .syncFailed item := by
  obtain ⟨sent, -, found⟩ := List.mem_filterMap.mp mem
  obtain ⟨item, at_index, rfl⟩ := Option.map_eq_some_iff.mp found
  refine ⟨item, List.mem_of_getElem? at_index, ?_⟩
  unfold syncEvent
  split
  · exact Or.inl rfl
  · exact Or.inr rfl

/-- When every sync succeeded, the workers synced every output of the batch, and nothing else. -/
theorem syncEvents_of_success
    (possible : answers.Possible workers pending.length)
    (started : ¬ answers.spawned < workerCount workers pending.length)
    (success : ∀ index < pending.length, (answers.sync index).error? = none) :
    (∀ item ∈ pending, .synced item ∈ syncEvents pending answers.received) ∧
      ∀ event ∈ syncEvents pending answers.received, ∃ item ∈ pending, event = .synced item := by
  obtain ⟨-, pool, ran, received⟩ := possible
  have positive : 0 < answers.spawned :=
    Nat.lt_of_lt_of_le (workerCount_pos _ _) (Nat.not_lt.mp started)
  obtain ⟨once, correct⟩ := ran.received_perm positive
  rw [← received] at once correct
  have isSynced : ∀ sent ∈ answers.received, ∀ item, syncEvent item sent.2 = .synced item := by
    intro sent mem item
    have inside : sent.1 < pending.length :=
      List.mem_range.mp (once.mem_iff.mp (List.mem_map_of_mem mem))
    rw [syncEvent, correct sent mem, success _ inside]
    rfl
  constructor
  · intro item mem
    obtain ⟨index, inside, at_index⟩ := List.mem_iff_getElem.mp mem
    obtain ⟨sent, sent_mem, same⟩ :=
      List.mem_map.mp (once.mem_iff.mpr (List.mem_range.mpr inside))
    refine List.mem_filterMap.mpr ⟨sent, sent_mem, ?_⟩
    rw [same, List.getElem?_eq_getElem inside, at_index, Option.map_some,
      isSynced sent sent_mem]
  · intro event mem
    obtain ⟨sent, sent_mem, found⟩ := List.mem_filterMap.mp mem
    obtain ⟨item, at_index, rfl⟩ := Option.map_eq_some_iff.mp found
    exact ⟨item, List.mem_of_getElem? at_index, isSynced sent sent_mem item⟩

end Workers

/-! ## Sealing -/

/-- Filling places the first outputs, and all of them when it succeeds. -/
theorem fillSlots_eq (closes : PendingOutput → Bool) (items : List PendingOutput)
    (slots : PreparedSlots) :
    ∃ placed rest, items = placed ++ rest ∧
      (fillSlots closes items slots).slots = placed.foldl placeOutput slots ∧
      (fillSlots closes items slots).log = placed.map .placed ∧
      ((fillSlots closes items slots).result = .ok () → rest = []) := by
  induction items generalizing slots with
  | nil => exact ⟨[], [], rfl, rfl, rfl, fun _ => rfl⟩
  | cons item rest ih =>
    unfold fillSlots
    by_cases closed : closes item = true
    · rw [if_pos closed]
      by_cases occupied : (slots item.actionIndex).isSome = true
      · rw [if_pos occupied]
        refine ⟨[item], rest, rfl, rfl, rfl, fun ok => ?_⟩
        cases ok
      · rw [if_neg occupied]
        obtain ⟨placed, left, split, filled, log, all⟩ := ih (placeOutput slots item)
        exact ⟨item :: placed, left, congrArg _ split, filled, congrArg _ log, all⟩
    · rw [if_neg closed]
      refine ⟨[], item :: rest, rfl, rfl, rfl, fun ok => ?_⟩
      cases ok

/-- What sealing a batch comes to: nothing is placed, or all syncs succeeded, and then the marker's,
before the first outputs are placed. -/
inductive Sealing (pending : List PendingOutput) (slots : PreparedSlots) (marker : Bool) :
    Except SealError Unit → PreparedSlots → List BatchEvent → Prop
  | refused {cause : SealError} {events : List BatchEvent} :
    (∀ event ∈ events, ∃ item ∈ pending, event = .synced item ∨ event = .syncFailed item) →
    Sealing pending slots marker (.error cause) slots events
  | placed {result : Except SealError Unit} {synced : List BatchEvent}
      {placed rest : List PendingOutput} :
    (∀ item ∈ pending, .synced item ∈ synced) →
    (∀ event ∈ synced, ∃ item ∈ pending, event = .synced item) →
    pending = placed ++ rest → (result = .ok () → rest = []) →
    Sealing pending slots marker result (placed.foldl placeOutput slots)
      (synced ++ ((if marker then [.markerSynced] else []) ++ placed.map .placed))

namespace OutputPipeline

variable {pipeline next : OutputPipeline} {answers : SealAnswers} {attempt : Bool}
  {actions : Actions} {limits : PublicationLimits}

/-- The pipeline after a sealing that took the batch. -/
def sealed (pipeline : OutputPipeline) (slots : PreparedSlots) (events : List BatchEvent) :
    OutputPipeline :=
  { pipeline with
    batch := { pipeline.batch with pending := [], pendingBytes := 0 }
    preparedOutputs := slots
    log := pipeline.log ++ .taken pipeline.batch.pending :: events }

theorem sealInto_empty (empty : pipeline.batch.pending = []) :
    pipeline.sealInto answers = (.ok (), pipeline) := by
  simp [sealInto, empty]

theorem sealInto_cases (pending : pipeline.batch.pending ≠ [])
    (possible : answers.Possible pipeline.workers pipeline.batch.pending.length) :
    ∃ result slots events, pipeline.sealInto answers = (result, pipeline.sealed slots events) ∧
      Sealing pipeline.batch.pending pipeline.preparedOutputs pipeline.preparingMarker
        result slots events := by
  have some : pipeline.batch.pending.isEmpty = false := by simpa using pending
  have only : ∀ event ∈ syncEvents pipeline.batch.pending answers.received,
      ∃ item ∈ pipeline.batch.pending, event = .synced item ∨ event = .syncFailed item :=
    fun _ mem => syncEvents_of_mem mem
  unfold sealInto
  simp only [some, Bool.false_eq_true, if_false]
  split
  · exact ⟨_, _, _, rfl, .refused only⟩
  · next started =>
    split
    · exact ⟨_, _, _, rfl, .refused only⟩
    · next accepted =>
      split
      · exact ⟨_, _, _, rfl, .refused only⟩
      · obtain ⟨each, none_else⟩ := syncEvents_of_success possible started
          (sync_of_checkResults possible started accepted)
        obtain ⟨placed, rest, divided, filled, log, all⟩ :=
          fillSlots_eq answers.closes pipeline.batch.pending pipeline.preparedOutputs
        refine ⟨_, _, _, ?_, .placed each none_else divided all⟩
        simp only [sealed, filled, log, List.append_assoc, List.cons_append]

/-- The batch is empty after every sealing, and the next stage is reached when it succeeds. -/
theorem sealOutputs_cases (after : OutputStage)
    (possible : answers.Possible pipeline.workers pipeline.batch.pending.length) :
    (pipeline.batch.pending = [] ∧
      pipeline.sealOutputs answers after = { pipeline with stage := after }) ∨
    (pipeline.batch.pending ≠ [] ∧ ∃ slots events,
      (Sealing pipeline.batch.pending pipeline.preparedOutputs pipeline.preparingMarker
          (.ok ()) slots events ∧
        pipeline.sealOutputs answers after =
          { pipeline.sealed slots events with stage := after }) ∨
      (∃ cause, Sealing pipeline.batch.pending pipeline.preparedOutputs pipeline.preparingMarker
          (.error cause) slots events ∧
        pipeline.sealOutputs answers after =
          { pipeline.sealed slots events with stage := .failed })) := by
  unfold sealOutputs
  by_cases empty : pipeline.batch.pending = []
  · rw [sealInto_empty empty]
    exact Or.inl ⟨empty, rfl⟩
  · obtain ⟨result, slots, events, found, sealing⟩ := sealInto_cases empty possible
    rw [found]
    refine Or.inr ⟨empty, slots, events, ?_⟩
    cases result with
    | ok => exact Or.inl ⟨sealing, rfl⟩
    | error cause => exact Or.inr ⟨cause, sealing, rfl⟩

end OutputPipeline

/-! ## The bounds -/

def contentBytes (items : List PendingOutput) : Nat :=
  (items.map fun item => item.prepared.finalEntry.size.toNat).sum

theorem contentBytes_append (items : List PendingOutput) (item : PendingOutput) :
    contentBytes (items ++ [item]) =
      contentBytes items + item.prepared.finalEntry.size.toNat := by
  simp [contentBytes]

/-- The output that a stage leads to. -/
def OutputStage.begun? : OutputStage → Option (Nat × Nat)
  | .creating actionIndex bytes | .writing actionIndex bytes => some (actionIndex, bytes)
  | .sealing next => next.begun?
  | .between | .prepared | .failed => none

/-- The output that the batch has room for. -/
def OutputStage.inProgress? : OutputStage → Option (Nat × Nat)
  | .creating actionIndex bytes | .writing actionIndex bytes => some (actionIndex, bytes)
  | .sealing _ | .between | .prepared | .failed => none

/-- The size that was given when an output began is the one of the output entry of its action. -/
def Begun (actions : Actions) (actionIndex bytes : Nat) : Prop :=
  ∃ action entry, actions[actionIndex]? = some action ∧ actionOutputEntry action = .ok entry ∧
    bytes = entry.size.toNat

/-- The entry of a finished output has the size that was given when the output began. -/
theorem Begun.size_finished {actions : Actions} {actionIndex bytes : Nat} {action : Action}
    {entry : DirEntryWithMeta} (begun : Begun actions actionIndex bytes)
    (found : actions[actionIndex]? = some action) (finished : finishedEntry action = .ok entry) :
    entry.size.toNat = bytes := by
  obtain ⟨begunAction, begunEntry, begunFound, output, size⟩ := begun
  rw [found] at begunFound
  cases begunFound
  rw [finishedEntry_of_output output] at finished
  cases finished
  exact size.symm

namespace OutputPipeline

/-- The batch can take an output of a size. -/
def Room (limits : OutputBatchConfig) (pending : List PendingOutput) (bytes : Nat) : Prop :=
  pending = [] ∨
    (pending.length < limits.maxFiles ∧ contentBytes pending + bytes ≤ limits.maxBytes)

/-- A batch within its limits. Where an output is in progress, the batch has room for it. -/
structure Bounded (actions : Actions) (limits : OutputBatchConfig) (pipeline : OutputPipeline) :
    Prop where
  config : pipeline.batch.config = limits
  saturated : pipeline.batch.pendingBytes = min (contentBytes pipeline.batch.pending) (2 ^ 64 - 1)
  count : pipeline.batch.pending.length ≤ limits.maxFiles
  size : contentBytes pipeline.batch.pending ≤ limits.maxBytes ∨
    pipeline.batch.pending.length ≤ 1
  begun : ∀ actionIndex bytes, pipeline.stage.begun? = some (actionIndex, bytes) →
    pipeline.actionIndex = actionIndex ∧ Begun actions actionIndex bytes
  room : ∀ actionIndex bytes, pipeline.stage.inProgress? = some (actionIndex, bytes) →
    Room limits pipeline.batch.pending bytes

variable {pipeline next : OutputPipeline} {answers : SealAnswers} {attempt : Bool}
  {actions : Actions} {limits : OutputBatchConfig}

theorem Bounded.empty (config : pipeline.batch.config = limits)
    (none : pipeline.batch.pending = []) (zero : pipeline.batch.pendingBytes = 0)
    (begun : ∀ actionIndex bytes, pipeline.stage.begun? = some (actionIndex, bytes) →
      pipeline.actionIndex = actionIndex ∧ Begun actions actionIndex bytes) :
    Bounded actions limits pipeline where
  config := config
  saturated := by rw [zero, none]; rfl
  count := by rw [none]; exact Nat.zero_le _
  size := by rw [none]; exact Or.inr (Nat.zero_le _)
  begun := begun
  room _ _ _ := Or.inl none

/-- What is not flushed has room for the output that begins. -/
theorem Bounded.room_of_not_flushed (bounded : Bounded actions limits pipeline) {bytes : Nat}
    (small : limits.maxBytes < 2 ^ 64 - 1)
    (fits : ¬ pipeline.batch.shouldFlushBefore bytes = true) :
    Room limits pipeline.batch.pending bytes := by
  by_cases empty : pipeline.batch.pending = []
  · exact Or.inl empty
  · right
    have total := bounded.saturated
    simp only [FilePublicationBatch.shouldFlushBefore, bounded.config, Bool.and_eq_true,
      Bool.not_eq_true', List.isEmpty_eq_false_iff, ne_eq, empty, not_false_eq_true, true_and,
      Bool.or_eq_true, decide_eq_true_eq, not_or, Nat.not_le, Nat.not_lt, saturatingAdd] at fits
    omega

/-- An output that there is room for leaves the batch within its limits. -/
theorem Bounded.push (bounded : Bounded actions limits pipeline) (some : 0 < limits.maxFiles)
    {item : PendingOutput}
    (room : Room limits pipeline.batch.pending item.prepared.finalEntry.size.toNat) :
    Bounded actions limits (pipeline.finishFileDetail item) := by
  have total := bounded.saturated
  have done : (pipeline.finishFileDetail item).stage.begun? = none ∧
      (pipeline.finishFileDetail item).stage.inProgress? = none := by
    simp only [finishFileDetail]
    split
    · exact ⟨rfl, rfl⟩
    · exact ⟨rfl, rfl⟩
  refine ⟨bounded.config, ?_, ?_, ?_, ?_, ?_⟩
  · simp only [finishFileDetail, FilePublicationBatch.push, contentBytes_append, saturatingAdd]
    omega
  · simp only [finishFileDetail, FilePublicationBatch.push, List.length_append,
      List.length_singleton]
    rcases room with empty | ⟨fewer, -⟩
    · rw [empty]
      exact some
    · exact fewer
  · simp only [finishFileDetail, FilePublicationBatch.push, contentBytes_append,
      List.length_append, List.length_singleton]
    rcases room with empty | ⟨-, fits⟩
    · rw [empty]
      exact Or.inr (Nat.le_refl _)
    · exact Or.inl fits
  · intro other size same
    rw [done.1] at same
    cases same
  · intro other size same
    rw [done.2] at same
    cases same

theorem Bounded.step (normal : 0 < limits.maxFiles ∧ limits.maxBytes < 2 ^ 64 - 1)
    (bounded : Bounded actions limits pipeline) (step : Step actions attempt pipeline next) :
    Bounded actions limits next := by
  cases step with
  | @beginDetail actionIndex action entry between later found output =>
    have begins : Begun actions actionIndex entry.size.toNat := ⟨action, entry, found, output, rfl⟩
    refine ⟨bounded.config, bounded.saturated, bounded.count, bounded.size, ?_, ?_⟩
    · intro other bytes same
      simp only [beginDetail, flushBeforeOutput] at same ⊢
      split at same
      · cases same
        exact ⟨rfl, begins⟩
      · cases same
        exact ⟨rfl, begins⟩
    · intro other bytes same
      simp only [beginDetail, flushBeforeOutput] at same ⊢
      split at same
      · cases same
      · next fits =>
        cases same
        exact bounded.room_of_not_flushed normal.2 fits
  | @newOutput actionIndex bytes creating =>
    refine ⟨bounded.config, bounded.saturated, bounded.count, bounded.size, ?_, ?_⟩
    · intro other size same
      exact bounded.begun other size (by rw [creating]; exact same)
    · intro other size same
      exact bounded.room other size (by rw [creating]; exact same)
  | @finishFileDetail actionIndex bytes action entry output publication ino writing found
      finished =>
    obtain ⟨-, begun⟩ := bounded.begun actionIndex bytes (by rw [writing]; rfl)
    have room := bounded.room actionIndex bytes (by rw [writing]; rfl)
    have size : entry.size.toNat = bytes := begun.size_finished found finished
    rw [← size] at room
    exact bounded.push normal.1 room
  | finishPreparation between =>
    refine ⟨bounded.config, bounded.saturated, bounded.count, bounded.size, ?_, ?_⟩
    · intro other size same
      cases same
    · intro other size same
      cases same
  | @sealOutputs after answers sealing possible =>
    have begun : ∀ actionIndex bytes, after.begun? = some (actionIndex, bytes) →
        pipeline.actionIndex = actionIndex ∧ Begun actions actionIndex bytes := by
      intro actionIndex bytes same
      exact bounded.begun actionIndex bytes (by rw [sealing]; exact same)
    rcases sealOutputs_cases after possible with
      ⟨empty, eq⟩ | ⟨-, slots, events, ⟨-, eq⟩ | ⟨cause, -, eq⟩⟩
    · have zero : pipeline.batch.pendingBytes = 0 := by
        rw [bounded.saturated, empty]
        rfl
      rw [eq]
      exact Bounded.empty bounded.config empty zero begun
    · rw [eq]
      exact Bounded.empty bounded.config rfl rfl begun
    · rw [eq]
      refine Bounded.empty bounded.config rfl rfl fun actionIndex bytes same => ?_
      cases same
  | refuse notSealing =>
    refine ⟨bounded.config, bounded.saturated, bounded.count, bounded.size, ?_, ?_⟩
    · intro other size same
      cases same
    · intro other size same
      cases same

end OutputPipeline

/-! ## The log -/

def BatchEvent.finished? : BatchEvent → Option PendingOutput
  | .finished item => some item
  | _ => none

def BatchEvent.placed? : BatchEvent → Option PendingOutput
  | .placed item => some item
  | _ => none

def finishedOutputs (log : List BatchEvent) : List PendingOutput :=
  log.filterMap BatchEvent.finished?

def placedOutputs (log : List BatchEvent) : List PendingOutput :=
  log.filterMap BatchEvent.placed?

section Log

variable {log events : List BatchEvent} {item : PendingOutput} {attempt : Bool}

theorem mem_placedOutputs : item ∈ placedOutputs log ↔ .placed item ∈ log := by
  unfold placedOutputs
  rw [List.mem_filterMap]
  constructor
  · rintro ⟨event, mem, found⟩
    cases event <;> cases found
    exact mem
  · intro mem
    exact ⟨_, mem, rfl⟩

@[simp] theorem finishedOutputs_append :
    finishedOutputs (log ++ events) = finishedOutputs log ++ finishedOutputs events :=
  List.filterMap_append

@[simp] theorem placedOutputs_append :
    placedOutputs (log ++ events) = placedOutputs log ++ placedOutputs events :=
  List.filterMap_append

theorem placedOutputs_map (items : List PendingOutput) :
    placedOutputs (items.map .placed) = items := by
  induction items with
  | nil => rfl
  | cons item items ih => exact congrArg _ ih

theorem finishedOutputs_map (items : List PendingOutput) :
    finishedOutputs (items.map .placed) = [] := by
  induction items with
  | nil => rfl
  | cons item items ih => exact ih

/-- Its own sync has succeeded, and where there is a marker, the marker's after it. -/
def SyncedIn (attempt : Bool) (before : List BatchEvent) (item : PendingOutput) : Prop :=
  .synced item ∈ before ∧
    (attempt = true → ∃ earlier later, before = earlier ++ .markerSynced :: later ∧
      .synced item ∈ earlier)

def PlacedAfterSync (attempt : Bool) (log : List BatchEvent) : Prop :=
  ∀ before item after, log = before ++ .placed item :: after → SyncedIn attempt before item

/-- A batch with a failed sync has no output in a slot. -/
def FailedBatchesKeptOut (log : List BatchEvent) : Prop :=
  ∀ items, .taken items ∈ log → ∀ failed ∈ items, .syncFailed failed ∈ log →
    ∀ item ∈ items, .placed item ∉ log

theorem SyncedIn.append (synced : SyncedIn attempt log item) (more : List BatchEvent) :
    SyncedIn attempt (log ++ more) item := by
  refine ⟨List.mem_append_left _ synced.1, fun marker => ?_⟩
  obtain ⟨earlier, later, rfl, mem⟩ := synced.2 marker
  exact ⟨earlier, later ++ more, by simp, mem⟩

theorem PlacedAfterSync.concat (kept : PlacedAfterSync attempt log) {event : BatchEvent}
    (new : ∀ item, event = .placed item → SyncedIn attempt log item) :
    PlacedAfterSync attempt (log ++ [event]) := by
  intro before item after eq
  rcases List.eq_nil_or_concat after with rfl | ⟨after, last, rfl⟩
  · obtain ⟨rfl, same⟩ := List.append_inj' eq rfl
    exact new item (List.singleton_inj.mp same)
  · rw [List.concat_eq_append, ← List.cons_append, ← List.append_assoc] at eq
    obtain ⟨rfl, -⟩ := List.append_inj' eq rfl
    exact kept before item after rfl

theorem PlacedAfterSync.append (kept : PlacedAfterSync attempt log)
    (new : ∀ item, .placed item ∈ events → SyncedIn attempt log item) :
    PlacedAfterSync attempt (log ++ events) := by
  induction events generalizing log with
  | nil =>
    rw [List.append_nil]
    exact kept
  | cons event rest ih =>
    rw [List.append_cons]
    refine ih (kept.concat ?_) ?_
    · intro item eq
      exact new item (eq ▸ List.mem_cons_self)
    · intro item mem
      exact (new item (List.mem_cons_of_mem _ mem)).append [event]

end Log

/-! ## The slots -/

/-- Slots that hold what was placed. -/
def Filled (slots : PreparedSlots) (placed : List PendingOutput) : Prop :=
  ∀ actionIndex prepared,
    slots actionIndex = some prepared ↔ ⟨actionIndex, prepared⟩ ∈ placed

def Increasing (items : List PendingOutput) : Prop :=
  items.Pairwise fun first second => first.actionIndex < second.actionIndex

theorem Increasing.apart {earlier later : List PendingOutput}
    (increasing : Increasing (earlier ++ later)) {first second : PendingOutput}
    (inEarlier : first ∈ earlier) (inLater : second ∈ later) :
    first.actionIndex < second.actionIndex :=
  (List.pairwise_append.mp increasing).2.2 first inEarlier second inLater

theorem Filled.place {slots : PreparedSlots} {placed : List PendingOutput} {item : PendingOutput}
    (filled : Filled slots placed) (increasing : Increasing (placed ++ [item])) :
    Filled (placeOutput slots item) (placed ++ [item]) := by
  intro actionIndex prepared
  unfold placeOutput
  by_cases own : actionIndex = item.actionIndex
  · subst own
    rw [Function.update_self, List.mem_append, List.mem_singleton]
    constructor
    · intro same
      cases same
      exact Or.inr rfl
    · intro mem
      rcases mem with earlier | same
      · exact absurd (increasing.apart earlier (List.mem_singleton_self item)) (Nat.lt_irrefl _)
      · exact congrArg (fun item => some item.prepared) same.symm
  · rw [Function.update_of_ne own, filled, List.mem_append, List.mem_singleton]
    constructor
    · exact Or.inl
    · intro mem
      rcases mem with earlier | rfl
      · exact earlier
      · exact absurd rfl own

theorem Filled.foldl {slots : PreparedSlots} {placed items : List PendingOutput}
    (filled : Filled slots placed) (increasing : Increasing (placed ++ items)) :
    Filled (items.foldl placeOutput slots) (placed ++ items) := by
  induction items generalizing slots placed with
  | nil =>
    rw [List.append_nil]
    exact filled
  | cons item rest ih =>
    rw [List.append_cons] at increasing ⊢
    exact ih (filled.place (List.pairwise_append.mp increasing).1) increasing

/-! ## What is kept -/

/-- What sealing can lead to. -/
def OutputStage.follows : OutputStage → Bool
  | .between | .creating _ _ | .prepared => true
  | .writing _ _ | .sealing _ | .failed => false

namespace OutputPipeline

/-- What a log and the slots say at any time, also after a failure. -/
structure Recorded (attempt : Bool) (slots : PreparedSlots) (log : List BatchEvent) : Prop where
  placed : placedOutputs log <+: finishedOutputs log
  increasing : Increasing (finishedOutputs log)
  filled : Filled slots (placedOutputs log)
  afterSync : PlacedAfterSync attempt log
  keptOut : FailedBatchesKeptOut log

/-- As long as nothing has failed, nothing is lost. -/
structure Intact (attempt : Bool) (pipeline : OutputPipeline) : Prop where
  finished : finishedOutputs pipeline.log =
    placedOutputs pipeline.log ++ pipeline.batch.pending
  earlier : ∀ item ∈ finishedOutputs pipeline.log, item.actionIndex < pipeline.actionIndex
  taken : ∀ items, .taken items ∈ pipeline.log → ∀ item ∈ items, .placed item ∈ pipeline.log
  success : ∀ item, .syncFailed item ∉ pipeline.log
  marker : pipeline.batch.pending ≠ [] ∨ (∃ actionIndex bytes,
    pipeline.stage = .writing actionIndex bytes) → pipeline.preparingMarker = attempt
  atEnd : pipeline.stage = .prepared → pipeline.batch.pending = []
  goesOn : ∀ next, pipeline.stage = .sealing next → next.follows = true

structure Kept (attempt : Bool) (pipeline : OutputPipeline) : Prop where
  recorded : Recorded attempt pipeline.preparedOutputs pipeline.log
  intact : pipeline.stage ≠ .failed → Intact attempt pipeline

variable {pipeline next : OutputPipeline} {answers : SealAnswers} {attempt : Bool}
  {actions : Actions} {limits : OutputBatchConfig}

theorem Kept.start (limits : PublicationLimits) (soft : Option Nat) :
    Kept attempt (OutputPipeline.start limits soft) where
  recorded := by
    refine ⟨List.nil_prefix, List.Pairwise.nil, ?_, ?_, ?_⟩
    · intro actionIndex prepared
      simp [OutputPipeline.start, placedOutputs]
    · intro before item after eq
      have := congrArg List.length eq
      simp [OutputPipeline.start] at this
    · intro items mem
      cases mem
  intact _ := by
    refine ⟨rfl, ?_, ?_, ?_, ?_, fun _ => rfl, ?_⟩
    · intro item mem
      cases mem
    · intro items mem
      cases mem
    · intro item mem
      cases mem
    · intro busy
      rcases busy with pending | ⟨actionIndex, bytes, writing⟩
      · exact absurd rfl pending
      · cases writing
    · intro next sealing
      cases sealing

/-- A finished output is recorded after all earlier ones. -/
theorem Kept.finish (kept : Kept attempt pipeline) (live : pipeline.stage ≠ .failed)
    (owned : pipeline.preparingMarker = attempt) {item : PendingOutput}
    (later : pipeline.actionIndex ≤ item.actionIndex) :
    Kept attempt (pipeline.finishFileDetail item) := by
  have intact := kept.intact live
  have recorded := kept.recorded
  have placed : placedOutputs (pipeline.log ++ [.finished item]) = placedOutputs pipeline.log := by
    rw [placedOutputs_append]
    exact List.append_nil _
  have finished : finishedOutputs (pipeline.log ++ [.finished item]) =
      finishedOutputs pipeline.log ++ [item] := finishedOutputs_append
  constructor
  · refine ⟨?_, ?_, ?_, ?_, ?_⟩
    · simp only [finishFileDetail, placed, finished]
      exact recorded.placed.trans (List.prefix_append _ _)
    · simp only [finishFileDetail, finished]
      refine List.pairwise_append.mpr ⟨recorded.increasing, List.pairwise_singleton _ _, ?_⟩
      intro first inFirst second inSecond
      rw [List.mem_singleton.mp inSecond]
      exact Nat.lt_of_lt_of_le (intact.earlier first inFirst) later
    · simp only [finishFileDetail, placed]
      exact recorded.filled
    · refine recorded.afterSync.concat fun other eq => ?_
      cases eq
    · intro items taken failed inItems failure other inItems' mem
      simp only [finishFileDetail, List.mem_append, List.mem_singleton, reduceCtorEq,
        or_false] at taken failure mem
      exact recorded.keptOut items taken failed inItems failure other inItems' mem
  · intro _
    refine ⟨?_, ?_, ?_, ?_, fun _ => owned, ?_, ?_⟩
    · simp only [finishFileDetail, placed, finished, FilePublicationBatch.push, intact.finished,
        List.append_assoc]
    · intro other mem
      simp only [finishFileDetail, finished, List.mem_append, List.mem_singleton] at mem ⊢
      rcases mem with earlier | rfl
      · have := intact.earlier other earlier
        omega
      · exact Nat.lt_succ_self _
    · intro items taken other inItems
      simp only [finishFileDetail, List.mem_append, List.mem_singleton, reduceCtorEq,
        or_false] at taken ⊢
      exact intact.taken items taken other inItems
    · intro other mem
      simp only [finishFileDetail, List.mem_append, List.mem_singleton, reduceCtorEq,
        or_false] at mem
      exact intact.success other mem
    · intro done
      simp only [finishFileDetail] at done
      split at done
      · cases done
      · cases done
    · intro next sealing
      simp only [finishFileDetail] at sealing
      split at sealing
      · cases sealing
        rfl
      · cases sealing

/-- The log of a sealing before anything is placed. -/
theorem outputs_of_syncs (pending : List PendingOutput) (events : List BatchEvent)
    (only : ∀ event ∈ events, ∃ item ∈ pending, event = .synced item ∨ event = .syncFailed item) :
    finishedOutputs (.taken pending :: events) = [] ∧
      placedOutputs (.taken pending :: events) = [] := by
  unfold finishedOutputs placedOutputs
  rw [List.filterMap_eq_nil_iff, List.filterMap_eq_nil_iff]
  have neither : ∀ event ∈ BatchEvent.taken pending :: events,
      event.finished? = none ∧ event.placed? = none := by
    intro event mem
    rcases List.mem_cons.mp mem with rfl | mem
    · exact ⟨rfl, rfl⟩
    · obtain ⟨item, -, rfl | rfl⟩ := only event mem
      · exact ⟨rfl, rfl⟩
      · exact ⟨rfl, rfl⟩
  exact ⟨fun event mem => (neither event mem).1, fun event mem => (neither event mem).2⟩

/-- A batch that is refused before anything is placed stays out of the slots. -/
theorem Kept.refused (kept : Kept attempt pipeline) (live : pipeline.stage ≠ .failed)
    {events : List BatchEvent}
    (only : ∀ event ∈ events, ∃ item ∈ pipeline.batch.pending,
      event = .synced item ∨ event = .syncFailed item) :
    Recorded attempt pipeline.preparedOutputs
      (pipeline.log ++ .taken pipeline.batch.pending :: events) := by
  have recorded := kept.recorded
  have intact := kept.intact live
  have increasing := recorded.increasing
  rw [intact.finished] at increasing
  obtain ⟨finished, placed⟩ := outputs_of_syncs _ _ only
  have notPlaced : ∀ item, .placed item ∈ pipeline.log ++
      BatchEvent.taken pipeline.batch.pending :: events → .placed item ∈ pipeline.log := by
    intro item mem
    rw [← mem_placedOutputs, placedOutputs_append, placed, List.append_nil] at mem
    exact mem_placedOutputs.mp mem
  refine ⟨?_, ?_, ?_, ?_, ?_⟩
  · rw [finishedOutputs_append, placedOutputs_append, finished, placed, List.append_nil,
      List.append_nil]
    exact recorded.placed
  · rw [finishedOutputs_append, finished, List.append_nil]
    exact recorded.increasing
  · rw [placedOutputs_append, placed, List.append_nil]
    exact recorded.filled
  · refine recorded.afterSync.append fun item mem => ?_
    have none := mem_placedOutputs.mpr mem
    rw [placed] at none
    cases none
  · intro items taken failed inItems failure item inItems' mem
    -- the failed sync is one of this batch, no output of which was placed before
    have inBatch : failed ∈ pipeline.batch.pending := by
      rcases List.mem_append.mp failure with earlier | now
      · exact absurd earlier (intact.success failed)
      · rcases List.mem_cons.mp now with same | now
        · cases same
        · obtain ⟨other, inPending, same | same⟩ := only _ now
          · cases same
          · cases same
            exact inPending
    have before := mem_placedOutputs.mpr (notPlaced item mem)
    rcases List.mem_append.mp taken with earlier | now
    · have placedFailed := mem_placedOutputs.mpr (intact.taken items earlier failed inItems)
      exact absurd (increasing.apart placedFailed inBatch) (Nat.lt_irrefl _)
    · rcases List.mem_cons.mp now with same | now
      · cases same
        exact absurd (increasing.apart before inItems') (Nat.lt_irrefl _)
      · obtain ⟨other, -, same | same⟩ := only _ now
        · cases same
        · cases same

section Placed

variable {synced : List BatchEvent} {placed rest : List PendingOutput}

/-- The log of a sealing that places outputs. -/
def placing (pipeline : OutputPipeline) (synced : List BatchEvent) (placed : List PendingOutput) :
    List BatchEvent :=
  synced ++ ((if pipeline.preparingMarker then [.markerSynced] else []) ++ placed.map .placed)

theorem mem_placing {event : BatchEvent} (mem : event ∈ pipeline.placing synced placed) :
    event ∈ synced ∨ event = .markerSynced ∨ ∃ item ∈ placed, event = .placed item := by
  rcases List.mem_append.mp mem with sync | mem
  · exact Or.inl sync
  · rcases List.mem_append.mp mem with marker | mem
    · split at marker
      · exact Or.inr (Or.inl (List.mem_singleton.mp marker))
      · cases marker
    · obtain ⟨item, inPlaced, same⟩ := List.mem_map.mp mem
      exact Or.inr (Or.inr ⟨item, inPlaced, same.symm⟩)

theorem outputs_of_placing (placed : List PendingOutput)
    (only : ∀ event ∈ synced, ∃ item ∈ pipeline.batch.pending, event = .synced item) :
    finishedOutputs (.taken pipeline.batch.pending :: pipeline.placing synced placed) = [] ∧
      placedOutputs (.taken pipeline.batch.pending :: pipeline.placing synced placed) = placed := by
  obtain ⟨noneFinished, nonePlaced⟩ := outputs_of_syncs pipeline.batch.pending synced
    fun event mem => by
      obtain ⟨item, inBatch, same⟩ := only event mem
      exact ⟨item, inBatch, Or.inl same⟩
  unfold placing
  rw [← List.cons_append, finishedOutputs_append, placedOutputs_append, noneFinished, nonePlaced,
    finishedOutputs_append, placedOutputs_append, finishedOutputs_map, placedOutputs_map]
  cases pipeline.preparingMarker with
  | false => exact ⟨rfl, rfl⟩
  | true => exact ⟨rfl, rfl⟩

/-- Where outputs are placed nothing failed. -/
theorem success_of_placing (intact : Intact attempt pipeline)
    (only : ∀ event ∈ synced, ∃ item ∈ pipeline.batch.pending, event = .synced item)
    (item : PendingOutput) :
    .syncFailed item ∉ pipeline.log ++
      .taken pipeline.batch.pending :: pipeline.placing synced placed := by
  intro mem
  rcases List.mem_append.mp mem with earlier | now
  · exact intact.success item earlier
  · rcases List.mem_cons.mp now with same | now
    · cases same
    · rcases mem_placing now with sync | same | ⟨other, -, same⟩
      · obtain ⟨other, -, same⟩ := only _ sync
        cases same
      · cases same
      · cases same

theorem Kept.moved (kept : Kept attempt pipeline) (live : pipeline.stage ≠ .failed)
    (some : pipeline.batch.pending ≠ [])
    (each : ∀ item ∈ pipeline.batch.pending, .synced item ∈ synced)
    (only : ∀ event ∈ synced, ∃ item ∈ pipeline.batch.pending, event = .synced item)
    (divided : pipeline.batch.pending = placed ++ rest) :
    Recorded attempt (placed.foldl placeOutput pipeline.preparedOutputs)
      (pipeline.log ++ .taken pipeline.batch.pending :: pipeline.placing synced placed) := by
  have recorded := kept.recorded
  have intact := kept.intact live
  have increasing := recorded.increasing
  rw [intact.finished, divided, ← List.append_assoc] at increasing
  obtain ⟨finished, outputs⟩ := outputs_of_placing placed only
  refine ⟨?_, ?_, ?_, ?_, ?_⟩
  · rw [finishedOutputs_append, placedOutputs_append, finished, outputs, List.append_nil,
      intact.finished, divided, ← List.append_assoc]
    exact List.prefix_append _ _
  · rw [finishedOutputs_append, finished, List.append_nil]
    exact recorded.increasing
  · rw [placedOutputs_append, outputs]
    exact recorded.filled.foldl (List.pairwise_append.mp increasing).1
  · unfold placing
    rw [← List.cons_append, ← List.append_assoc, ← List.append_assoc]
    have kept : PlacedAfterSync attempt (pipeline.log ++
        (.taken pipeline.batch.pending :: synced ++
          if pipeline.preparingMarker then [.markerSynced] else [])) := by
      refine recorded.afterSync.append fun item mem => ?_
      have none := (outputs_of_placing [] only).2
      unfold placing at none
      rw [List.map_nil, List.append_nil, ← List.cons_append] at none
      have placed := mem_placedOutputs.mpr mem
      rw [none] at placed
      cases placed
    rw [← List.append_assoc] at kept
    refine kept.append fun item mem => ?_
    have inBatch : item ∈ pipeline.batch.pending := by
      obtain ⟨other, inPlaced, same⟩ := List.mem_map.mp mem
      cases same
      rw [divided]
      exact List.mem_append_left _ inPlaced
    have own : .synced item ∈ pipeline.log ++ .taken pipeline.batch.pending :: synced :=
      List.mem_append_right _ (List.mem_cons_of_mem _ (each item inBatch))
    refine ⟨List.mem_append_left _ own, fun marked => ?_⟩
    rw [intact.marker (Or.inl some), marked, if_pos rfl]
    exact ⟨_, [], rfl, own⟩
  · intro items taken failed inItems failure
    exact absurd failure (success_of_placing intact only failed)

/-- A batch that was sealed is in the slots. -/
theorem Kept.sealed (kept : Kept attempt pipeline) (live : pipeline.stage ≠ .failed)
    (some : pipeline.batch.pending ≠ [])
    (each : ∀ item ∈ pipeline.batch.pending, .synced item ∈ synced)
    (only : ∀ event ∈ synced, ∃ item ∈ pipeline.batch.pending, event = .synced item)
    {after : OutputStage} (follows : after.follows = true) :
    Kept attempt { pipeline.sealed (pipeline.batch.pending.foldl placeOutput
      pipeline.preparedOutputs) (pipeline.placing synced pipeline.batch.pending) with
        stage := after } := by
  have intact := kept.intact live
  obtain ⟨finished, outputs⟩ :=
    outputs_of_placing pipeline.batch.pending only
  refine ⟨kept.moved live some each only (List.append_nil _).symm, fun _ => ?_⟩
  refine ⟨?_, ?_, ?_, success_of_placing intact only, ?_, fun _ => rfl, ?_⟩
  · simp only [OutputPipeline.sealed, finishedOutputs_append, placedOutputs_append, finished,
      outputs, List.append_nil, intact.finished]
  · intro item mem
    simp only [OutputPipeline.sealed, finishedOutputs_append, finished, List.append_nil] at mem
    exact intact.earlier item mem
  · intro items taken item inItems
    simp only [OutputPipeline.sealed] at taken ⊢
    rw [← mem_placedOutputs, placedOutputs_append, outputs, List.mem_append, mem_placedOutputs]
    rcases List.mem_append.mp taken with earlier | now
    · exact Or.inl (intact.taken items earlier item inItems)
    · rcases List.mem_cons.mp now with same | now
      · cases same
        exact Or.inr inItems
      · rcases mem_placing now with sync | same | ⟨other, -, same⟩
        · obtain ⟨other, -, same⟩ := only _ sync
          cases same
        · cases same
        · cases same
  · intro busy
    rcases busy with pending | ⟨actionIndex, bytes, writing⟩
    · exact absurd rfl pending
    · rw [show after = .writing actionIndex bytes from writing] at follows
      cases follows
  · intro next sealing
    rw [show after = .sealing next from sealing] at follows
    cases follows

end Placed

theorem Kept.fail (kept : Kept attempt pipeline) :
    Kept attempt { pipeline with stage := .failed } :=
  ⟨kept.recorded, fun live => absurd rfl live⟩

/-- The log, the slots and the batch stay as they are from one stage to the next. -/
theorem Kept.goOn (kept : Kept attempt pipeline) (live : pipeline.stage ≠ .failed)
    {actionIndex : Nat} (later : pipeline.actionIndex ≤ actionIndex) {after : OutputStage}
    (notWriting : ∀ index bytes, after ≠ .writing index bytes)
    (atEnd : after = .prepared → pipeline.batch.pending = [])
    (goesOn : ∀ next, after = .sealing next → next.follows = true) :
    Kept attempt { pipeline with actionIndex := actionIndex, stage := after } := by
  have intact := kept.intact live
  refine ⟨kept.recorded, fun _ => ⟨intact.finished, ?_, intact.taken, intact.success, ?_, atEnd,
    goesOn⟩⟩
  · intro item mem
    exact Nat.lt_of_lt_of_le (intact.earlier item mem) later
  · intro busy
    rcases busy with pending | ⟨index, bytes, writing⟩
    · exact intact.marker (Or.inl pending)
    · exact absurd writing (notWriting index bytes)

theorem Kept.seal (kept : Kept attempt pipeline) {after : OutputStage}
    (sealing : pipeline.stage = .sealing after)
    (possible : answers.Possible pipeline.workers pipeline.batch.pending.length) :
    Kept attempt (pipeline.sealOutputs answers after) := by
  have live : pipeline.stage ≠ .failed := by
    rw [sealing]
    exact nofun
  have follows := (kept.intact live).goesOn after sealing
  rcases sealOutputs_cases after possible with
    ⟨empty, eq⟩ | ⟨some, slots, events, ⟨done, eq⟩ | ⟨cause, refused, eq⟩⟩
  · rw [eq]
    refine kept.goOn live (Nat.le_refl _) ?_ (fun _ => empty) ?_
    · intro index bytes same
      rw [same] at follows
      cases follows
    · intro next same
      rw [same] at follows
      cases follows
  · rw [eq]
    cases done with
    | @placed _ synced placed rest each only divided all =>
      rw [all rfl, List.append_nil] at divided
      subst divided
      exact kept.sealed live some each only follows
  · rw [eq]
    cases refused with
    | refused only => exact ⟨kept.refused live only, fun live => absurd rfl live⟩
    | placed each only divided all =>
      exact ⟨kept.moved live some each only divided, fun live => absurd rfl live⟩

theorem Kept.step (bounded : Bounded actions limits pipeline) (kept : Kept attempt pipeline)
    (step : Step actions attempt pipeline next) : Kept attempt next := by
  cases step with
  | @beginDetail actionIndex action entry between later found output =>
    have live : pipeline.stage ≠ .failed := by
      rw [between]
      exact nofun
    refine kept.goOn live later ?_ ?_ ?_
    · intro index bytes same
      split at same
      · cases same
      · cases same
    · intro same
      split at same
      · cases same
      · cases same
    · intro next same
      split at same
      · cases same
        rfl
      · cases same
  | @newOutput actionIndex bytes creating =>
    have intact := kept.intact (by rw [creating]; exact nofun)
    refine ⟨kept.recorded, fun _ => ⟨intact.finished, intact.earlier, intact.taken, intact.success,
      fun _ => rfl, ?_, ?_⟩⟩
    · intro same
      cases same
    · intro next same
      cases same
  | @finishFileDetail actionIndex bytes action entry output publication ino writing found
      finished =>
    have live : pipeline.stage ≠ .failed := by
      rw [writing]
      exact nofun
    have owned := (kept.intact live).marker (Or.inr ⟨actionIndex, bytes, writing⟩)
    have index := (bounded.begun actionIndex bytes (by rw [writing]; rfl)).1
    exact kept.finish live owned (Nat.le_of_eq index)
  | finishPreparation between =>
    refine kept.goOn (by rw [between]; exact nofun) (Nat.le_refl _) ?_ ?_ ?_
    · intro index bytes same
      cases same
    · intro same
      cases same
    · intro next same
      cases same
      rfl
  | sealOutputs sealing possible => exact kept.seal sealing possible
  | refuse notSealing => exact kept.fail

/-! ## Runs -/

/-- The limits that are used are never zero, nor above the largest ones. -/
theorem normalized_bounds (limits : PublicationLimits) (soft : Option Nat) :
    0 < (limits.normalized soft).maxFiles ∧
      (limits.normalized soft).maxBytes < 2 ^ 64 - 1 := by
  constructor
  · refine (clamp_bounds _ ?_).1
    unfold maxOutputBatchFiles
    omega
  · have least : 1 ≤ maxOutputBatchBytes := by decide
    exact Nat.lt_of_le_of_lt (clamp_bounds limits.maxBytes least).2 (by decide)

theorem reached {soft : Option Nat} {limits : PublicationLimits}
    (run : ReflTransGen (Step actions attempt) (start limits soft) pipeline) :
    Bounded actions (limits.normalized soft).toOutputBatchConfig pipeline ∧
      Kept attempt pipeline := by
  refine invariant_of_run (I := fun pipeline =>
    Bounded actions (limits.normalized soft).toOutputBatchConfig pipeline ∧
      Kept attempt pipeline) ?_ run ⟨?_, Kept.start limits soft⟩
  · intro s t inv step
    exact ⟨inv.1.step (normalized_bounds limits soft) step, inv.2.step inv.1 step⟩
  · exact Bounded.empty rfl rfl rfl fun actionIndex bytes same => by cases same

/-- A sealing comes to its end, whatever the syncs give. -/
theorem exists_sealOutputs {after : OutputStage} (sealing : pipeline.stage = .sealing after)
    (sync : Nat → SyncOutcome) : ∃ answers, answers.sync = sync ∧
      Step actions attempt pipeline (pipeline.sealOutputs answers after) := by
  obtain ⟨pool, ran⟩ := WorkerPool.exists_ran sync pipeline.batch.pending.length
    (workerCount pipeline.workers pipeline.batch.pending.length)
  let answers : SealAnswers :=
    ⟨workerCount pipeline.workers pipeline.batch.pending.length, sync, pool.received, true,
      fun _ => true⟩
  exact ⟨answers, rfl, .sealOutputs sealing ⟨Nat.le_refl _, pool, ran, rfl⟩⟩

/-! ## The finished outputs of a run -/

/-- A run, with the outputs of its `finish_file_detail` steps in their order. -/
inductive Run (actions : Actions) (attempt : Bool) (first : OutputPipeline) :
    List PendingOutput → OutputPipeline → Prop
  | start : Run actions attempt first [] first
  | finish {finished : List PendingOutput} {pipeline : OutputPipeline} (item : PendingOutput)
      (before : Run actions attempt first finished pipeline)
      (step : Step actions attempt pipeline (pipeline.finishFileDetail item)) :
    Run actions attempt first (finished ++ [item]) (pipeline.finishFileDetail item)
  | other {finished : List PendingOutput} {pipeline next : OutputPipeline}
      (before : Run actions attempt first finished pipeline)
      (step : Step actions attempt pipeline next)
      (unfinished : ∀ item, next ≠ pipeline.finishFileDetail item) :
    Run actions attempt first finished next

/-- A sealing finishes no output. -/
theorem finished_sealed {result : Except SealError Unit} {slots : PreparedSlots}
    {events : List BatchEvent} (sealing : Sealing pipeline.batch.pending
      pipeline.preparedOutputs pipeline.preparingMarker result slots events) :
    finishedOutputs (pipeline.sealed slots events).log = finishedOutputs pipeline.log := by
  have nothing : finishedOutputs (.taken pipeline.batch.pending :: events) = [] := by
    cases sealing with
    | refused only => exact (outputs_of_syncs _ _ only).1
    | @placed result synced placed rest each only divided all =>
      exact (outputs_of_placing placed only).1
  unfold sealed
  rw [finishedOutputs_append, nothing, List.append_nil]

/-- Only `finish_file_detail` finishes an output. -/
theorem Step.finished (step : Step actions attempt pipeline next)
    (unfinished : ∀ item, next ≠ pipeline.finishFileDetail item) :
    finishedOutputs next.log = finishedOutputs pipeline.log := by
  cases step with
  | beginDetail between later found output => rfl
  | newOutput creating => rfl
  | finishFileDetail output publication ino writing found finished =>
    exact absurd rfl (unfinished _)
  | finishPreparation between => rfl
  | @sealOutputs after answers sealing possible =>
    rcases sealOutputs_cases after possible with
      ⟨-, eq⟩ | ⟨-, slots, events, ⟨sealed, eq⟩ | ⟨cause, sealed, eq⟩⟩
    · rw [eq]
    · rw [eq]
      exact finished_sealed sealed
    · rw [eq]
      exact finished_sealed sealed
  | refuse notSealing => rfl

theorem Run.steps {first : OutputPipeline} {finished : List PendingOutput}
    (run : Run actions attempt first finished pipeline) :
    ReflTransGen (Step actions attempt) first pipeline := by
  induction run with
  | start => exact .refl
  | finish item _ step ih => exact ih.tail step
  | other _ step _ ih => exact ih.tail step

theorem exists_run {first : OutputPipeline}
    (steps : ReflTransGen (Step actions attempt) first pipeline) :
    ∃ finished, Run actions attempt first finished pipeline := by
  induction steps with
  | refl => exact ⟨[], .start⟩
  | @tail before after _ step ih =>
    obtain ⟨finished, run⟩ := ih
    by_cases finishes : ∃ item, after = before.finishFileDetail item
    · obtain ⟨item, rfl⟩ := finishes
      exact ⟨finished ++ [item], run.finish item step⟩
    · exact ⟨finished, run.other step fun item eq => finishes ⟨item, eq⟩⟩

/-- The log has the outputs that the run has finished, in their order. -/
theorem Run.finished_log {first : OutputPipeline} {finished : List PendingOutput}
    (run : Run actions attempt first finished pipeline) :
    finishedOutputs pipeline.log = finishedOutputs first.log ++ finished := by
  induction run with
  | start => rw [List.append_nil]
  | @finish finished pipeline item _ step ih =>
    have log : (pipeline.finishFileDetail item).log = pipeline.log ++ [.finished item] := rfl
    rw [log, finishedOutputs_append, ih, List.append_assoc]
    rfl
  | other _ step unfinished ih => rw [step.finished unfinished, ih]

theorem run_iff {limits : PublicationLimits} {soft : Option Nat}
    (steps : ReflTransGen (Step actions attempt) (start limits soft) pipeline)
    (finished : List PendingOutput) :
    Run actions attempt (start limits soft) finished pipeline ↔
      finishedOutputs pipeline.log = finished := by
  constructor
  · exact Run.finished_log
  · rintro rfl
    obtain ⟨finished, run⟩ := exists_run steps
    have same : finishedOutputs pipeline.log = finished := run.finished_log
    exact same ▸ run

/-- In every run the batch stays within its limits, where one output alone may be larger; the
outputs that reach a slot are the first ones that the run finished, each once and in its own, all of
them at the end and none of them lost before a failure; each only after its own sync, and where
there is a marker after the sync of the marker that followed; and none of a batch with a failed
sync. -/
theorem batch_bounds (limits : PublicationLimits) (soft : Option Nat) (actions : Actions)
    (attempt : Bool) (pipeline : OutputPipeline)
    (run : ReflTransGen (Step actions attempt) (start limits soft) pipeline) :
    pipeline.batch.pending.length ≤ (limits.normalized soft).maxFiles ∧
    (contentBytes pipeline.batch.pending ≤ (limits.normalized soft).maxBytes ∨
      pipeline.batch.pending.length ≤ 1) ∧
    (∀ finished, Run actions attempt (start limits soft) finished pipeline ↔
      finishedOutputs pipeline.log = finished) ∧
    Increasing (finishedOutputs pipeline.log) ∧
    placedOutputs pipeline.log <+: finishedOutputs pipeline.log ∧
    (pipeline.stage ≠ .failed → finishedOutputs pipeline.log =
      placedOutputs pipeline.log ++ pipeline.batch.pending) ∧
    (pipeline.stage = .prepared →
      placedOutputs pipeline.log = finishedOutputs pipeline.log) ∧
    Filled pipeline.preparedOutputs (placedOutputs pipeline.log) ∧
    PlacedAfterSync attempt pipeline.log ∧
    FailedBatchesKeptOut pipeline.log := by
  obtain ⟨bounded, recorded, intact⟩ := reached run
  refine ⟨bounded.count, bounded.size, run_iff run, recorded.increasing, recorded.placed,
    fun live => (intact live).finished, fun prepared => ?_, recorded.filled, recorded.afterSync,
    recorded.keptOut⟩
  have live := intact (by rw [prepared]; exact nofun)
  rw [live.finished, live.atEnd prepared, List.append_nil]

/-- An output that the batch has room for is finished in three steps. -/
theorem steps_of_output {actionIndex : Nat} {action : Action} {entry : DirEntryWithMeta}
    (output : TempOutput) (publication : OutputPublication) (ino : UInt64)
    (between : pipeline.stage = .between) (later : pipeline.actionIndex ≤ actionIndex)
    (found : actions[actionIndex]? = some action) (isOutput : actionOutputEntry action = .ok entry)
    (fits : pipeline.batch.shouldFlushBefore entry.size.toNat = false) :
    ReflTransGen (Step actions attempt) pipeline
      (((pipeline.beginDetail actionIndex entry).newOutput attempt actionIndex
        entry.size.toNat).finishFileDetail
          ⟨actionIndex, ⟨output, entry.setIno ino, publication⟩⟩) := by
  have begins : Step actions attempt pipeline (pipeline.beginDetail actionIndex entry) :=
    .beginDetail between later found isOutput
  have creating : (pipeline.beginDetail actionIndex entry).stage =
      .creating actionIndex entry.size.toNat := by
    simp [beginDetail, flushBeforeOutput, fits]
  refine ((ReflTransGen.single begins).tail (.newOutput creating)).tail ?_
  exact .finishFileDetail output publication ino rfl found (finishedEntry_of_output isOutput)

/-- One worker goes through the outputs in their order. -/
theorem ran_alone {ρ : Type} (work : Nat → ρ) (bound : Nat) :
    WorkerPool.Ran work bound 1
      ⟨bound + 1, [.stopped], (List.range bound).map fun index => (index, work index)⟩ := by
  have reached : ∀ count ≤ bound, ReflTransGen (WorkerPool.Step work bound)
      (WorkerPool.start 1)
      ⟨count, [.looking], (List.range count).map fun index => (index, work index)⟩ := by
    intro count inside
    induction count with
    | zero => exact .refl
    | succ count ih =>
      have takes := @WorkerPool.Step.take _ work bound count [] []
        ((List.range count).map fun index => (index, work index))
      have sends := @WorkerPool.Step.send _ work bound (count + 1) count [] []
        ((List.range count).map fun index => (index, work index))
      rw [WorkerPool.taken, if_pos (Nat.lt_of_succ_le inside)] at takes
      rw [List.range_succ, List.map_append]
      exact ((ih (Nat.le_of_succ_le inside)).tail takes).tail sends
  have stops := @WorkerPool.Step.take _ work bound bound [] []
    ((List.range bound).map fun index => (index, work index))
  rw [WorkerPool.taken, if_neg (Nat.lt_irrefl bound)] at stops
  refine ⟨(reached bound (Nat.le_refl bound)).tail stops, ?_⟩
  intro worker mem
  exact List.mem_singleton.mp mem

/-- Three files, in batches of two, are in their slots at the end, each after its sync and the
marker's. -/
theorem batch_bounds_three_files :
    let file : UInt8 → DirEntryWithMeta :=
      fun name => ⟨[.normal [name]], 7, 0, 7, 0o100644, none, false, 0, none⟩
    let item : Nat → UInt8 → PendingOutput := fun index name =>
      ⟨index, ⟨⟨[.normal [name]], []⟩, (file name).setIno 9, .noReplace "rename target"⟩⟩
    let actions : Actions := [.local (.added (file 97)), .local (.removed (file 98)),
      .local (.added (file 99)), .local (.added (file 100))]
    let a := item 0 97
    let c := item 2 99
    let d := item 3 100
    ∃ pipeline : OutputPipeline,
      Run actions true (start ⟨⟨2, 64 * 1024 * 1024⟩, 1⟩ none) [a, c, d] pipeline ∧
      pipeline.stage = .prepared ∧
      pipeline.log = [.finished a, .finished c, .taken [a, c], .synced a, .synced c, .markerSynced,
        .placed a, .placed c, .finished d, .taken [d], .synced d, .markerSynced, .placed d] ∧
      Filled pipeline.preparedOutputs [a, c, d] ∧ PlacedAfterSync true pipeline.log := by
  intro file item actions a c d
  let limits : PublicationLimits := ⟨⟨2, 64 * 1024 * 1024⟩, 1⟩
  let answers : Nat → SealAnswers := fun count =>
    ⟨1, fun _ => .synced, (List.range count).map fun index => (index, .synced), true, fun _ => true⟩
  let log : List BatchEvent := [.finished a, .finished c, .taken [a, c], .synced a, .synced c,
    .markerSynced, .placed a, .placed c]
  let slots : PreparedSlots := placeOutput (placeOutput (fun _ => none) a) c
  let first : OutputPipeline :=
    ⟨1, ⟨limits.toOutputBatchConfig, [a], 7⟩, fun _ => none, true, 1, .between, [.finished a]⟩
  let second : OutputPipeline := ⟨1, ⟨limits.toOutputBatchConfig, [a, c], 14⟩, fun _ => none, true,
    3, .sealing .between, [.finished a, .finished c]⟩
  let between : OutputPipeline :=
    ⟨1, ⟨limits.toOutputBatchConfig, [], 0⟩, slots, true, 3, .between, log⟩
  let third : OutputPipeline :=
    ⟨1, ⟨limits.toOutputBatchConfig, [d], 7⟩, slots, true, 4, .between, log ++ [.finished d]⟩
  let ended : OutputPipeline := { third with stage := .sealing .prepared }
  let last : OutputPipeline := ⟨1, ⟨limits.toOutputBatchConfig, [], 0⟩, placeOutput slots d, true,
    4, .prepared, log ++ [.finished d, .taken [d], .synced d, .markerSynced, .placed d]⟩
  have toFirst : ReflTransGen (Step actions true) (start limits none) first :=
    steps_of_output ⟨[.normal [97]], []⟩ _ 9 rfl (Nat.le_refl 0) rfl rfl rfl
  have toSecond : ReflTransGen (Step actions true) first second :=
    steps_of_output ⟨[.normal [99]], []⟩ _ 9 rfl (by decide : 1 ≤ 2) rfl rfl rfl
  have sealed : second.sealOutputs (answers 2) .between = between := rfl
  have toBetween : Step actions true second between :=
    sealed ▸ .sealOutputs rfl ⟨Nat.le_refl _, _, ran_alone _ 2, rfl⟩
  have toThird : ReflTransGen (Step actions true) between third :=
    steps_of_output ⟨[.normal [100]], []⟩ _ 9 rfl (Nat.le_refl 3) rfl rfl rfl
  have toEnded : Step actions true third ended := .finishPreparation rfl
  have prepared : ended.sealOutputs (answers 1) .prepared = last := rfl
  have toLast : Step actions true ended last :=
    prepared ▸ .sealOutputs rfl ⟨Nat.le_refl _, _, ran_alone _ 1, rfl⟩
  have steps : ReflTransGen (Step actions true) (start limits none) last :=
    ((toFirst.trans (toSecond.tail toBetween)).trans (toThird.tail toEnded)).tail toLast
  obtain ⟨-, -, finished, -, -, -, -, filled, synced, -⟩ :=
    batch_bounds limits none actions true last steps
  exact ⟨last, (finished _).mpr rfl, rfl, rfl, filled, synced⟩

end OutputPipeline

end Duet.Detail
