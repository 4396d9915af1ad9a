import Duet.DetailAgreement
import Duet.ForwardPass
import Duet.PruneSafety
import Duet.Sync.SecondPass

/-!
# A commit from its checks to its manifest

`commit_run` says what every run of a commit leaves. When it returns, each change is in place
with its result, and only paths of changes and what was below removed directories is touched.
When it fails, what the marker was told of is in place.

Some of this is not up to the commit, and is assumed in `Plan`, `Emptied` and `ReadyToCommit`: no
path of the plan leads through a symbolic link to something or is a temporary name of a pruning,
an entry of a directory has no link target, and a receipt vouches for the outputs. No two paths of
the plan are names of one inode, and nothing else changes the tree during a commit: the model has
neither.

The second pass goes backwards over the plan. Its invariant (`Sweeping`) says that the actions
that are done are finished, and the others are as the forward pass left them.
-/

namespace Duet.Commit

open Lib

/-- No change leaves an entry below a path that another one removes, and no path of the plan
can be a temporary name of a pruning, which is up to who names the files. -/
structure Emptied (kernel : Kernel) (actions : Actions) : Prop where
  empty : ∀ a ∈ actions, ∀ c, a.appliedChange = some c → c.newEntry = none →
    ∀ b ∈ actions, a.path.Inside b.path → ∀ d, b.appliedChange = some d → d.newEntry = none
  lasting : ∀ a ∈ actions, kernel.Lasting a.path

/-- No change is at the path, and none removes something above it. -/
def Apart (actions : Actions) (q : Path) : Prop :=
  ∀ b ∈ actions, ∀ d, b.appliedChange = some d →
    b.path ≠ q ∧ (d.newEntry = none → ¬ b.path.Inside q)

theorem Apart.paths {actions : Actions} {q : Path} (apart : Apart actions q) :
    ∀ b ∈ actions, b.appliedChange.isSome → b.path ≠ q := by
  intro b mem isApplied
  obtain ⟨d, applied⟩ := Option.isSome_iff_exists.mp isApplied
  exact (apart b mem d applied).1

/-- What a commit has changed so far, and what it has recorded. -/
structure Contained (hashes : Detail.ContentHashes) (actions : Actions) (s t : State) : Prop where
  untouched : ∀ q, Apart actions q →
    t.disk.tree.entry? q = s.disk.tree.entry? q ∧ t.contents q = s.contents q
  records : ∀ r ∈ t.records, r ∈ s.records ∨ ∀ b, operation? r = some b →
    b ∈ actions ∧ InPlace hashes b t

/-- The second pass when some actions are done and some are left. -/
structure Sweeping (hashes : Detail.ContentHashes) (actions : Actions)
    (done rest : List (Action × Nat)) (s t : State) : Prop where
  finished : ∀ b j, (b, j) ∈ done → ∀ d, b.appliedChange = some d →
    Finished hashes d (t.spot b.path j)
  forwarded : ∀ b j, (b, j) ∈ rest → ∀ d, b.appliedChange = some d →
    Forwarded hashes d (s.spot b.path j) (t.spot b.path j)
  untouched : ∀ q, Apart actions q →
    t.disk.tree.entry? q = s.disk.tree.entry? q ∧ t.contents q = s.contents q
  records : ∀ r ∈ t.records, r ∈ s.records ∨ ∀ b, operation? r = some b →
    ∃ j, (b, j) ∈ done ∨ (b, j) ∈ rest ∧ Leaf b
  results : ∀ j : Nat, (∀ b : Action, actions[j]? = some b → b.appliedChange = none) →
    t.localResults[j]? = s.localResults[j]?

section Second

variable {kernel : Kernel} {hashes : Detail.ContentHashes} {actions : Actions} {allOld : Entries}
  {commitPlan : CommitPlan} {a b : Action} {c d : Change} {i j : Nat}
  {done rest : List (Action × Nat)} {s t u : State}

/-! ## One step -/

theorem spot_of_swept {p q : Path} {removed : Prop} (swept : Swept kernel p i removed t u)
    (path : q ≠ p) (index : j ≠ i) (apart : removed → ¬ p.Inside q) :
    u.spot q j = t.spot q j := by
  unfold State.spot
  rw [swept.entries q path apart, swept.contents q path, swept.results j index]

/-- What is finished stays finished when another action is carried out. -/
theorem finished_of_swept (swept : Swept kernel a.path i (c.newEntry = none) t u)
    (path : b.path ≠ a.path) (index : j ≠ i)
    (empty : c.newEntry = none → a.path.Inside b.path → d.newEntry = none)
    (lasting : kernel.Lasting b.path) (finished : Finished hashes d (t.spot b.path j)) :
    Finished hashes d (u.spot b.path j) := by
  by_cases below : c.newEntry = none ∧ a.path.Inside b.path
  · have isNone := empty below.1 below.2
    have free : t.disk.tree.entry? b.path = none := by
      have shows := finished.shows
      rwa [isNone] at shows
    refine ⟨?_, ?_⟩
    · rw [isNone]
      exact swept.absent _ below.2 lasting free
    · have result : t.localResults[j]? = some (resultOf d (t.spot b.path j).node) := finished.result
      rw [resultOf_none isNone] at result ⊢
      exact (swept.results j index).trans result
  · rw [spot_of_swept swept path index fun isNone inside => below ⟨isNone, inside⟩]
    exact finished

/-- The paths of the actions that are left come before the path of this one. -/
theorem apart_of_reverse (sorted : SortedBy Action.path actions)
    (split : actions.zipIdx.reverse = done ++ (a, i) :: rest) :
    (∀ b j, (b, j) ∈ done ∨ (b, j) ∈ rest → b.path ≠ a.path ∧ j ≠ i) ∧
      ∀ b j, (b, j) ∈ rest → ¬ a.path.Inside b.path := by
  have forward : actions.zipIdx = rest.reverse ++ (a, i) :: done.reverse := by
    rw [← List.reverse_inj, split]
    simp
  constructor
  · intro b j mem
    refine apart_of_split sorted forward ?_
    rw [List.mem_reverse, List.mem_reverse]
    exact mem.symm
  · intro b j mem inside
    have sortedSlots := sorted_slots sorted
    rw [forward] at sortedSlots
    obtain ⟨-, -, earlier⟩ := List.pairwise_append.mp sortedSlots
    have less := earlier _ (List.mem_reverse.mpr mem) _ List.mem_cons_self
    exact absurd less (le_of_isPrefix inside.1).not_gt

theorem mem_of_reverse (split : actions.zipIdx.reverse = done ++ rest)
    (mem : (b, j) ∈ done ∨ (b, j) ∈ rest) : actions[j]? = some b := by
  refine List.mk_mem_zipIdx_iff_getElem?.mp (List.mem_reverse.mp ?_)
  rw [split]
  exact List.mem_append.mpr mem

/-- What may be recorded before an action may be recorded after it. -/
theorem recorded_next (slot : (b, j) ∈ done ∨ (b, j) ∈ (a, i) :: rest ∧ Leaf b) :
    (b, j) ∈ done ++ [(a, i)] ∨ (b, j) ∈ rest ∧ Leaf b := by
  rcases slot with isDone | ⟨inRest, leaf⟩
  · exact .inl (List.mem_append_left _ isDone)
  · rcases List.mem_cons.mp inRest with same | later
    · exact .inl (List.mem_append_right _ (List.mem_singleton.mpr same))
    · exact .inr ⟨later, leaf⟩

/-- The action that was carried out is done. -/
theorem Sweeping.step (sweeping : Sweeping hashes actions done ((a, i) :: rest) s t)
    (sorted : SortedBy Action.path actions) (emptied : Emptied kernel actions)
    (split : actions.zipIdx.reverse = done ++ (a, i) :: rest) (applied : a.appliedChange = some c)
    (swept : Swept kernel a.path i (c.newEntry = none) t u)
    (finished : Finished hashes c (u.spot a.path i))
    (told : ∀ r ∈ u.records, r ∈ t.records ∨ ∀ b, operation? r = some b → b = a) :
    Sweeping hashes actions (done ++ [(a, i)]) rest s u := by
  obtain ⟨others, before⟩ := apart_of_reverse sorted split
  have mem : a ∈ actions :=
    List.mem_of_getElem? (mem_of_reverse split (.inr List.mem_cons_self))
  refine ⟨fun b j inside d isChange => ?_, fun b j inRest d isChange => ?_, fun q apart => ?_,
    fun r inRecords => ?_, fun j idle => ?_⟩
  · rcases List.mem_append.mp inside with isDone | here
    · have bMem : b ∈ actions := List.mem_of_getElem? (mem_of_reverse split (.inl isDone))
      obtain ⟨path, index⟩ := others b j (.inl isDone)
      exact finished_of_swept swept path index
        (fun isNone below => emptied.empty a mem c applied isNone b bMem below d isChange)
        (emptied.lasting b bMem) (sweeping.finished b j isDone d isChange)
    · cases List.mem_singleton.mp here
      rw [applied] at isChange
      cases isChange
      exact finished
  · obtain ⟨path, index⟩ := others b j (.inr inRest)
    rw [spot_of_swept swept path index fun _ => before b j inRest]
    exact sweeping.forwarded b j (List.mem_cons_of_mem _ inRest) d isChange
  · obtain ⟨ne, notBelow⟩ := apart a mem c applied
    rw [swept.entries q ne.symm notBelow, swept.contents q ne.symm]
    exact sweeping.untouched q apart
  · rcases told r inRecords with earlier | new
    · refine (sweeping.records r earlier).imp_right fun known b isOperation => ?_
      obtain ⟨j, slot⟩ := known b isOperation
      exact ⟨j, recorded_next slot⟩
    · refine .inr fun b isOperation => ⟨i, .inl (List.mem_append_right _ ?_)⟩
      rw [new b isOperation]
      exact List.mem_singleton_self _
  · have ne := ne_of_idle (mem_of_reverse split (.inr List.mem_cons_self)) applied idle
    exact (swept.results j ne).trans (sweeping.results j idle)

/-- The pass stops at a directory. -/
theorem Sweeping.stopped (sweeping : Sweeping hashes actions done ((a, i) :: rest) s t)
    (sorted : SortedBy Action.path actions) (emptied : Emptied kernel actions)
    (split : actions.zipIdx.reverse = done ++ (a, i) :: rest) (applied : a.appliedChange = some c)
    (isDir : c.isDir = true) (swept : Swept kernel a.path i (c.newEntry = none) t u)
    (quiet : Quiet t u) : Contained hashes actions s u := by
  obtain ⟨others, before⟩ := apart_of_reverse sorted split
  have mem : a ∈ actions :=
    List.mem_of_getElem? (mem_of_reverse split (.inr List.mem_cons_self))
  refine ⟨fun q apart => ?_, fun r inRecords => ?_⟩
  · obtain ⟨ne, notBelow⟩ := apart a mem c applied
    rw [swept.entries q ne.symm notBelow, swept.contents q ne.symm]
    exact sweeping.untouched q apart
  · rcases quiet r inRecords with earlier | noOperation
    · refine (sweeping.records r earlier).imp_right fun known b isOperation => ?_
      obtain ⟨j, slot⟩ := known b isOperation
      have bMem : b ∈ actions :=
        List.mem_of_getElem? (mem_of_reverse split (slot.imp_right And.left))
      refine ⟨bMem, fun d isChange => ?_⟩
      rcases slot with isDone | ⟨inRest, leaf⟩
      · obtain ⟨path, index⟩ := others b j (.inl isDone)
        exact (finished_of_swept swept path index
          (fun isNone below => emptied.empty a mem c applied isNone b bMem below d isChange)
          (emptied.lasting b bMem) (sweeping.finished b j isDone d isChange)).shows
      · rcases List.mem_cons.mp inRest with same | later
        · cases same
          rw [leaf c applied] at isDir
          cases isDir
        · obtain ⟨path, index⟩ := others b j (.inr later)
          have whole := (sweeping.forwarded b j inRest d isChange).whole (leaf d isChange)
          rw [← spot_of_swept swept path index fun _ => before b j later] at whole
          exact whole.shows
    · refine .inr fun b isOperation => ?_
      rw [noOperation] at isOperation
      cases isOperation

/-- How the second pass fails. -/
def SecondFails (kernel : Kernel) (hashes : Detail.ContentHashes) (actions : Actions) (s : State)
    (e : Error) (t : State) : Prop :=
  Contained hashes actions s t ∧ ∃ a ∈ actions, SweepFails kernel a.path t.disk.tree e

theorem sweeping_step (plan : Plan kernel actions allOld s.disk.tree)
    (emptied : Emptied kernel actions) (waiting : ∀ (i : Nat) (a : Action) c, actions[i]? = some a →
      a.appliedChange = some c → Waiting hashes c (s.spot a.path i))
    (split : actions.zipIdx.reverse = done ++ (a, i) :: rest)
    (sweeping : Sweeping hashes actions done ((a, i) :: rest) s t) :
    (secondPassStep kernel hashes actions commitPlan (a, i)).Ends
      (fun _ u => Sweeping hashes actions (done ++ [(a, i)]) rest s u)
      (SecondFails kernel hashes actions s) t := by
  have isAction := mem_of_reverse split (.inr List.mem_cons_self)
  have mem : a ∈ actions := List.mem_of_getElem? isAction
  cases applied : a.appliedChange with
  | none =>
    unfold secondPassStep
    dsimp only
    rw [applied]
    refine ⟨fun b j inside d isChange => ?_, fun b j inRest => ?_, sweeping.untouched,
      fun r inRecords => ?_, sweeping.results⟩
    · rcases List.mem_append.mp inside with isDone | here
      · exact sweeping.finished b j isDone d isChange
      · cases List.mem_singleton.mp here
        rw [applied] at isChange
        cases isChange
    · exact sweeping.forwarded b j (List.mem_cons_of_mem _ inRest)
    · refine (sweeping.records r inRecords).imp_right fun known b isOperation => ?_
      obtain ⟨j, slot⟩ := known b isOperation
      exact ⟨j, recorded_next slot⟩
  | some c =>
    have slot := plan.slot isAction applied
    have forwarded := sweeping.forwarded a i List.mem_cons_self c applied
    cases isDir : c.isDir with
    | false =>
      unfold secondPassStep
      dsimp only
      rw [applied]
      dsimp only
      rw [isDir, if_neg Bool.false_ne_true]
      exact sweeping.step plan.sorted emptied split applied (.of_beside (.refl t))
        (forwarded.whole isDir) fun _ => .inl
    | true =>
      refine (ends_secondPassStep slot (plan.unseen a mem) isDir
        (waiting i a c isAction applied) forwarded).mono ?_ ?_
      · intro _ u post
        exact sweeping.step plan.sorted emptied split applied post.1 post.2.1 post.2.2
      · intro e u post
        exact ⟨sweeping.stopped plan.sorted emptied split applied isDir post.1 post.2.1, a, mem,
          post.2.2⟩

/-! ## The whole pass -/

theorem ends_applyDirectorySecondPass (plan : Plan kernel actions allOld s.disk.tree)
    (emptied : Emptied kernel actions) (waiting : ∀ (i : Nat) (a : Action) c, actions[i]? = some a →
      a.appliedChange = some c → Waiting hashes c (s.spot a.path i))
    (sweeping : Sweeping hashes actions [] actions.zipIdx.reverse s t) :
    (applyDirectorySecondPass kernel hashes actions commitPlan).Ends
      (fun _ u => Sweeping hashes actions actions.zipIdx.reverse [] s u)
      (SecondFails kernel hashes actions s) t := by
  have loop := Effect.ends_forM (f := secondPassStep kernel hashes actions commitPlan)
    (I := fun rest (u : State) => ∃ done, actions.zipIdx.reverse = done ++ rest ∧
      Sweeping hashes actions done rest s u)
    (E := SecondFails kernel hashes actions s) (l := actions.zipIdx.reverse) (s := t)
    ⟨[], rfl, sweeping⟩ ?_
  · refine loop.mono ?_ fun _ _ => id
    rintro - u ⟨done, split, finished⟩
    rw [List.append_nil] at split
    exact split ▸ finished
  · rintro ⟨a, i⟩ rest u - ⟨done, split, here⟩
    refine (sweeping_step plan emptied waiting split here).mono ?_ fun _ _ => id
    intro _ v next
    exact ⟨done ++ [(a, i)], by rw [split, List.append_assoc]; rfl, next⟩

/-- Where the forward pass has left off. -/
theorem sweeping_of_forward (forward : ForwardDone hashes actions s t) :
    Sweeping hashes actions [] actions.zipIdx.reverse s t where
  finished _ _ mem := absurd mem List.not_mem_nil
  forwarded b j mem d applied :=
    forward.forwarded j b d (List.mk_mem_zipIdx_iff_getElem?.mp (List.mem_reverse.mp mem)) applied
  untouched q apart := forward.confined.untouched q apart.paths
  records r mem := by
    refine (forward.confined.records r mem).imp_right fun known b isOperation => ?_
    obtain ⟨⟨j, inside⟩, leaf, -⟩ := known b isOperation
    exact ⟨j, .inr ⟨List.mem_reverse.mpr inside, leaf⟩⟩
  results := forward.confined.results

/-- What the forward pass touches is at the paths of changes. -/
theorem Confined.contained (confined : Confined hashes actions actions.zipIdx s t) :
    Contained hashes actions s t where
  untouched q apart := confined.untouched q apart.paths
  records r mem := by
    refine (confined.records r mem).imp_right fun known b isOperation => ?_
    obtain ⟨⟨j, inside⟩, -, inPlace⟩ := known b isOperation
    exact ⟨List.mem_of_getElem? (List.mk_mem_zipIdx_iff_getElem?.mp inside), inPlace⟩

/-- Once nothing is left, all is contained. -/
theorem Sweeping.contained (sweeping : Sweeping hashes actions actions.zipIdx.reverse [] s t) :
    Contained hashes actions s t where
  untouched := sweeping.untouched
  records r mem := by
    refine (sweeping.records r mem).imp_right fun known b isOperation => ?_
    obtain ⟨j, isDone | ⟨inRest, -⟩⟩ := known b isOperation
    · have isAction := List.mk_mem_zipIdx_iff_getElem?.mp (List.mem_reverse.mp isDone)
      refine ⟨List.mem_of_getElem? isAction, fun d isChange => ?_⟩
      exact (sweeping.finished b j isDone d isChange).shows
    · cases inRest

end Second

/-! ## The manifest -/

section Manifest

variable {hashes : Detail.ContentHashes} {actions : Actions} {allOld : Entries} {s t : State}

/-- The number of the inode at a path. -/
def State.inoAt (s : State) (p : Path) : UInt64 :=
  (s.disk.tree.entry? p).elim 0 fun n => n.metadata.ino

/-- The results are the new entries with the inodes that they have. -/
theorem localResults_of_finished (staged : Staged actions s)
    (finished : ∀ (i : Nat) (a : Action) c, actions[i]? = some a → a.appliedChange = some c →
      Finished hashes c (t.spot a.path i))
    (others : ∀ j : Nat, (∀ b : Action, actions[j]? = some b → b.appliedChange = none) →
      t.localResults[j]? = s.localResults[j]?) :
    t.localResults = localResults t.inoAt actions := by
  refine List.ext_getElem? fun j => ?_
  unfold localResults
  rw [List.getElem?_map]
  cases isAction : actions[j]? with
  | none =>
    have beyond : actions.length ≤ j := List.getElem?_eq_none_iff.mp isAction
    have same : t.localResults[j]? = s.localResults[j]? := by
      refine others j fun b isSome => ?_
      rw [isAction] at isSome
      cases isSome
    rw [same, staged.results, List.getElem?_replicate, if_neg (Nat.not_lt.mpr beyond)]
    rfl
  | some a =>
    rw [Option.map_some]
    cases applied : a.appliedChange with
    | none =>
      rw [others j fun b isSome => ?_, staged.free isAction]
      · rfl
      · rw [isAction] at isSome
        cases isSome
        exact applied
    | some c =>
      obtain ⟨shows, result⟩ := finished j a c isAction applied
      refine result.trans ?_
      cases isNew : c.newEntry with
      | none =>
        rw [resultOf_none isNew, Option.bind_some, isNew]
        rfl
      | some e =>
        rw [isNew] at shows
        obtain ⟨n, found, -⟩ := shows
        have here : t.disk.tree.entry? a.path = some n := found
        have ino : t.inoAt a.path = n.metadata.ino := by
          unfold State.inoAt
          rw [here]
          rfl
        rw [found, resultOf_some isNew, Option.bind_some, isNew, ino]
        rfl

/-- Such results always merge, and the manifest has them at the paths of their actions. -/
theorem merge_localResults (ino : Path → UInt64) (sortedOld : SortedEntries allOld)
    (sorted : SortedBy Action.path actions) :
    ∃ merged, mergeStagedManifest allOld actions (localResults ino actions) = .ok merged ∧
      SortedEntries merged ∧
      (∀ a ∈ actions, ∀ c, a.appliedChange = some c →
        entryAt a.path merged = c.newEntry.map (·.setIno (ino a.path))) ∧
      ∀ p, (∀ a ∈ actions, a.path ≠ p) → entryAt p merged = entryAt p allOld := by
  have lengths : (localResults ino actions).length = actions.length := by simp [localResults]
  have slots : ∀ slot ∈ mergeSlots actions (localResults ino actions),
      slot.1.2 =
        (slot.1.1.appliedChange.bind Change.newEntry).map (·.setIno (ino slot.1.1.path)) := by
    intro slot mem
    have inZip := List.fst_mem_of_mem_zipIdx mem
    rw [zip_localResults] at inZip
    obtain ⟨a, -, same⟩ := List.mem_map.mp inZip
    rw [← same]
  have filled : ∀ slot ∈ mergeSlots actions (localResults ino actions),
      slot.1.2.isSome = expectsLocalResult slot.1.1 := by
    intro slot mem
    rw [slots slot mem]
    unfold expectsLocalResult
    cases slot.1.1.appliedChange with
    | none => rfl
    | some c => cases c <;> rfl
  have succeeds : ∀ slot ∈ mergeSlots actions (localResults ino actions), ∀ old,
      mergeAction slot old = .ok (manifestEntry slot.1.1 slot.1.2 old) :=
    fun slot mem old => mergeAction_eq_ok.mpr ⟨filled slot mem, rfl⟩
  have keeps : KeepsKey DirEntryWithMeta.path (fun slot => slot.1.1.path)
      (fun slot old => manifestEntry slot.1.1 slot.1.2 old)
      (mergeSlots actions (localResults ino actions)) := by
    intro slot mem old e oldPath isEntry
    exact mergeAction_path (path_of_localResult slot.1 (List.fst_mem_of_mem_zipIdx mem)) oldPath
      ((succeeds slot mem old).trans (congrArg Except.ok isEntry))
  obtain ⟨merged, isMerged, sortedMerged, entries⟩ :=
    mergeStagedManifest_of_records sortedOld sorted lengths succeeds keeps
  refine ⟨merged, isMerged, sortedMerged, fun a mem c applied => ?_, fun p absent => ?_⟩
  · have known := @lookup_mergeSlots actions (localResults ino actions) a.path lengths
    rw [sorted.lookup_of_mem mem] at known
    obtain ⟨slot, found, same⟩ := Option.map_eq_some_iff.mp known
    have inSlots := mem_of_lookup found
    rw [entries, found]
    have result := slots slot inSlots
    rw [same, applied] at result
    change manifestEntry slot.1.1 slot.1.2 _ = _
    rw [result, same]
    cases a with
    | «local» change | resolvedLocal pair change =>
      cases applied
      cases c <;> rfl
    | _ => cases applied
  · have known := @lookup_mergeSlots actions (localResults ino actions) p lengths
    have noAction : lookup Action.path p actions = none :=
      lookup_eq_none_iff.mpr absent
    rw [noAction, Option.map_eq_none_iff] at known
    rw [entries, known]
    rfl

end Manifest

/-! ## The whole commit -/

/-- Each change found what it was made for, and is in place with its result. -/
structure Settled (hashes : Detail.ContentHashes) (actions : Actions) (s t : State) : Prop where
  found : ∀ a ∈ actions, ∀ c, a.appliedChange = some c →
    Shows hashes (s.disk.tree.entry? a.path) (s.contents a.path) c.oldEntry
  finished : ∀ (i : Nat) (a : Action) c, actions[i]? = some a → a.appliedChange = some c →
    Finished hashes c (t.spot a.path i)
  contained : Contained hashes actions s t

/-- What a commit returns: a manifest with the new entries, and their inodes on disk, at the
paths of the changes, and with the old entries where no action is. -/
structure Committed (hashes : Detail.ContentHashes) (prepared : Prepared) (s : State)
    (entries : Entries) (t : State) : Prop where
  settled : Settled hashes prepared.actions s t
  merged : mergeStagedManifest prepared.allOld prepared.actions
    (localResults t.inoAt prepared.actions) = .ok entries
  sorted : SortedEntries entries
  changed : ∀ a ∈ prepared.actions, ∀ c, a.appliedChange = some c →
    entryAt a.path entries = c.newEntry.map (·.setIno (t.inoAt a.path))
  kept : ∀ p, (∀ a ∈ prepared.actions, a.path ≠ p) →
    entryAt p entries = entryAt p prepared.allOld

/-- What a commit relies on: a plan that was accepted, what its preparation leaves, and a
receipt, if there is one, that vouches for the outputs. -/
structure ReadyToCommit (kernel : Kernel) (hashes : Detail.ContentHashes) (prepared : Prepared)
    (s : State) : Prop where
  plan : Plan kernel prepared.actions prepared.allOld s.disk.tree
  emptied : Emptied kernel prepared.actions
  staged : Staged prepared.actions s
  vouched : ∀ receipt, prepared.validationReceipt = some receipt →
    receiptIsStructurallyValid prepared s.preparedOutputs receipt = true →
    receipt.Vouches kernel hashes s

/-- How a commit fails. -/
inductive CommitFails (kernel : Kernel) (hashes : Detail.ContentHashes) (actions : Actions)
    (s : State) (e : Error) (t : State) : Prop where
  /-- in its checks, or when the marker is told that they are passed -/
  | checks (still : Still s t)
  | forward (fails : PassFails kernel hashes actions s e t)
  | second (fails : SecondFails kernel hashes actions s e t)
  /-- when all changes are in place -/
  | late (settled : Settled hashes actions s t) (denied : Denied kernel t.disk.tree e)

section Commit

variable {kernel : Kernel} {hashes : Detail.ContentHashes} {prepared : Prepared} {s t : State}

/-- The calls after the merge. -/
theorem looks_finish {entries : Entries} :
    Looks kernel s (do
        let _ ← perform kernel .finishStaging
        let _ ← perform kernel .syncRemaining
        let _ ← perform kernel .syncRecoveryRecords
        transition kernel prepared .committed
        pure entries) (fun result => result = entries) False := by
  refine Looks.call rfl fun calls => Looks.call rfl fun calls' => Looks.call rfl fun calls'' => ?_
  exact looks_transition.bind fun _ _ _ => Looks.pure rfl

theorem Settled.atCall {actions : Actions} {calls : Nat} (settled : Settled hashes actions s t) :
    Settled hashes actions s (t.atCall calls) :=
  ⟨settled.found, settled.finished, settled.contained.untouched, settled.contained.records⟩

/-- However a commit fails, what it changed is contained. -/
theorem CommitFails.contained {actions : Actions} {e : Error}
    (fails : CommitFails kernel hashes actions s e t) : Contained hashes actions s t := by
  cases fails with
  | checks still =>
    obtain ⟨calls, rfl⟩ := still
    exact ⟨fun _ _ => ⟨rfl, rfl⟩, fun _ => .inl⟩
  | forward fails => exact fails.1.contained
  | second fails => exact fails.1
  | late settled => exact settled.contained

/-- What a check sees does not depend on the inode. -/
theorem Shows.setIno {node : Option Node} {bytes : List UInt8} {entry : Option DirEntryWithMeta}
    (shows : Shows hashes node bytes entry) (ino : UInt64) :
    Shows hashes node bytes (entry.map (·.setIno ino)) := by
  cases entry with
  | none => exact shows
  | some e =>
    obtain ⟨n, found, fits⟩ := shows
    exact ⟨n, found, fits.file, fits.directory, fits.symlink, fits.mode, fits.mtime⟩

/-- At the paths of the changes the manifest says what is on disk. -/
theorem Committed.described {entries : Entries}
    (committed : Committed hashes prepared s entries t) :
    ∀ a ∈ prepared.actions, a.appliedChange.isSome →
      Shows hashes (t.disk.tree.entry? a.path) (t.contents a.path) (entryAt a.path entries) := by
  intro a mem isApplied
  obtain ⟨c, applied⟩ := Option.isSome_iff_exists.mp isApplied
  obtain ⟨i, isAction⟩ := List.mem_iff_getElem?.mp mem
  rw [committed.changed a mem c applied]
  exact (committed.settled.finished i a c isAction applied).shows.setIno _

/-- The second pass and what comes after it, from what the forward pass leaves. -/
theorem ends_secondPart (plan : Plan kernel prepared.actions prepared.allOld s.disk.tree)
    (emptied : Emptied kernel prepared.actions) (staged : Staged prepared.actions s)
    (forward : ForwardDone hashes prepared.actions s t) :
    (secondPart kernel hashes prepared).Ends
      (fun entries u => Committed hashes prepared s entries u)
      (CommitFails kernel hashes prepared.actions s) t := by
  have waiting : ∀ (i : Nat) (a : Action) c, prepared.actions[i]? = some a →
      a.appliedChange = some c → Waiting hashes c (s.spot a.path i) :=
    fun i a c isAction applied =>
      ⟨forward.found a (List.mem_of_getElem? isAction) c applied, staged.free isAction⟩
  unfold secondPart
  rw [Effect.ends_bind]
  refine Effect.Ends.mono (ends_applyDirectorySecondPass plan emptied waiting
    (sweeping_of_forward forward)) ?_ fun _ _ => .second
  intro _ u sweeping
  have finished : ∀ (i : Nat) (a : Action) c, prepared.actions[i]? = some a →
      a.appliedChange = some c → Finished hashes c (u.spot a.path i) :=
    fun i a c isAction applied => sweeping.finished a i
      (List.mem_reverse.mpr (List.mk_mem_zipIdx_iff_getElem?.mpr isAction)) c applied
  have settled : Settled hashes prepared.actions s u :=
    ⟨forward.found, finished, sweeping.contained⟩
  obtain ⟨merged, isMerged, sorted, changed, kept⟩ := merge_localResults u.inoAt
    (validateStagedStructure_eq_ok.mp plan.structured).2.2 plan.sorted
  rw [Effect.ends_bind]
  unfold mergeResults
  rw [Effect.ends_bind, Effect.ends_read,
    localResults_of_finished staged finished sweeping.results, isMerged, Effect.ends_pure]
  refine Effect.Ends.mono looks_finish ?_ ?_
  · rintro result - ⟨⟨calls, -, rfl⟩, rfl⟩
    exact ⟨settled.atCall, isMerged, sorted, changed, kept⟩
  · rintro e - ⟨⟨calls, -, rfl⟩, denied | impossible⟩
    · exact .late settled.atCall denied
    · exact absurd impossible id

theorem ends_commitProfiled (ready : ReadyToCommit kernel hashes prepared s) :
    (commitProfiled kernel hashes prepared).Ends
      (fun entries t => Committed hashes prepared s entries t)
      (CommitFails kernel hashes prepared.actions s) s := by
  rw [commitProfiled_eq, Effect.ends_bind]
  refine Effect.Ends.mono (ends_forwardPart ready.plan ready.staged ready.vouched) ?_ ?_
  · exact fun _ t forward => ends_secondPart ready.plan ready.emptied ready.staged forward
  · rintro e t (still | fails)
    · exact .checks still
    · exact .forward fails

/-- Every run of a commit. -/
theorem commit_run (ready : ReadyToCommit kernel hashes prepared s) :
    (commitProfiled kernel hashes prepared).Ends
      (fun entries t => Committed hashes prepared s entries t)
      (fun e t => Contained hashes prepared.actions s t ∧
        CommitFails kernel hashes prepared.actions s e t) s :=
  (ends_commitProfiled ready).mono (fun _ _ => id) fun _ _ fails => ⟨fails.contained, fails⟩

/-- An apply that was validated is as ready as before, and its receipt vouches for its
outputs. -/
theorem ReadyToCommit.validated {validated : Prepared}
    (ready : ReadyToCommit kernel hashes prepared s)
    (run : validateCommitReceipted kernel hashes prepared s = (.ok validated, t)) :
    ReadyToCommit kernel hashes validated t := by
  obtain ⟨⟨calls, rfl⟩, generation, receipt, found, rfl⟩ :=
    validateCommitReceipted_left (fun i a c isAction applied => ready.plan.slot isAction applied)
      ready.plan.unseen run
  refine ⟨ready.plan, ready.emptied, ?_, fun other isReceipt _ => ?_⟩
  · exact ⟨ready.staged.results, ready.staged.idle, ready.staged.plain, ready.staged.outputs⟩
  · cases isReceipt
    exact vouches_of_found found fun i out isOutput => ⟨out, isOutput, rfl, fun _ _ _ _ _ => rfl⟩

/-! ## A file goes, a directory comes -/

/-- An operating system that refuses nothing. -/
def patient : Kernel :=
  ⟨fun _ _ _ => false, fun _ => false, fun _ => .missing, fun _ => ⟨.special, 0, 0, 9, 0, 7⟩,
    fun _ _ => ⟨7, 11, 0o100600, 1, 0, 0, 0, 0, 0, 0, 0⟩, 0o40755, fun _ => willing⟩

/-- The file `x` in the directory `d`. -/
def fileX : DirEntryWithMeta :=
  { Detail.filed [.normal [100], .normal [120]] [1, 2, 3] with mtime := 5 }

/-- A new directory `e`. -/
def directoryE : DirEntryWithMeta := ⟨[.normal [101]], 0, 0, 0, 0o755, none, true, 0, none⟩

/-- A new file `f` in it. -/
def fileF : DirEntryWithMeta := Detail.filed [.normal [101], .normal [102]] [4]

def exchange : Actions :=
  [.local (.removed fileX), .local (.added directoryE), .local (.added fileF)]

def exchangeState : State where
  disk := ⟨treeWithFile 7, 0⟩
  contents _ := [1, 2, 3]
  preparedOutputs i :=
    if i = 2 then some ⟨⟨fileF.path, [4]⟩, fileF.setIno 11, .noReplace "staged output"⟩ else none
  localResults := [none, none, none]
  records := []
  calls := 0

theorem plan_exchange : Plan patient exchange [fileX] (treeWithFile 7) := by
  refine ⟨rfl, rfl, by decide, ?_, fun _ _ _ => nofun⟩
  intro a mem c applied isNew
  simp only [exchange, List.mem_cons, List.not_mem_nil, or_false] at mem
  rcases mem with rfl | rfl | rfl
  · cases applied
    cases isNew
  · exact .inl (.inl rfl)
  · exact .inr ⟨_, List.mem_cons_of_mem _ List.mem_cons_self, _, _, rfl, rfl, rfl, rfl⟩

theorem staged_exchange : Staged exchange exchangeState := by
  have slots : ∀ (i : Nat) (a : Action), exchange[i]? = some a →
      (i = 0 ∧ a = .local (.removed fileX)) ∨ (i = 1 ∧ a = .local (.added directoryE)) ∨
        (i = 2 ∧ a = .local (.added fileF)) := by
    intro i a isAction
    match i with
    | 0 | 1 | 2 =>
      cases isAction
      simp
    | n + 3 => cases isAction
  refine ⟨rfl, fun i a isAction applied => ?_, fun i a c isAction applied free => ?_,
    fun i a c isAction applied prepared output => ?_⟩
  · rcases slots i a isAction with ⟨-, rfl⟩ | ⟨-, rfl⟩ | ⟨-, rfl⟩ <;> cases applied
  · rcases slots i a isAction with ⟨rfl, rfl⟩ | ⟨rfl, rfl⟩ | ⟨rfl, -⟩
    · cases applied
      rfl
    · cases applied
      rfl
    · cases free
  · rcases slots i a isAction with ⟨rfl, -⟩ | ⟨rfl, -⟩ | ⟨rfl, rfl⟩
    · cases output
    · cases output
    · cases applied
      cases output
      exact ⟨rfl, ⟨_, _, rfl, rfl, rfl⟩, nofun, fun _ => ⟨_, rfl⟩⟩

/-- No name of the plan begins with a dot. -/
theorem lasting_exchange : ∀ a ∈ exchange ++ reverse exchange, patient.Lasting a.path := by
  rintro a mem number ⟨counter, filename, inside⟩
  have names : ∀ a ∈ exchange ++ reverse exchange, ∀ component ∈ a.path,
      component ∈ ([100, 101, 102, 120] : List UInt8).map fun byte => .normal [byte] := by
    decide
  obtain ⟨byte, isByte, same⟩ := List.mem_map.mp (names a mem _ inside)
  have dot := @Kernel.head?_pruneTempName (patient.pruning number) counter filename
  rw [← Component.normal.inj same] at dot
  cases Option.some.inj dot
  exact absurd isByte (by decide)

theorem emptied_exchange : Emptied patient exchange := by
  refine ⟨fun a mem c applied isNone b bMem below => ?_,
    fun a mem => lasting_exchange a (List.mem_append_left _ mem)⟩
  simp only [exchange, List.mem_cons, List.not_mem_nil, or_false] at mem bMem
  rcases mem with rfl | rfl | rfl
  · rcases bMem with rfl | rfl | rfl
    · exact absurd rfl below.2
    · exact absurd below.1 (by decide)
    · exact absurd below.1 (by decide)
  · cases applied
    cases isNone
  · cases applied
    cases isNone

/-- The exchange before it is validated. -/
def exchangePrepared (plan : CommitPlan) : Prepared :=
  ⟨exchange, [fileX], plan, true, some "attempt", 0, none⟩

theorem ready_exchange {plan : CommitPlan} :
    ReadyToCommit patient Detail.paddedHashes (exchangePrepared plan) exchangeState :=
  ⟨plan_exchange, emptied_exchange, staged_exchange, nofun⟩

/-- The exchange is validated, and its commit, which finds the receipt, ends well. -/
theorem commit_run_exchange :
    ∃ plan, CommitPlan.new globX exchange none ⟨false⟩ = .ok plan ∧
      ∃ validated s, validateCommitReceipted patient Detail.paddedHashes (exchangePrepared plan)
          exchangeState = (.ok validated, s) ∧
        ∃ entries t, commitProfiled patient Detail.paddedHashes validated s = (.ok entries, t) ∧
          Committed Detail.paddedHashes validated s entries t := by
  refine ⟨_, rfl, ?_⟩
  generalize isPlan : CommitPlan.mk _ _ _ _ _ _ _ = plan
  have accepts : ((validateCommitReceipted patient Detail.paddedHashes (exchangePrepared plan) >>=
      commitProfiled patient Detail.paddedHashes) exchangeState).1.isOk = true := by
    subst isPlan
    decide +kernel
  obtain ⟨entries, t, run⟩ := Effect.exists_of_isOk accepts
  obtain ⟨validated, s, validates, commits⟩ := Effect.bind_run_eq_ok.mp run
  refine ⟨validated, s, validates, entries, t, commits, ?_⟩
  exact (commit_run (ready_exchange.validated validates)).of_ok commits

end Commit

end Duet.Commit
