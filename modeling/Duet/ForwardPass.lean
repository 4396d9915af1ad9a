import Duet.Lib.PrefixOrder
import Duet.Sync.CommitChecks

/-!
# The forward pass of a commit

A commit that passed its checks goes once over the actions in path order. `ends_forwardPart`
says what every run of it leaves. When it returns, each change that is no change of a directory is
in place with its result, each new directory is there for its owner, and each old one is as it
was. It fails only when the operating system refuses a call. In both cases nothing but the
paths of the changes is touched, and what the marker was told of is in place.

The invariant of the pass (`Passing`) speaks about the actions that are done and those that are
left. A step touches the spot of its own action only, and finds the directory of its entry,
because an action at the directory comes earlier in path order.
-/

namespace Duet.Commit

open Lib

/-! ## Plans -/

/-- The directory of a new entry is in the tree, or a change leaves it. -/
def Rooted (actions : Actions) (tree : DirectoryTree) (dir : Path) : Prop :=
  tree.HasDirectory dir ∨ ∃ b ∈ actions, ∃ d f, b.path = dir ∧ b.appliedChange = some d ∧
    d.newEntry = some f ∧ f.isDir = true

/-- A plan as it is accepted, with a directory for each new entry. Two things no check of a
commit makes sure of: an entry of a directory has no link target, and no path of the plan leads
through a symbolic link to something. -/
structure Plan (kernel : Kernel) (actions : Actions) (allOld : Entries) (tree : DirectoryTree) :
    Prop where
  structured : validateStagedStructure actions allOld = .ok ()
  strong : validateStrongActions actions = .ok ()
  plain : ∀ a ∈ actions, ∀ c, a.appliedChange = some c → ∀ e ∈ c.entries, e.isDir = true →
    e.target = none
  rooted : ∀ a ∈ actions, ∀ c, a.appliedChange = some c → c.newEntry.isSome →
    Rooted actions tree a.path.dropLast
  unseen : ∀ a ∈ actions, kernel.Unseen a.path

section Slots

variable {kernel : Kernel} {actions : Actions} {allOld : Entries} {tree : DirectoryTree}
  {a b : Action} {c : Change} {i j : Nat} {done rest : List (Action × Nat)}

theorem Plan.sorted (plan : Plan kernel actions allOld tree) : SortedBy Action.path actions :=
  (validateStagedStructure_eq_ok.mp plan.structured).2.1

/-- An action of a plan that carries out a change. -/
theorem Plan.slot (plan : Plan kernel actions allOld tree) (isAction : actions[i]? = some a)
    (applied : a.appliedChange = some c) : Slot actions a i c := by
  have mem : a ∈ actions := List.mem_of_getElem? isAction
  have inChanges := mem_changes_of_applied applied
  obtain ⟨keeps, one⟩ := (validateStagedStructure_eq_ok.mp plan.structured).1 a mem
  have strong := validateStrongActions_eq_ok.mp plan.strong a mem
  have entries : ∀ e, c.oldEntry = some e ∨ c.newEntry = some e → e ∈ c.entries := by
    rintro e (isOld | isNew)
    · cases c <;> cases isOld <;> simp [Change.entries]
    · cases c <;> cases isNew <;> simp [Change.entries]
  refine ⟨isAction, applied, ?_, one c inChanges, fun old new isChange => ?_, ?_, ?_⟩
  · have paths := one c inChanges
    have first : ∃ e, (c.oldEntry = some e ∨ c.newEntry = some e) ∧ e.path = c.path := by
      cases c with
      | added e => exact ⟨e, .inr rfl, rfl⟩
      | removed e => exact ⟨e, .inl rfl, rfl⟩
      | modified old new => exact ⟨new, .inr rfl, rfl⟩
    obtain ⟨e, isEntry, path⟩ := first
    rw [← paths.2, ← path]
    exact (strong c inChanges e (entries e isEntry)).path
  · exact keeps old new (isChange ▸ effectiveChange_of_applied applied)
  · exact fun e isEntry => plan.plain a mem c applied e (entries e isEntry)
  · exact fun e isEntry => (strong c inChanges e (entries e isEntry)).digest

theorem sorted_slots (sorted : SortedBy Action.path actions) :
    SortedBy (fun slot : Action × Nat => slot.1.path) actions.zipIdx := by
  refine sortedBy_comp.mpr ?_
  rw [List.zipIdx_map_fst]
  exact sorted

/-- The actions before one, and those after it, have other paths and other numbers. -/
theorem apart_of_split (sorted : SortedBy Action.path actions)
    (split : actions.zipIdx = done ++ (a, i) :: rest) (mem : (b, j) ∈ done ∨ (b, j) ∈ rest) :
    b.path ≠ a.path ∧ j ≠ i := by
  have sortedSlots := sorted_slots sorted
  rw [split] at sortedSlots
  have path : b.path ≠ a.path := by
    obtain ⟨-, later, earlier⟩ := List.pairwise_append.mp sortedSlots
    rcases mem with inDone | inRest
    · exact (earlier _ inDone _ List.mem_cons_self).ne
    · exact ((List.pairwise_cons.mp later).1 _ inRest).ne'
  refine ⟨path, ?_⟩
  rintro rfl
  have here : (a, j) ∈ actions.zipIdx := split ▸ List.mem_append_right _ List.mem_cons_self
  have there : (b, j) ∈ actions.zipIdx := by
    rw [split]
    rcases mem with inDone | inRest
    · exact List.mem_append_left _ inDone
    · exact List.mem_append_right _ (List.mem_cons_of_mem _ inRest)
  have same := List.mk_mem_zipIdx_iff_getElem?.mp here
  rw [List.mk_mem_zipIdx_iff_getElem?.mp there] at same
  cases same
  exact path rfl

/-- An action with a smaller path is done. -/
theorem mem_done_of_lt (sorted : SortedBy Action.path actions)
    (split : actions.zipIdx = done ++ (a, i) :: rest) (mem : b ∈ actions)
    (before : b.path < a.path) : ∃ j, (b, j) ∈ done := by
  have sortedSlots := sorted_slots sorted
  obtain ⟨j, bound, isAction⟩ := List.mem_iff_getElem.mp mem
  have inAll : (b, j) ∈ actions.zipIdx :=
    List.mk_mem_zipIdx_iff_getElem?.mpr (List.getElem?_eq_some_iff.mpr ⟨bound, isAction⟩)
  rw [split] at inAll sortedSlots
  refine ⟨j, ?_⟩
  rcases List.mem_append.mp inAll with inDone | later
  · exact inDone
  · obtain ⟨-, sortedLater, -⟩ := List.pairwise_append.mp sortedSlots
    rcases List.mem_cons.mp later with same | inRest
    · cases same
      exact absurd before (lt_irrefl _)
    · exact absurd ((List.pairwise_cons.mp sortedLater).1 _ inRest) before.not_gt

end Slots

/-! ## The invariant -/

/-- What a commit has changed so far: only paths of changes. The recorded actions are among
those that were carried out, change no directory, and are in place. -/
structure Confined (hashes : Detail.ContentHashes) (actions : Actions)
    (carried : List (Action × Nat)) (s t : State) : Prop where
  untouched : ∀ q, (∀ b ∈ actions, b.appliedChange.isSome → b.path ≠ q) →
    t.disk.tree.entry? q = s.disk.tree.entry? q ∧ t.contents q = s.contents q
  records : ∀ r ∈ t.records, r ∈ s.records ∨ ∀ b, operation? r = some b →
    (∃ j, (b, j) ∈ carried) ∧ Leaf b ∧ InPlace hashes b t
  results : ∀ j : Nat, (∀ b : Action, actions[j]? = some b → b.appliedChange = none) →
    t.localResults[j]? = s.localResults[j]?

/-- The pass when some actions are done and some are left. -/
structure Passing (hashes : Detail.ContentHashes) (actions : Actions)
    (done rest : List (Action × Nat)) (s t : State) : Prop where
  waiting : ∀ b j, (b, j) ∈ rest → t.spot b.path j = s.spot b.path j
  outputs : ∀ b j, (b, j) ∈ rest → t.preparedOutputs j = s.preparedOutputs j
  forwarded : ∀ b j, (b, j) ∈ done → ∀ c, b.appliedChange = some c →
    Forwarded hashes c (s.spot b.path j) (t.spot b.path j)
  confined : Confined hashes actions done s t

/-- How the pass fails: a call for the entry of a change was refused. -/
def PassFails (kernel : Kernel) (hashes : Detail.ContentHashes) (actions : Actions) (s : State)
    (e : Error) (t : State) : Prop :=
  Confined hashes actions actions.zipIdx s t ∧
    ∃ a ∈ actions, ∃ c, a.appliedChange = some c ∧ Refused kernel a.path (Mutates c) t.disk.tree e

section Pass

variable {kernel : Kernel} {hashes : Detail.ContentHashes} {actions : Actions} {allOld : Entries}
  {a : Action} {c : Change} {i : Nat} {done rest : List (Action × Nat)} {s t u : State}

theorem Confined.mono {carried more : List (Action × Nat)}
    (confined : Confined hashes actions carried s t) (fewer : ∀ slot ∈ carried, slot ∈ more) :
    Confined hashes actions more s t where
  untouched := confined.untouched
  records r mem := by
    refine (confined.records r mem).imp_right fun inPlace b isOperation => ?_
    obtain ⟨⟨j, carried⟩, here⟩ := inPlace b isOperation
    exact ⟨⟨j, fewer _ carried⟩, here⟩
  results := confined.results

/-- A slot whose action applies nothing is not the slot of one that does. -/
theorem ne_of_idle {j : Nat} (isAction : actions[i]? = some a) (applied : a.appliedChange = some c)
    (idle : ∀ b : Action, actions[j]? = some b → b.appliedChange = none) : j ≠ i := by
  rintro rfl
  have none := idle a isAction
  rw [applied] at none
  cases none

/-- One more action was carried out. -/
theorem Confined.step (confined : Confined hashes actions done s t)
    (sorted : SortedBy Action.path actions) (split : actions.zipIdx = done ++ (a, i) :: rest)
    (isAction : actions[i]? = some a) (applied : a.appliedChange = some c)
    (beside : Beside a.path i t u) (told : Told hashes a t u) :
    Confined hashes actions (done ++ [(a, i)]) s u where
  untouched q apart := by
    have ne : q ≠ a.path := by
      rintro rfl
      exact apart a (List.mem_of_getElem? isAction) (by rw [applied]; rfl) rfl
    rw [beside.entries q ne, beside.contents q ne]
    exact confined.untouched q apart
  records r mem := by
    rcases told r mem with old | inPlace
    · refine (confined.records r old).imp_right fun before b isOperation => ?_
      obtain ⟨⟨j, isDone⟩, leaf, here⟩ := before b isOperation
      have ne := (apart_of_split sorted split (.inl isDone)).1
      refine ⟨⟨j, List.mem_append_left _ isDone⟩, leaf, ?_⟩
      exact here.mono (beside.entries _ ne) (beside.contents _ ne)
    · refine .inr fun b isOperation => ?_
      obtain ⟨rfl, here⟩ := inPlace b isOperation
      exact ⟨⟨i, List.mem_append_right _ (List.mem_singleton.mpr rfl)⟩, here⟩
  results j idle :=
    (beside.results j (ne_of_idle isAction applied idle)).trans (confined.results j idle)

/-- A directory that a change leaves is there after the forward pass, and so is one that was
there before. -/
theorem Forwarded.isDirectory {before spot : Spot} (forwarded : Forwarded hashes c before spot)
    (waiting : Waiting hashes c before)
    (directory : (∃ f, c.newEntry = some f ∧ f.isDir = true) ∨
      ∃ n, before.node = some n ∧ n.isDir = true) :
    ∃ n, spot.node = some n ∧ n.isDir = true := by
  have shows := waiting.shows
  -- an old entry is a directory when its node is one
  have ofNode : ∀ n, before.node = some n → n.isDir = true →
      ∃ old, c.oldEntry = some old ∧ old.isDir = true := by
    intro n found isDir
    cases isOld : c.oldEntry with
    | none =>
      rw [isOld] at shows
      have absent : before.node = none := shows
      rw [found] at absent
      cases absent
    | some old =>
      rw [isOld] at shows
      obtain ⟨n', found', isMatch⟩ := shows
      rw [found] at found'
      cases found'
      exact ⟨old, rfl, isMatch.isDir_eq.symm.trans isDir⟩
  cases forwarded with
  | kept isOld isDir =>
    rw [isOld] at shows
    obtain ⟨n, found, isMatch⟩ := shows
    exact ⟨n, found, isMatch.isDir_eq.trans isDir⟩
  | made isNew isDir leaf isPrivate => exact ⟨_, rfl, isPrivate.1⟩
  | finished notDir finished =>
    rcases directory with ⟨f, isNew, isDir⟩ | ⟨n, found, isDir⟩
    · rw [isDir_of_entry (.inr isNew) isDir] at notDir
      cases notDir
    · obtain ⟨old, isOld, oldDir⟩ := ofNode n found isDir
      rw [isDir_of_entry (.inl isOld) oldDir] at notDir
      cases notDir

/-- The directory of the next entry is there. -/
theorem Passing.parent (passing : Passing hashes actions done ((a, i) :: rest) s t)
    (plan : Plan kernel actions allOld s.disk.tree) (validated : Validated hashes actions s)
    (split : actions.zipIdx = done ++ (a, i) :: rest) (slot : Slot actions a i c) :
    t.disk.tree.HasDirectory a.path.dropLast := by
  rw [DirectoryTree.hasDirectory_iff]
  by_cases top : a.path.dropLast = []
  · exact .inl top
  refine .inr ?_
  have before : a.path.dropLast < a.path := by
    refine lt_of_le_of_ne (le_of_isPrefix (List.dropLast_prefix _)) fun same => ?_
    have lengths := congrArg List.length same
    have positive := List.length_pos_iff.mpr slot.canonical.1
    rw [List.length_dropLast] at lengths
    omega
  -- what an action at the directory has left
  have ofAction : ∀ b ∈ actions, ∀ d, b.path = a.path.dropLast → b.appliedChange = some d →
      ((∃ f, d.newEntry = some f ∧ f.isDir = true) ∨
        ∃ n, s.disk.tree.entry? a.path.dropLast = some n ∧ n.isDir = true) →
      ∃ n, t.disk.tree.entry? a.path.dropLast = some n ∧ n.isDir = true := by
    intro b mem d path applied directory
    obtain ⟨j, isDone⟩ := mem_done_of_lt plan.sorted split mem (path ▸ before)
    have isAction : actions[j]? = some b := by
      refine List.mk_mem_zipIdx_iff_getElem?.mp ?_
      rw [split]
      exact List.mem_append_left _ isDone
    have left := (passing.forwarded b j isDone d applied).isDirectory
      (validated.waiting j b d isAction applied)
    rw [path] at left
    exact left directory
  -- a directory of the tree stays one
  have stays : (∃ n, s.disk.tree.entry? a.path.dropLast = some n ∧ n.isDir = true) →
      ∃ n, t.disk.tree.entry? a.path.dropLast = some n ∧ n.isDir = true := by
    intro directory
    by_cases acted : ∃ b ∈ actions, b.path = a.path.dropLast ∧ b.appliedChange.isSome
    · obtain ⟨b, mem, path, isApplied⟩ := acted
      obtain ⟨d, applied⟩ := Option.isSome_iff_exists.mp isApplied
      exact ofAction b mem d path applied (.inr directory)
    · rw [(passing.confined.untouched _ fun b mem isApplied path =>
        acted ⟨b, mem, path, isApplied⟩).1]
      exact directory
  have mem : a ∈ actions := List.mem_of_getElem? slot.isAction
  have shows := (validated.waiting i a c slot.isAction slot.applied).shows
  cases isOld : c.oldEntry with
  | some old =>
    rw [isOld] at shows
    obtain ⟨n, found, -⟩ := shows
    rcases DirectoryTree.hasDirectory_iff.mp (DirectoryTree.hasDirectory_of_entry found) with
      empty | directory
    · exact absurd empty top
    · exact stays directory
  | none =>
    have isNew : c.newEntry.isSome := by
      cases c with
      | added e => rfl
      | removed e => cases isOld
      | modified old new => cases isOld
    rcases plan.rooted a mem c slot.applied isNew with directory | leaves
    · rcases DirectoryTree.hasDirectory_iff.mp directory with empty | directory
      · exact absurd empty top
      · exact stays directory
    · obtain ⟨b, bMem, d, f, path, applied, isEntry, isDir⟩ := leaves
      exact ofAction b bMem d path applied (.inl ⟨f, isEntry, isDir⟩)

/-- One step of the pass. -/
theorem passing_step (plan : Plan kernel actions allOld s.disk.tree)
    (validated : Validated hashes actions s) (split : actions.zipIdx = done ++ (a, i) :: rest)
    (passing : Passing hashes actions done ((a, i) :: rest) s t) :
    (forwardStep kernel hashes actions (a, i)).Ends
      (fun _ u => Passing hashes actions (done ++ [(a, i)]) rest s u)
      (PassFails kernel hashes actions s) t := by
  have isAction : actions[i]? = some a := by
    refine List.mk_mem_zipIdx_iff_getElem?.mp ?_
    rw [split]
    exact List.mem_append_right _ List.mem_cons_self
  have output := passing.outputs a i List.mem_cons_self
  cases applied : a.appliedChange with
  | none =>
    have noOutput : t.preparedOutputs i = none :=
      output.trans (validated.idle i a isAction applied)
    unfold forwardStep
    rw [Effect.ends_bind, Effect.ends_read, noOutput]
    unfold applyActionWithoutDetail
    rw [Option.isSome_none, if_neg Bool.false_ne_true, applied]
    refine ⟨fun b j mem => passing.waiting b j (List.mem_cons_of_mem _ mem),
      fun b j mem => passing.outputs b j (List.mem_cons_of_mem _ mem), ?_,
      passing.confined.mono fun _ mem => List.mem_append_left _ mem⟩
    intro b j mem d isApplied
    rcases List.mem_append.mp mem with isDone | here
    · exact passing.forwarded b j isDone d isApplied
    · cases List.mem_singleton.mp here
      rw [applied] at isApplied
      cases isApplied
  | some c =>
    have slot := plan.slot isAction applied
    have mem : a ∈ actions := List.mem_of_getElem? isAction
    have spot := passing.waiting a i List.mem_cons_self
    have step := carries_forwardStep (s := t) slot (plan.unseen a mem)
      (output ▸ validated.ready i a c isAction applied)
      (spot ▸ validated.waiting i a c isAction applied)
      (passing.parent plan validated split slot)
    refine Effect.Ends.mono step ?_ ?_
    · rintro - u ⟨beside, told, forwarded⟩
      have elsewhere : ∀ b j, (b, j) ∈ done ∨ (b, j) ∈ rest →
          u.spot b.path j = t.spot b.path j := by
        intro b j inside
        obtain ⟨path, index⟩ := apart_of_split plan.sorted split inside
        exact spot_of_beside beside path index
      refine ⟨fun b j inRest => ?_, fun b j inRest => ?_, fun b j inside d isApplied => ?_,
        passing.confined.step plan.sorted split isAction applied beside told⟩
      · rw [elsewhere b j (.inr inRest)]
        exact passing.waiting b j (List.mem_cons_of_mem _ inRest)
      · rw [beside.outputs j (apart_of_split plan.sorted split (.inr inRest)).2]
        exact passing.outputs b j (List.mem_cons_of_mem _ inRest)
      · rcases List.mem_append.mp inside with isDone | here
        · rw [elsewhere b j (.inl isDone)]
          exact passing.forwarded b j isDone d isApplied
        · cases List.mem_singleton.mp here
          rw [applied] at isApplied
          cases isApplied
          rw [← spot]
          exact forwarded
    · rintro e u ⟨beside, told, refused⟩
      have confined := passing.confined.step plan.sorted split isAction applied beside told
      refine ⟨confined.mono fun slot inside => ?_, a, mem, c, applied, refused⟩
      rw [split]
      rcases List.mem_append.mp inside with isDone | here
      · exact List.mem_append_left _ isDone
      · rw [List.mem_singleton.mp here]
        exact List.mem_append_right _ List.mem_cons_self

/-- The whole pass. -/
theorem ends_forwardPass (plan : Plan kernel actions allOld s.disk.tree)
    (validated : Validated hashes actions s) :
    (forwardPass kernel hashes actions).Ends
      (fun _ t => Passing hashes actions actions.zipIdx [] s t)
      (PassFails kernel hashes actions s) s := by
  have loop := Effect.ends_forM (f := forwardStep kernel hashes actions)
    (I := fun rest (t : State) => ∃ done, actions.zipIdx = done ++ rest ∧
      Passing hashes actions done rest s t)
    (E := PassFails kernel hashes actions s) (l := actions.zipIdx) (s := s) ?_ ?_
  · refine loop.mono ?_ fun _ _ => id
    rintro - t ⟨done, split, passing⟩
    rw [List.append_nil] at split
    exact split ▸ passing
  · refine ⟨[], rfl, fun _ _ _ => rfl, fun _ _ _ => rfl, ?_, ?_⟩
    · exact fun b j mem => absurd mem List.not_mem_nil
    · exact ⟨fun _ _ => ⟨rfl, rfl⟩, fun _ mem => .inl mem, fun _ _ => rfl⟩
  · rintro ⟨a, i⟩ rest t - ⟨done, split, passing⟩
    refine (passing_step plan validated split passing).mono ?_ fun _ _ => id
    intro _ u next
    exact ⟨done ++ [(a, i)], by rw [split, List.append_assoc]; rfl, next⟩

end Pass

/-! ## A commit up to its second pass -/

section Commit

variable {kernel : Kernel} {hashes : Detail.ContentHashes} {prepared : Prepared} {s : State}

/-- The checks and the forward pass. -/
def forwardPart (kernel : Kernel) (hashes : Detail.ContentHashes) (prepared : Prepared) :
    Committing Unit := do
  revalidate kernel hashes prepared
  transition kernel prepared .committing
  forwardPass kernel hashes prepared.actions

/-- The second pass and what is left to do after it. -/
def secondPart (kernel : Kernel) (hashes : Detail.ContentHashes) (prepared : Prepared) :
    Committing Entries := do
  applyDirectorySecondPass kernel hashes prepared.actions prepared.plan
  let entries ← mergeResults prepared
  let _ ← perform kernel .finishStaging
  let _ ← perform kernel .syncRemaining
  let _ ← perform kernel .syncRecoveryRecords
  transition kernel prepared .committed
  pure entries

/-- A commit is these two parts. -/
theorem commitProfiled_eq : commitProfiled kernel hashes prepared =
    forwardPart kernel hashes prepared >>= fun _ => secondPart kernel hashes prepared := by
  unfold commitProfiled carryOut forwardPart secondPart
  simp only [bind_assoc]

theorem looks_transition {phase : Marker.ApplyAttemptPhase} {C : Prop} :
    Looks kernel s (transition kernel prepared phase) (fun _ => True) C := by
  unfold transition
  split
  · exact Looks.call rfl fun calls => Looks.pure trivial
  · exact Looks.pure trivial

/-- What a commit leaves after its checks and its forward pass. -/
structure ForwardDone (hashes : Detail.ContentHashes) (actions : Actions) (s t : State) : Prop where
  found : ∀ a ∈ actions, ∀ c, a.appliedChange = some c →
    Shows hashes (s.disk.tree.entry? a.path) (s.contents a.path) c.oldEntry
  forwarded : ∀ (i : Nat) (a : Action) c, actions[i]? = some a → a.appliedChange = some c →
    Forwarded hashes c (s.spot a.path i) (t.spot a.path i)
  confined : Confined hashes actions actions.zipIdx s t

/-- The checks and the forward pass of a prepared plan find what the changes were made for and
leave it forwarded, and change nothing else. They fail with nothing changed, or because a call
of the forward pass was refused. -/
theorem ends_forwardPart (plan : Plan kernel prepared.actions prepared.allOld s.disk.tree)
    (staged : Staged prepared.actions s)
    (vouched : ∀ receipt, prepared.validationReceipt = some receipt →
      receiptIsStructurallyValid prepared s.preparedOutputs receipt = true →
      receipt.Vouches kernel hashes s) :
    (forwardPart kernel hashes prepared).Ends
      (fun _ t => ForwardDone hashes prepared.actions s t)
      (fun e t => Still s t ∨ PassFails kernel hashes prepared.actions s e t) s := by
  have checks : Looks kernel s (revalidate kernel hashes prepared) _ True :=
    looks_revalidate (fun i a c isAction applied => plan.slot isAction applied) plan.unseen vouched
  unfold forwardPart
  rw [Effect.ends_bind]
  refine Effect.Ends.mono checks ?_ fun _ _ fails => .inl fails.1.still
  rintro - - ⟨⟨calls, -, rfl⟩, outputs, targets⟩
  rw [Effect.ends_bind]
  refine Effect.Ends.mono (looks_transition (C := True)) ?_ fun _ _ fails =>
    .inl (Still.trans ⟨calls, rfl⟩ fails.1.still)
  rintro - - ⟨⟨calls', -, rfl⟩, -⟩
  -- only the number of calls has changed
  have validated := validated_of_checks staged outputs targets
  have begun : Validated hashes prepared.actions ((s.atCall calls).atCall calls') :=
    ⟨validated.waiting, validated.idle, validated.ready⟩
  refine (ends_forwardPass (s := (s.atCall calls).atCall calls') plan begun).mono ?_ ?_
  · intro _ t passing
    refine ⟨targets, fun i a c isAction applied => ?_, ?_⟩
    · exact passing.forwarded a i (List.mk_mem_zipIdx_iff_getElem?.mpr isAction) c applied
    · exact ⟨passing.confined.untouched, passing.confined.records, passing.confined.results⟩
  · rintro e t ⟨confined, refused⟩
    exact .inr ⟨⟨confined.untouched, confined.records, confined.results⟩, refused⟩

end Commit

end Duet.Commit
