import Duet.Sync.CommitActions
import Duet.Sync.PruneFrame

/-!
# The second pass at one action

The second pass finishes the change of a directory. A directory that goes is pruned before,
which touches what lies below it (`Swept`) and may find that something else is in it
(`SweepFails`).
-/

namespace Duet.Commit

open Lib

/-- No pruning makes a temporary name in the path. -/
def Kernel.Lasting (kernel : Kernel) (q : Path) : Prop :=
  ∀ number, ¬ (kernel.pruning number).Temporary q

/-- From `s` to `t` only what belongs to one action has changed, and what is below its path
when the path is `removed`. There nothing new has come. -/
structure Swept (kernel : Kernel) (p : Path) (i : Nat) (removed : Prop) (s t : State) : Prop where
  entries : ∀ q, q ≠ p → (removed → ¬ p.Inside q) → t.disk.tree.entry? q = s.disk.tree.entry? q
  absent : ∀ q, p.Inside q → kernel.Lasting q → s.disk.tree.entry? q = none →
    t.disk.tree.entry? q = none
  contents : ∀ q, q ≠ p → t.contents q = s.contents q
  results : ∀ j, j ≠ i → t.localResults[j]? = s.localResults[j]?

/-- Nothing was recorded as carried out. -/
def Quiet (s t : State) : Prop := ∀ r ∈ t.records, r ∈ s.records ∨ operation? r = none

/-- A call was refused, or a removed directory cannot be emptied. -/
inductive SweepFails (kernel : Kernel) (p : Path) (tree : DirectoryTree) : Error → Prop where
  | refused {number : Nat} {call : Call} (refuses : kernel.refuses number tree call = true) :
      SweepFails kernel p tree (.refused call)
  | pruning (cause : RemovalError) : SweepFails kernel p tree (.removal cause)
  | occupied (nonempty : tree.readDir p ≠ []) :
      SweepFails kernel p tree (.failed (.removeDirectory p))

/-- A step of the second pass, before anything is recorded. -/
def Sweeps (kernel : Kernel) (p : Path) (i : Nat) (removed : Prop) {α : Type} (m : Committing α)
    (Q : α → State → Prop) (s : State) : Prop :=
  m.Ends (fun a t => Swept kernel p i removed s t ∧ Quiet s t ∧ Q a t)
    (fun e t => Swept kernel p i removed s t ∧ Quiet s t ∧ SweepFails kernel p t.disk.tree e) s

section Sweeps

variable {kernel : Kernel} {p : Path} {i : Nat} {removed : Prop} {α β : Type} {s t u : State}
  {m : Committing α} {f : α → Committing β} {Q : α → State → Prop} {R : β → State → Prop}

theorem Swept.of_beside (beside : Beside p i s t) : Swept kernel p i removed s t where
  entries q ne _ := beside.entries q ne
  absent q inside _ free := (beside.entries q inside.2).trans free
  contents := beside.contents
  results := beside.results

theorem Swept.trans (first : Swept kernel p i removed s t) (second : Swept kernel p i removed t u) :
    Swept kernel p i removed s u where
  entries q ne apart := (second.entries q ne apart).trans (first.entries q ne apart)
  absent q inside lasting free :=
    second.absent q inside lasting (first.absent q inside lasting free)
  contents q ne := (second.contents q ne).trans (first.contents q ne)
  results j ne := (second.results j ne).trans (first.results j ne)

theorem Quiet.trans (first : Quiet s t) (second : Quiet t u) : Quiet s u :=
  fun r mem => (second r mem).elim (first r) .inr

theorem Sweeps.of_local (step : Local kernel p i True m Q s) : Sweeps kernel p i removed m Q s := by
  refine Effect.Ends.mono step ?_ ?_
  · exact fun a t post => ⟨.of_beside post.1.toBeside, post.1.records, post.2⟩
  · intro e t fails
    obtain ⟨number, call, rfl, refuses, -⟩ := fails.refused
    exact ⟨.of_beside fails.near.toBeside, fails.near.records, .refused refuses⟩

theorem Sweeps.mono {Q' : α → State → Prop} (sweeps : Sweeps kernel p i removed m Q s)
    (weaker : ∀ a t, Q a t → Q' a t) : Sweeps kernel p i removed m Q' s :=
  Effect.Ends.mono sweeps (fun a t post => ⟨post.1, post.2.1, weaker a t post.2.2⟩) fun _ _ => id

theorem Sweeps.bind (first : Sweeps kernel p i removed m Q s)
    (rest : ∀ a t, Q a t → Sweeps kernel p i removed (f a) R t) :
    Sweeps kernel p i removed (m >>= f) R s := by
  unfold Sweeps
  rw [Effect.ends_bind]
  refine Effect.Ends.mono first ?_ fun _ _ => id
  intro a t post
  obtain ⟨swept, quiet, holds⟩ := post
  refine Effect.Ends.mono (rest a t holds) ?_ ?_
  · exact fun b u post => ⟨swept.trans post.1, quiet.trans post.2.1, post.2.2⟩
  · exact fun e u post => ⟨swept.trans post.1, quiet.trans post.2.1, post.2.2⟩

theorem Sweeps.read {f : State → Committing β} (rest : Sweeps kernel p i removed (f s) R s) :
    Sweeps kernel p i removed (Effect.read >>= f) R s := rest

theorem Sweeps.checked {a : α} (rest : Sweeps kernel p i removed (f a) R s) :
    Sweeps kernel p i removed (Effect.check (.ok a) >>= f) R s := rest

/-! ## The removal of a directory -/

/-- A run over the tree alone. -/
theorem ends_onDisk {m : Pruning α} {Q : α → Disk → Prop} {E : RemovalError → Disk → Prop}
    (holds : m.Ends Q E s.disk) :
    (onDisk m).Ends (fun a t => ∃ disk, t = { s with disk := disk } ∧ Q a disk)
      (fun e t => ∃ disk cause, t = { s with disk := disk } ∧ e = .removal cause ∧ E cause disk)
      s := by
  unfold Effect.Ends onDisk at *
  generalize m s.disk = run at holds ⊢
  rcases run with ⟨cause | a, disk⟩
  · exact ⟨disk, cause, rfl, rfl, holds⟩
  · exact ⟨disk, rfl, holds⟩

theorem swept_pruned {number : Nat} {disk : Disk}
    (within : PrunedWithin (kernel.pruning number) p s.disk.tree disk.tree) (isRemoved : removed) :
    Swept kernel p i removed s { s with disk := disk } where
  entries _ _ apart := within.entry (apart isRemoved)
  absent _ _ lasting free := within.absent (lasting number) free
  contents _ _ := rfl
  results _ _ := rfl

theorem sweeps_prune {number levels : Nat} {policy : RemovalBlockerPolicy} {paths : List Path}
    (isRemoved : removed) :
    Sweeps kernel p i removed
      (onDisk (pruneIgnoredRemovalBlockers (kernel.pruning number) policy paths levels p))
      (fun _ t => ∃ disk, t = { s with disk := disk } ∧
        PrunedWithin (kernel.pruning number) p s.disk.tree disk.tree) s := by
  refine Effect.Ends.mono
    (ends_onDisk (only_pruneIgnoredRemovalBlockers (List.prefix_refl p))) ?_ ?_
  · rintro - - ⟨disk, rfl, within⟩
    exact ⟨swept_pruned within isRemoved, fun _ mem => .inl mem, disk, rfl, within⟩
  · rintro - - ⟨disk, cause, rfl, rfl, within⟩
    exact ⟨swept_pruned within isRemoved, fun _ mem => .inl mem, .pruning cause⟩

theorem sweeps_removeDirectory {n : Node} (found : s.disk.tree.entry? p = some n)
    (isDir : n.isDir = true) :
    Sweeps kernel p i removed (removeDirectory kernel p) (fun _ t => Sets p s none t) s := by
  by_cases empty : s.disk.tree.readDir p = []
  · exact .of_local (local_removeDirectory trivial found isDir empty)
  · have own : ∀ q, (Call.removeDirectory p).mutates? = some q → q = p ∧ True := by
      intro q isPath
      cases isPath
      exact ⟨rfl, trivial⟩
    refine Sweeps.bind (.of_local (local_perform own)) ?_
    rintro - t ⟨-, calls, rfl⟩
    refine Sweeps.read ?_
    rw [show (s.atCall calls).disk.tree.entry? p = some n from found]
    have notEmpty : ¬ (n.isDir && ((s.atCall calls).disk.tree.readDir p).isEmpty) = true := by
      rw [isDir, Bool.true_and, List.isEmpty_iff]
      exact empty
    dsimp only
    rw [if_neg notEmpty]
    exact ⟨.of_beside (.refl _), fun _ mem => .inl mem, .occupied empty⟩

variable {hashes : Detail.ContentHashes} {old : DirEntryWithMeta} {plan : CommitPlan}

theorem sweeps_removeDirectoryEntry (isRemoved : removed) (unseen : kernel.Unseen p)
    (fits : Fits hashes s p old) (isDir : old.isDir = true) :
    Sweeps kernel p i removed (removeDirectoryEntry kernel hashes plan p old)
      (fun _ t => t.spot p i = ⟨none, s.contents p, s.localResults[i]?⟩) s := by
  obtain ⟨n, found, isMatch⟩ := fits
  unfold removeDirectoryEntry
  refine Sweeps.bind (.of_local (local_verify unseen ⟨n, found, isMatch⟩)) ?_
  rintro - t ⟨calls, rfl⟩
  refine Sweeps.read (Sweeps.bind (sweeps_prune isRemoved) ?_)
  rintro - t ⟨disk, rfl, within⟩
  have found' : disk.tree.entry? p = some n :=
    (within.entry fun inside => inside.2 rfl).trans found
  refine Sweeps.bind (.of_local
    (local_openParent (DirectoryTree.hasDirectory_of_entry found'))) ?_
  rintro - t ⟨calls₁, rfl⟩
  refine Sweeps.bind (.of_local (local_perform nofun)) ?_
  rintro - t ⟨-, calls₂, rfl⟩
  refine Sweeps.bind (sweeps_removeDirectory found' (isMatch.isDir_eq.trans isDir)) ?_
  rintro - t sets
  refine (Sweeps.of_local local_recordStep).mono ?_
  intro _ u noted
  rw [noted.spot, sets.spot]
  rfl

end Sweeps

/-! ## The change of a directory -/

section Finish

variable {kernel : Kernel} {hashes : Detail.ContentHashes} {actions : Actions} {a : Action}
  {c : Change} {i : Nat} {s : State} {e : DirEntryWithMeta} {before spot : Spot}
  {plan : CommitPlan}

/-- What the forward pass leaves of a directory. -/
theorem Forwarded.directory (forwarded : Forwarded hashes c before spot) (isDir : c.isDir = true) :
    (∃ old, c.oldEntry = some old ∧ old.isDir = true ∧ spot = before) ∨
      ∃ e n bytes, c.newEntry = some e ∧ e.isDir = true ∧ n.isDir = true ∧
        (∀ old, c.oldEntry = some old → old.isDir = false) ∧ spot = ⟨some n, bytes, some none⟩ := by
  cases forwarded with
  | kept isOld oldDir => exact .inl ⟨_, isOld, oldDir, rfl⟩
  | made isNew newDir leaf isPrivate => exact .inr ⟨_, _, _, isNew, newDir, isPrivate.1, leaf, rfl⟩
  | finished notDir =>
    rw [isDir] at notDir
    cases notDir

/-- A directory gets its metadata and its result. -/
theorem local_finishDirectory {may : Prop} {n : Node} (slot : Slot actions a i c)
    (isNew : c.newEntry = some e) (isDir : e.isDir = true)
    (found : s.disk.tree.entry? a.path = some n) (directory : n.isDir = true)
    (free : s.localResults[i]? = some none) :
    Local kernel a.path i may (updateEntry kernel actions i a.path e)
      (fun _ t => Finished hashes c (t.spot a.path i)) s := by
  have noTarget : e.target = none := slot.plain e (.inr isNew) isDir
  have notLink : e.isSymlink = false := by
    unfold DirEntryWithMeta.isSymlink
    rw [noTarget]
    rfl
  refine (local_updateEntry slot.isAction (slot.path_new isNew) free
    (DirectoryTree.hasDirectory_of_entry found) found
    (.inr ⟨notLink, directory.trans isDir.symm⟩)).mono ?_
  rintro - t ⟨m, updated, last⟩
  refine ⟨?_, ?_⟩
  · rw [isNew, last]
    refine ⟨_, rfl, updated.matches ?_ ?_ ?_⟩
    · intro isFile
      rw [(isFile_iff.mp isFile).1] at isDir
      cases isDir
    · exact fun _ => of_decide_eq_true directory
    · intro notDir
      rw [isDir] at notDir
      cases notDir
  · rw [last, resultOf_some isNew]

/-- One change of a directory, before it is recorded. -/
theorem sweeps_secondPassChange (slot : Slot actions a i c) (unseen : kernel.Unseen a.path)
    (isDir : c.isDir = true) (waiting : Waiting hashes c before)
    (forwarded : Forwarded hashes c before (s.spot a.path i)) :
    Sweeps kernel a.path i (c.newEntry = none)
      (secondPassChange kernel hashes actions plan i c)
      (fun _ t => Finished hashes c (t.spot a.path i)) s := by
  have left := forwarded.directory isDir
  cases c with
  | removed old =>
    have path : old.path = a.path := slot.path_old rfl
    unfold secondPassChange
    dsimp only
    rw [path, joinBase_canonical slot.canonical]
    refine Sweeps.checked ?_
    rcases left with ⟨e, isOld, oldDir, same⟩ | ⟨e, n, bytes, isNew, -⟩
    · cases isOld
      have waiting' : Waiting hashes (.removed old) (s.spot a.path i) := same ▸ waiting
      refine (sweeps_removeDirectoryEntry rfl unseen waiting'.shows oldDir).mono ?_
      intro _ t spot
      rw [spot]
      exact ⟨rfl, waiting'.free⟩
    · cases isNew
  | added new =>
    have path : new.path = a.path := slot.path_new rfl
    unfold secondPassChange
    dsimp only
    rw [path, joinBase_canonical slot.canonical]
    refine Sweeps.checked ?_
    rcases left with ⟨e, isOld, -⟩ | ⟨e, n, bytes, isNew, newDir, directory, -, same⟩
    · cases isOld
    · cases isNew
      exact .of_local (local_finishDirectory slot rfl newDir
        (congrArg Spot.node same) directory (congrArg Spot.result same))
  | modified old new =>
    have path : new.path = a.path := slot.path_new rfl
    have newDir : new.isDir = true := by
      rcases left with ⟨e, isOld, oldDir, -⟩ | ⟨e, n, bytes, isNew, newDir, -⟩
      · cases isOld
        exact slot.keeps _ _ rfl oldDir
      · cases isNew
        exact newDir
    unfold secondPassChange
    dsimp only
    rw [path, joinBase_canonical slot.canonical]
    refine Sweeps.checked ?_
    rw [newDir, Bool.not_true, Bool.and_false, if_neg Bool.false_ne_true]
    unfold verifyOldDirectory
    rcases left with ⟨e, isOld, oldDir, same⟩ | ⟨e, n, bytes, isNew, -, directory, leaf, same⟩
    · cases isOld
      have waiting' : Waiting hashes (.modified old new) (s.spot a.path i) := same ▸ waiting
      obtain ⟨n, found, isMatch⟩ := waiting'.shows
      rw [oldDir, newDir, Bool.and_self, if_pos rfl]
      refine Sweeps.bind (.of_local (local_verify unseen ⟨n, found, isMatch⟩)) ?_
      rintro - t ⟨calls, rfl⟩
      exact .of_local (local_finishDirectory (s := s.atCall calls) slot rfl newDir
        found (isMatch.isDir_eq.trans oldDir) waiting'.free)
    · rw [leaf old rfl, Bool.false_and, if_neg Bool.false_ne_true]
      exact .of_local (local_finishDirectory slot rfl newDir
        (congrArg Spot.node same) directory (congrArg Spot.result same))

/-- One action of the second pass that changes a directory. It is recorded last. -/
theorem ends_secondPassStep (slot : Slot actions a i c) (unseen : kernel.Unseen a.path)
    (isDir : c.isDir = true) (waiting : Waiting hashes c before)
    (forwarded : Forwarded hashes c before (s.spot a.path i)) :
    (secondPassStep kernel hashes actions plan (a, i)).Ends
      (fun _ t => Swept kernel a.path i (c.newEntry = none) s t ∧
        Finished hashes c (t.spot a.path i) ∧
        ∀ r ∈ t.records, r ∈ s.records ∨ ∀ b, operation? r = some b → b = a)
      (fun e t => Swept kernel a.path i (c.newEntry = none) s t ∧ Quiet s t ∧
        SweepFails kernel a.path t.disk.tree e) s := by
  unfold secondPassStep
  dsimp only
  rw [slot.applied]
  dsimp only
  rw [if_pos isDir, Effect.ends_bind]
  refine Effect.Ends.mono (sweeps_secondPassChange slot unseen isDir waiting forwarded) ?_
    fun _ _ => id
  rintro - t ⟨swept, quiet, finished⟩
  unfold record
  rw [Effect.ends_bind]
  refine Effect.Ends.mono (looks_perform rfl (C := False)) ?_ ?_
  · rintro - - ⟨⟨calls, -, rfl⟩, -⟩
    refine ⟨swept.trans (.of_beside ?_), finished, fun r mem => ?_⟩
    · exact ⟨fun _ _ => rfl, rfl, fun _ _ => rfl, fun _ _ => rfl, rfl, fun _ _ => rfl⟩
    · rcases List.mem_append.mp mem with earlier | last
      · refine (quiet r earlier).imp_right fun noOperation b isOperation => ?_
        rw [noOperation] at isOperation
        cases isOperation
      · refine .inr fun b isOperation => ?_
        rw [List.mem_singleton.mp last] at isOperation
        cases isOperation
        rfl
  · rintro e - ⟨⟨calls, -, rfl⟩, denied | impossible⟩
    · obtain ⟨number, call, rfl, refuses, -⟩ := denied
      exact ⟨swept.trans (.of_beside (Near.of_still ⟨calls, rfl⟩).toBeside), quiet,
        .refused refuses⟩
    · exact absurd impossible id

end Finish

end Duet.Commit
