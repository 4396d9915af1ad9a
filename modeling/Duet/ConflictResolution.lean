import Duet.Orchestrator.Plan

/-!
# Resolving a conflict

A conflict is made of any two changes of one path that are not the same. Resolving it gives
the side that is updated the change from its own state to the state of the other side. The
resolution has no case for an addition that meets a removal or a modification, which the
changes of two sides with different saved snapshots can lead to.
-/

namespace Duet

def Change.isAdded : Change → Bool
  | .added _ => true
  | _ => false

/-- The change between two states of a path; there is none between two absences. -/
def transition : Option DirEntryWithMeta → Option DirEntryWithMeta → Option Change
  | none, some new => some (.added new)
  | some old, none => some (.removed old)
  | some old, some new => some (.modified old new)
  | none, none => none

/-- What resolving a conflict means: the updated side goes from its own state to the other
one's. -/
def resolved (lc rc : Change) : Resolution → Option Action
  | .local => (transition lc.newEntry rc.newEntry).map (.resolvedLocal (lc, rc))
  | .remote => (transition rc.newEntry lc.newEntry).map (.resolvedRemote (lc, rc))

/-- Resolving the conflict any number of times means what its last resolution means. -/
def MeansWhatItSays (lc rc : Change) : Prop :=
  ∀ (earlier : List Resolution) (last : Resolution),
    (resolved lc rc last).isSome = true ∧
      (earlier ++ [last]).foldlM resolveAction (.conflict lc rc) = resolved lc rc last

section Resolve

variable {lc rc : Change}

theorem removed_of_not_conflict {strong : Bool} (differ : sameFor strong lc rc = false) :
    ¬ ∃ l r, lc = .removed l ∧ rc = .removed r := by
  rintro ⟨l, r, rfl, rfl⟩
  cases strong <;> cases differ

/-- A conflict that is no addition against another change resolves as it should. -/
theorem resolveAction_conflict (notBoth : ¬ ∃ l r, lc = .removed l ∧ rc = .removed r)
    (alike : lc.isAdded = rc.isAdded) (resolution : Resolution) :
    resolveAction (.conflict lc rc) resolution = resolved lc rc resolution ∧
      (resolved lc rc resolution).isSome = true := by
  cases lc with
  | added ln =>
    cases rc with
    | added rn => cases resolution <;> exact ⟨rfl, rfl⟩
    | removed old => cases alike
    | modified old rn => cases alike
  | removed lo =>
    cases rc with
    | added rn => cases alike
    | removed old => exact absurd ⟨lo, old, rfl, rfl⟩ notBoth
    | modified old rn => cases resolution <;> exact ⟨rfl, rfl⟩
  | modified lo ln =>
    cases rc with
    | added rn => cases alike
    | removed old => cases resolution <;> exact ⟨rfl, rfl⟩
    | modified old rn => cases resolution <;> exact ⟨rfl, rfl⟩

/-- A resolved conflict is resolved again like the conflict itself. -/
theorem resolveAction_resolved {earlier last : Resolution} {a : Action}
    (isResolved : resolved lc rc earlier = some a) :
    resolveAction a last = resolveAction (.conflict lc rc) last := by
  cases earlier with
  | «local» =>
    obtain ⟨change, -, rfl⟩ := Option.map_eq_some_iff.mp isResolved
    rfl
  | remote =>
    obtain ⟨change, -, rfl⟩ := Option.map_eq_some_iff.mp isResolved
    rfl

/-- The last of several resolutions decides. -/
theorem foldlM_resolveAction
    (total : ∀ resolution, resolveAction (.conflict lc rc) resolution = resolved lc rc resolution ∧
      (resolved lc rc resolution).isSome = true) (earlier : List Resolution) (last : Resolution) :
    (earlier ++ [last]).foldlM resolveAction (.conflict lc rc) = resolved lc rc last := by
  induction earlier using List.reverseRecOn generalizing last with
  | nil =>
    rw [List.nil_append, List.foldlM_cons, (total last).1]
    cases resolved lc rc last <;> rfl
  | append_singleton earlier before ih =>
    rw [List.foldlM_append, ih before]
    obtain ⟨a, isResolved⟩ := Option.isSome_iff_exists.mp (total before).2
    rw [isResolved, Option.bind_eq_bind, Option.bind_some, List.foldlM_cons,
      resolveAction_resolved isResolved, (total last).1]
    cases resolved lc rc last <;> rfl

/-- A conflict of the plan resolves to what it says, however often, exactly when both of
its changes are additions or none is. -/
theorem conflictResolution_iff (strong : Bool)
    (created : createFor strong (some lc) (some rc) = some (.conflict lc rc)) :
    MeansWhatItSays lc rc ↔ lc.isAdded = rc.isAdded := by
  have differ : sameFor strong lc rc = false := by
    cases planned_of_createFor created with
    | conflict _ _ differ => exact differ
  constructor
  · intro means
    obtain ⟨isSome, resolves⟩ := means [] .local
    have local_ : resolveAction (.conflict lc rc) .local = resolved lc rc .local := by
      rw [List.nil_append, List.foldlM_cons] at resolves
      rw [← resolves]
      cases resolveAction (.conflict lc rc) .local <;> rfl
    rw [← local_] at isSome
    cases lc <;> cases rc <;> first | rfl | cases isSome
  · intro alike earlier last
    have total := resolveAction_conflict (removed_of_not_conflict differ) alike
    exact ⟨(total last).2, foldlM_resolveAction total earlier last⟩

end Resolve

/-- A file, as the scan of one side finds it. -/
def conflictFile : DirEntryWithMeta :=
  ⟨[.normal [102]], 1, 0, 2, 0o100644, none, false, 0, none⟩

/-- Two additions of different files resolve both ways. -/
theorem conflictResolution_added :
    MeansWhatItSays (.added conflictFile) (.added { conflictFile with size := 2, checksum := 7 }) :=
  (conflictResolution_iff false rfl).mpr rfl

/-- A file that one side modified and the other one adds, because its snapshot does not
have it, is a conflict that cannot be resolved. -/
theorem conflictResolution_panics :
    ∃ lc rc, createFor true (some lc) (some rc) = some (.conflict lc rc) ∧ lc.path = rc.path ∧
      ¬ MeansWhatItSays lc rc := by
  refine ⟨.modified conflictFile { conflictFile with mtime := 5 }, .added conflictFile, rfl, rfl, ?_⟩
  intro means
  have resolves := (means [] .local).2
  cases resolves

end Duet
