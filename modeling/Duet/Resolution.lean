import Duet.Actions

/-!
# Conflict resolution

A conflict is resolved towards one side, which then receives a change from its own
current entry to the current entry of the other side.
-/

namespace Duet

inductive Resolution where
  | local
  | remote
deriving DecidableEq, Repr

/-- The change that brings the local side to the remote state; `none` stands for
the unreachable branch of the source. -/
def resolveToLocal : Change → Change → Option Change
  | .added ln, .added rn => some (.modified ln rn)
  | .removed _, .modified _ rn => some (.added rn)
  | .modified _ ln, .modified _ rn => some (.modified ln rn)
  | .modified _ ln, .removed _ => some (.removed ln)
  | _, _ => none

/-- The change that brings the remote side to the local state. -/
def resolveToRemote : Change → Change → Option Change
  | .added ln, .added rn => some (.modified rn ln)
  | .modified _ ln, .removed _ => some (.added ln)
  | .modified _ ln, .modified _ rn => some (.modified rn ln)
  | .removed _, .modified _ rn => some (.removed rn)
  | _, _ => none

/-- Resolve, or resolve again, a conflict. `none` is a panic of the source. -/
def resolveAction (action : Action) (resolution : Resolution) : Option Action :=
  match action with
  | .conflict lc rc | .resolvedLocal (lc, rc) _ | .resolvedRemote (lc, rc) _ =>
    match resolution with
    | .local => (resolveToLocal lc rc).map (.resolvedLocal (lc, rc))
    | .remote => (resolveToRemote lc rc).map (.resolvedRemote (lc, rc))
  | other => some other

/-- Resolve a conflict for whose path a choice was made. -/
def resolveChosen (choice : Path → Option Resolution) (action : Action) : Option Action :=
  match action, choice action.path with
  | .conflict _ _, some resolution => resolveAction action resolution
  | other, _ => some other

def resolveConflicts (choice : Path → Option Resolution) (actions : Actions) : Option Actions :=
  actions.mapM (resolveChosen choice)

/-- Resolving keeps an action, or turns a conflict into a change towards one side. -/
theorem resolveChosen_cases {choice : Path → Option Resolution} {a a' : Action}
    (resolves : resolveChosen choice a = some a') :
    a' = a ∨ ∃ lc rc, a = .conflict lc rc ∧
      ((∃ c, resolveToLocal lc rc = some c ∧ a' = .resolvedLocal (lc, rc) c) ∨
        ∃ c, resolveToRemote lc rc = some c ∧ a' = .resolvedRemote (lc, rc) c) := by
  unfold resolveChosen at resolves
  split at resolves
  · next lc rc resolution chosen =>
    refine .inr ⟨lc, rc, rfl, ?_⟩
    cases resolution with
    | «local» =>
      obtain ⟨c, toLocal, rfl⟩ := Option.map_eq_some_iff.mp resolves
      exact .inl ⟨c, toLocal, rfl⟩
    | remote =>
      obtain ⟨c, toRemote, rfl⟩ := Option.map_eq_some_iff.mp resolves
      exact .inr ⟨c, toRemote, rfl⟩
  · cases resolves
    exact .inl rfl

/-- Without any choice every conflict stays as it is. -/
theorem resolveConflicts_unchosen (actions : Actions) :
    resolveConflicts (fun _ => none) actions = some actions := by
  have kept : resolveChosen (fun _ => none) = some := by
    funext a
    cases a <;> rfl
  rw [resolveConflicts, kept]
  induction actions with
  | nil => rfl
  | cons a actions ih =>
    rw [List.mapM_cons, ih]
    rfl

end Duet
