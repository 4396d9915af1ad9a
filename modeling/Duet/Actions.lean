import Duet.Scan.Change

/-!
# Actions

An action says what one synchronization does at one path, as seen from one side:
`local` brings a change of the other side here, `remote` sends a change of this side
there. The other side holds the reversed actions.
-/

namespace Duet

/-- The two sides of a synchronization, as the client sees them. -/
inductive Side where
  | local
  | remote
deriving DecidableEq, Repr

def Side.other : Side → Side
  | .local => .remote
  | .remote => .local

/-- A value for each side. -/
def bySide {α : Type} (here there : α) : Side → α
  | .local => here
  | .remote => there

inductive Action where
  | local (change : Change)
  | remote (change : Change)
  | conflict (left right : Change)
  | resolvedLocal (conflict : Change × Change) (change : Change)
  | resolvedRemote (conflict : Change × Change) (change : Change)
  | identical (left right : Change)
deriving DecidableEq

abbrev Actions := List Action

namespace Action

def create : Option Change → Option Change → Option Action
  | some lc, none => some (.remote lc)
  | none, some rc => some (.local rc)
  | some lc, some rc => if same lc rc then some (.identical lc rc) else some (.conflict lc rc)
  | none, none => none

def createStrong : Option Change → Option Change → Option Action
  | some lc, none => some (.remote lc)
  | none, some rc => some (.local rc)
  | some lc, some rc =>
    if sameStrong lc rc then some (.identical lc rc) else some (.conflict lc rc)
  | none, none => none

def isUnresolvedConflict : Action → Bool
  | .conflict _ _ => true
  | _ => false

def path : Action → Path
  | .local l => l.path
  | .remote r => r.path
  | .conflict l _ => l.path
  | .resolvedLocal _ l => l.path
  | .resolvedRemote _ r => r.path
  | .identical l _ => l.path

/-- The action as the other side holds it. -/
def flip : Action → Action
  | .local l => .remote l
  | .remote r => .local r
  | .conflict l r => .conflict r l
  | .resolvedLocal c l => .resolvedRemote c l
  | .resolvedRemote c r => .resolvedLocal c r
  | .identical l r => .identical r l

/-- The change that the action applies on this side. -/
def appliedChange : Action → Option Change
  | .local change => some change
  | .resolvedLocal _ change => some change
  | _ => none

/-- `action_change` -/
def change : Action → Change
  | .local change | .remote change | .resolvedLocal _ change | .resolvedRemote _ change => change
  | .conflict left _ | .identical left _ => left

/-- The change that the action sends to the other side. -/
def sentChange : Action → Option Change
  | .remote change => some change
  | .resolvedRemote _ change => some change
  | _ => none

@[simp] theorem path_change (a : Action) : a.change.path = a.path := by
  cases a <;> rfl

@[simp] theorem sentChange_flip (a : Action) : a.flip.sentChange = a.appliedChange := by
  cases a <;> rfl

@[simp] theorem flip_flip (a : Action) : a.flip.flip = a := by
  cases a <;> rfl

@[simp] theorem isUnresolvedConflict_flip (a : Action) :
    a.flip.isUnresolvedConflict = a.isUnresolvedConflict := by
  cases a <;> rfl

end Action

def reverse (actions : Actions) : Actions := actions.map Action.flip

theorem reverse_reverse (actions : Actions) : reverse (reverse actions) = actions := by
  simp [reverse, Function.comp_def]

end Duet
