import Duet.Actions

/-!
# Validation of entries and actions

Entries that come from a state file or from the other side are checked before they are
used: their paths have to name something below the synchronization base, and in strong
mode every file has to carry its digest.
-/

namespace Duet

/-- What a check rejects, with the data of the source's messages. -/
inductive ValidationError where
  /-- the path must not contain `..` components -/
  | parentComponent (path : Path)
  /-- the path must be relative to the sync base -/
  | notRelative (path : Path)
  /-- the path must name an entry below the sync base -/
  | namesNoEntry (path : Path)
  /-- the path must use nonempty canonical components without `.` aliases -/
  | notCanonical (path : Path)
  /-- invalid entry path in the described list -/
  | invalidEntry (description : String) (path : Path) (cause : ValidationError)
  /-- invalid action entry path -/
  | invalidActionEntry (path : Path) (cause : ValidationError)
  /-- a strong-digest action entry is missing its content digest -/
  | missingDigest (path : Path)

abbrev Checked := Except ValidationError Unit

/-- `wrap_err` -/
def Checked.wrap (context : ValidationError → ValidationError) : Checked → Checked
  | .ok () => .ok ()
  | .error cause => .error (context cause)

def validateRelativePathComponents (path : Path) : Checked :=
  path.forM fun
    | .normal _ | .curDir => .ok ()
    | .parentDir => .error (.parentComponent path)
    | .rootDir => .error (.notRelative path)

/-- Whether a component is the name of an entry. -/
def Component.isNormal : Component → Bool
  | .normal _ => true
  | _ => false

def validateRelativePath (path : Path) : Checked := do
  validateRelativePathComponents path
  if !path.any Component.isNormal then .error (.namesNoEntry path) else .ok ()

/-- The source looks for `.` and for empty components in the bytes of the path. A path is
its components here, of which only a leading `.` is left. -/
def validateCanonicalEntryPath (path : Path) : Checked := do
  validateRelativePath path
  if path.isEmpty || path.contains .curDir then .error (.notCanonical path) else .ok ()

def validateEntries (description : String) (entries : Entries) : Checked :=
  entries.forM fun entry =>
    (validateCanonicalEntryPath entry.path).wrap (.invalidEntry description entry.path)

def validateEntryPath (entry : DirEntryWithMeta) : Checked :=
  (validateCanonicalEntryPath entry.path).wrap (.invalidActionEntry entry.path)

/-- The entries of a change, in the order in which they are checked. -/
def Change.entries : Change → List DirEntryWithMeta
  | .added entry | .removed entry => [entry]
  | .modified old new => [old, new]

/-- The changes of an action, in the order in which they are checked. -/
def Action.changes : Action → List Change
  | .local change | .remote change => [change]
  | .conflict left right | .identical left right => [left, right]
  | .resolvedLocal (left, right) change | .resolvedRemote (left, right) change =>
    [left, right, change]

def validateChangePaths (change : Change) : Checked := change.entries.forM validateEntryPath

def validateActions (actions : Actions) : Checked :=
  actions.forM fun action => action.changes.forM validateChangePaths

def validateStrongEntry (entry : DirEntryWithMeta) : Checked :=
  if entry.isFile && entry.digest.isNone then .error (.missingDigest entry.path) else .ok ()

def validateStrongChange (change : Change) : Checked := change.entries.forM validateStrongEntry

def validateStrongActions (actions : Actions) : Checked := do
  validateActions actions
  actions.forM fun action => action.changes.forM validateStrongChange

/-! ## What is accepted -/

/-- A path that names an entry below the base. -/
def CanonicalPath (path : Path) : Prop := path ≠ [] ∧ ∀ component ∈ path, component.isNormal

/-- The files carry digests and every entry has a canonical path. -/
structure StrongEntry (entry : DirEntryWithMeta) : Prop where
  path : CanonicalPath entry.path
  digest : entry.isFile = true → entry.digest.isSome

section Accepted

variable {α : Type} {path : Path} {actions : Actions}

theorem Checked.wrap_eq_ok {context : ValidationError → ValidationError} {check : Checked} :
    check.wrap context = .ok () ↔ check = .ok () := by
  cases check <;> simp [Checked.wrap]

theorem Checked.bind_eq_ok {first second : Checked} :
    (do first; second) = .ok () ↔ first = .ok () ∧ second = .ok () := by
  cases first <;> simp [bind, Except.bind]

theorem forM_eq_ok {check : α → Checked} {l : List α} :
    l.forM check = .ok () ↔ ∀ a ∈ l, check a = .ok () := by
  induction l with
  | nil => exact ⟨fun _ a mem => absurd mem List.not_mem_nil, fun _ => rfl⟩
  | cons a l ih =>
    rw [List.forall_mem_cons, ← ih]
    exact Checked.bind_eq_ok

theorem validateCanonicalEntryPath_eq_ok :
    validateCanonicalEntryPath path = .ok () ↔ CanonicalPath path := by
  unfold validateCanonicalEntryPath validateRelativePath validateRelativePathComponents
  rw [Checked.bind_eq_ok, Checked.bind_eq_ok, forM_eq_ok]
  constructor
  · rintro ⟨⟨components, -⟩, spelled⟩
    have canonical : path ≠ [] ∧ Component.curDir ∉ path := by
      simpa using spelled
    refine ⟨canonical.1, fun component mem => ?_⟩
    have allowed := components component mem
    cases component with
    | normal name => rfl
    | curDir => exact absurd mem canonical.2
    | parentDir | rootDir => cases allowed
  · rintro ⟨nonempty, normal⟩
    refine ⟨⟨fun component mem => ?_, ?_⟩, ?_⟩
    · have isNormal := normal component mem
      cases component with
      | normal name => rfl
      | _ => cases isNormal
    · obtain ⟨component, rest, rfl⟩ := List.exists_cons_of_ne_nil nonempty
      simp [normal component List.mem_cons_self]
    · have noDot : Component.curDir ∉ path := fun mem => Bool.false_ne_true (normal _ mem)
      simp [nonempty, noDot]

theorem validateEntries_eq_ok {description : String} {entries : Entries} :
    validateEntries description entries = .ok () ↔ ∀ e ∈ entries, CanonicalPath e.path := by
  unfold validateEntries
  rw [forM_eq_ok]
  refine forall_congr' fun e => imp_congr_right fun _ => ?_
  rw [Checked.wrap_eq_ok, validateCanonicalEntryPath_eq_ok]

/-- A path that names an entry passes the check of a path that is joined to the base. -/
theorem CanonicalPath.validateRelativePath (canonical : CanonicalPath path) :
    validateRelativePath path = .ok () :=
  (Checked.bind_eq_ok.mp (validateCanonicalEntryPath_eq_ok.mpr canonical)).1

theorem validateActions_eq_ok :
    validateActions actions = .ok () ↔
      ∀ a ∈ actions, ∀ c ∈ a.changes, ∀ e ∈ c.entries, CanonicalPath e.path := by
  unfold validateActions
  rw [forM_eq_ok]
  refine forall_congr' fun a => imp_congr_right fun _ => ?_
  rw [forM_eq_ok]
  refine forall_congr' fun c => imp_congr_right fun _ => ?_
  unfold validateChangePaths
  rw [forM_eq_ok]
  refine forall_congr' fun e => imp_congr_right fun _ => ?_
  unfold validateEntryPath
  rw [Checked.wrap_eq_ok, validateCanonicalEntryPath_eq_ok]

/-- A strong action list is accepted exactly when all of its entries are strong. -/
theorem validateStrongActions_eq_ok :
    validateStrongActions actions = .ok () ↔
      ∀ a ∈ actions, ∀ c ∈ a.changes, ∀ e ∈ c.entries, StrongEntry e := by
  unfold validateStrongActions validateActions
  rw [Checked.bind_eq_ok, forM_eq_ok, forM_eq_ok, ← forall₂_and]
  refine forall_congr' fun a => imp_congr_right fun _ => ?_
  rw [forM_eq_ok, forM_eq_ok, ← forall₂_and]
  refine forall_congr' fun c => imp_congr_right fun _ => ?_
  unfold validateChangePaths validateStrongChange
  rw [forM_eq_ok, forM_eq_ok, ← forall₂_and]
  refine forall_congr' fun e => imp_congr_right fun _ => ?_
  unfold validateEntryPath validateStrongEntry
  rw [Checked.wrap_eq_ok, validateCanonicalEntryPath_eq_ok]
  constructor
  · rintro ⟨canonical, digest⟩
    refine ⟨canonical, fun file => ?_⟩
    rw [file] at digest
    cases isDigest : e.digest with
    | none => simp [isDigest] at digest
    | some d => rfl
  · rintro ⟨canonical, digest⟩
    refine ⟨canonical, ?_⟩
    cases file : e.isFile with
    | false => rfl
    | true => simp [Option.isSome_iff_ne_none.mp (digest file)]

/-- The other side's form of an action has the same changes. -/
theorem Action.changes_of_flip {action : Action} {change : Change}
    (mem : change ∈ action.flip.changes) : change ∈ action.changes := by
  cases action with
  | conflict l r | identical l r =>
    simp only [Action.flip, Action.changes, List.mem_cons, List.not_mem_nil, or_false] at mem ⊢
    exact mem.symm
  | «local» c | remote c | resolvedLocal _ c | resolvedRemote _ c => exact mem

/-- Both forms of a plan name the same entries. -/
theorem validateActions_reverse (validated : validateActions actions = .ok ()) :
    validateActions (reverse actions) = .ok () := by
  rw [validateActions_eq_ok] at validated ⊢
  intro action mem change inside
  obtain ⟨original, mem', rfl⟩ := List.mem_map.mp mem
  exact validated original mem' change (Action.changes_of_flip inside)

end Accepted

end Duet
