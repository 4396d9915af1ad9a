import Duet.Lib.Sorted
import Duet.Sync.DetailKind
import Duet.Sync.RemovalBlockers

/-!
# The plan of a commit

Before outputs are staged, the actions have to be in strict path order, each with one path,
and none may replace a directory by something else. The plan lists what the commit of the
actions is going to do in the target tree: the files that are read, the directories that
are removed or made, and the entries that are put into or taken from a directory.
-/

namespace Duet

open Lib

/-! ## The structure of the actions -/

/-- What the structure check rejects, with the data of the source's messages. -/
inductive StructureError where
  /-- staged apply does not support replacing a directory with a non-directory -/
  | directoryToNondirectory (path : Path)
  /-- modified change path mismatch -/
  | changeMismatch (old new : Path)
  /-- staged actions must be in strictly increasing path order -/
  | actionOrder (previous path : Path)
  /-- compound action path mismatch -/
  | compoundMismatch (path change : Path)
  /-- old manifest entries must be in strictly increasing path order -/
  | entryOrder (previous path : Path)
deriving DecidableEq

/-- The change that an action carries out on one of the sides. -/
def effectiveChange : Action → Option Change
  | .local change | .remote change | .resolvedLocal _ change | .resolvedRemote _ change =>
    some change
  | .conflict _ _ | .identical _ _ => none

/-- The path of a change, which is the same before and after. -/
def stagedPath : Change → Except StructureError Path
  | .added entry | .removed entry => .ok entry.path
  | .modified old new =>
    if old.path ≠ new.path then .error (.changeMismatch old.path new.path) else .ok new.path

def checkKeepsDirectories (action : Action) : Except StructureError Unit :=
  match effectiveChange action with
  | some (.modified old new) =>
    if old.isDir && !new.isDir then .error (.directoryToNondirectory old.path) else .ok ()
  | _ => .ok ()

/-- A path comes after the one before it. -/
def checkOrder (error : Path → Path → StructureError) (previous : Option Path) (path : Path) :
    Except StructureError Unit :=
  match previous.filter fun previous => previous ≥ path with
  | some previous => .error (error previous path)
  | none => .ok ()

def checkCompoundPaths (path : Path) (compound : List Path) : Except StructureError Unit :=
  match compound.find? fun inner => inner ≠ path with
  | some inner => .error (.compoundMismatch path inner)
  | none => .ok ()

/-- One action after the path of the one before it. Its own path is that of its first
change. -/
def validateStagedAction (previous : Option Path) (action : Action) :
    Except StructureError Path := do
  checkKeepsDirectories action
  let paths ← action.changes.mapM stagedPath
  let path := paths.headD action.path
  checkOrder .actionOrder previous path
  checkCompoundPaths path paths.tail
  pure path

def validateStagedActions : Option Path → Actions → Except StructureError Unit
  | _, [] => .ok ()
  | previous, action :: rest => do
    let path ← validateStagedAction previous action
    validateStagedActions (some path) rest

def validateOldEntries : Option Path → Entries → Except StructureError Unit
  | _, [] => .ok ()
  | previous, entry :: rest => do
    checkOrder .entryOrder previous entry.path
    validateOldEntries (some entry.path) rest

def validateStagedStructure (actions : Actions) (allOld : Entries) :
    Except StructureError Unit := do
  validateStagedActions none actions
  validateOldEntries none allOld

/-! ## What the commit is going to do -/

/-- An entry that is put into its parent directory or taken from it. -/
structure ParentMutation where
  path : Path
  allowWritableGuard : Bool
  allowMissingParent : Bool
deriving DecidableEq

structure SourceRead where
  path : Path
  description : String
deriving DecidableEq

/-- The changes that this side applies. -/
def appliedChanges (actions : Actions) : List Change := actions.filterMap Action.appliedChange

/-- The directories that a sent change makes read-only. -/
def readonlyDirectoryMetadataChanges (actions : Actions) : List Path :=
  (actions.filterMap Action.sentChange).filterMap fun
    | .modified old new =>
      if old.isDir && new.isDir && old.mode &&& 0o200 != 0 && new.mode &&& 0o200 == 0 then
        some new.path
      else none
    | _ => none

def plannedDestinationDirectories (actions : Actions) : List Path :=
  (appliedChanges actions).filterMap fun
    | .added entry => if entry.isDir then some entry.path else none
    | .modified old new => if !old.isDir && new.isDir then some new.path else none
    | .removed _ => none

def applyParentMutation : Change → Option ParentMutation
  | .removed e => some ⟨e.path, false, false⟩
  | .added e => some ⟨e.path, e.isFile, true⟩
  | .modified old new =>
    if old.isFile && new.isFile then
      if !old.sameContents new then some ⟨new.path, true, false⟩ else none
    else if old.isDir && new.isDir then none
    else if old.isSymlink && new.isSymlink then
      if old.target ≠ new.target then some ⟨new.path, false, false⟩ else none
    else some ⟨new.path, new.isFile, false⟩

def applyParentMutations (actions : Actions) : List ParentMutation :=
  (appliedChanges actions).filterMap applyParentMutation

def removedDestinationPaths (actions : Actions) : List Path :=
  (appliedChanges actions).filterMap fun
    | .removed entry => some entry.path
    | .modified old new => if old.isDir && !new.isDir then some old.path else none
    | .added _ => none

def applyMetadataTargets (actions : Actions) : List Path :=
  (appliedChanges actions).filterMap fun
    | .modified _ new => some new.path
    | .removed e => some e.path
    | .added _ => none

/-- The files of an action that are read here: the one that is served to the other side,
and the one that a diff is received for. -/
def sourceReadsOf (action : Action) : List SourceRead :=
  (match sourceDetailKind action with
    | some (.file path) | some (.diff path) => [⟨path, "source detail"⟩]
    | none => []) ++
  match action.appliedChange with
  | some (.modified old new) =>
    if old.isFile && new.isFile && !old.sameContents new then
      [⟨old.path, "destination signature"⟩]
    else []
  | _ => []

structure CommitPlan where
  removalPolicy : RemovalBlockerPolicy
  removedDestinationPaths : List Path
  readonlyDirectoryMetadataChanges : List Path
  plannedDestinationDirectories : List Path
  metadataTargets : List Path
  parentMutations : List ParentMutation
  sourceReads : List SourceRead

def CommitPlan.new (globToRegex : String → Option (Name → Bool)) (actions : Actions)
    (scanPolicy : Option ScanPolicy) (applyOptions : ApplyOptions) : Removes CommitPlan := do
  let removalPolicy ← RemovalBlockerPolicy.new globToRegex scanPolicy applyOptions
  pure {
    removalPolicy := removalPolicy
    removedDestinationPaths := Duet.removedDestinationPaths actions
    readonlyDirectoryMetadataChanges := Duet.readonlyDirectoryMetadataChanges actions
    plannedDestinationDirectories := Duet.plannedDestinationDirectories actions
    metadataTargets := applyMetadataTargets actions
    parentMutations := applyParentMutations actions
    sourceReads := actions.flatMap sourceReadsOf }

/-! ## What the structure check accepts -/

section Accepted

variable {actions : Actions} {allOld : Entries}

theorem stagedPath_eq_ok {c : Change} {path : Path} :
    stagedPath c = .ok path ↔ c.PathsAgree ∧ c.path = path := by
  cases c with
  | added e => simp [stagedPath, Change.PathsAgree, Change.path]
  | removed e => simp [stagedPath, Change.PathsAgree, Change.path]
  | modified old new =>
    by_cases same : old.path = new.path
    · simp [stagedPath, Change.PathsAgree, Change.path, same]
    · simp [stagedPath, Change.PathsAgree, same]

/-- No change of the action replaces a directory by something else. -/
def Action.KeepsDirectories (action : Action) : Prop :=
  ∀ old new, effectiveChange action = some (.modified old new) → old.isDir = true →
    new.isDir = true

/-- All changes of the action have its path, before and after. -/
def Action.OnePath (action : Action) : Prop :=
  ∀ c ∈ action.changes, c.PathsAgree ∧ c.path = action.path

theorem effectiveChange_of_applied {action : Action} {c : Change}
    (applied : action.appliedChange = some c) : effectiveChange action = some c := by
  cases action <;> cases applied <;> rfl

theorem mem_changes_of_applied {action : Action} {c : Change}
    (applied : action.appliedChange = some c) : c ∈ action.changes := by
  cases action <;> cases applied <;> simp [Action.changes]

/-- The path of an action is that of one of its changes. -/
theorem exists_change (action : Action) : ∃ c rest, action.changes = c :: rest := by
  cases action <;> exact ⟨_, _, rfl⟩

theorem path_mem_changes (action : Action) : ∃ c ∈ action.changes, c.path = action.path := by
  cases action with
  | «local» c | remote c => exact ⟨c, by simp [Action.changes], rfl⟩
  | conflict l r | identical l r => exact ⟨l, by simp [Action.changes], rfl⟩
  | resolvedLocal pair c | resolvedRemote pair c =>
    exact ⟨c, by simp [Action.changes], rfl⟩

theorem mapM_stagedPath_eq_ok {changes : List Change} {paths : List Path} :
    changes.mapM stagedPath = .ok paths ↔
      (∀ c ∈ changes, c.PathsAgree) ∧ paths = changes.map Change.path := by
  induction changes generalizing paths with
  | nil => simp [pure, Except.pure, eq_comm]
  | cons c changes ih =>
    rw [List.mapM_cons, List.forall_mem_cons, List.map_cons]
    constructor
    · intro run
      obtain ⟨path, here, run⟩ := bind_eq_ok.mp run
      obtain ⟨rest, there, run⟩ := bind_eq_ok.mp run
      obtain ⟨agree, rfl⟩ := stagedPath_eq_ok.mp here
      obtain ⟨others, rfl⟩ := ih.mp there
      cases run
      exact ⟨⟨agree, others⟩, rfl⟩
    · rintro ⟨⟨agree, others⟩, rfl⟩
      refine bind_eq_ok.mpr ⟨c.path, stagedPath_eq_ok.mpr ⟨agree, rfl⟩, ?_⟩
      exact bind_eq_ok.mpr ⟨_, ih.mpr ⟨others, rfl⟩, rfl⟩

theorem checkKeepsDirectories_eq_ok {action : Action} :
    checkKeepsDirectories action = .ok () ↔ action.KeepsDirectories := by
  unfold checkKeepsDirectories Action.KeepsDirectories
  cases effective : effectiveChange action with
  | none => simp
  | some c =>
    cases c with
    | added e | removed e => simp
    | modified old new =>
      cases oldDir : old.isDir <;> cases newDir : new.isDir <;> simp [oldDir, newDir]

theorem checkOrder_eq_ok {error : Path → Path → StructureError} {previous : Option Path}
    {path : Path} : checkOrder error previous path = .ok () ↔ ∀ q ∈ previous, q < path := by
  unfold checkOrder
  cases previous with
  | none => simp
  | some q =>
    by_cases before : q < path
    · simp [Option.filter, before, not_le.mpr before]
    · simp [Option.filter, not_lt.mp before, before]

theorem checkCompoundPaths_eq_ok {path : Path} {compound : List Path} :
    checkCompoundPaths path compound = .ok () ↔ ∀ inner ∈ compound, inner = path := by
  unfold checkCompoundPaths
  cases found : compound.find? fun inner => inner ≠ path with
  | none =>
    have all := List.find?_eq_none.mp found
    simpa using all
  | some inner =>
    have differs : inner ≠ path := by simpa using List.find?_some found
    simp only [reduceCtorEq, false_iff]
    exact fun all => differs (all inner (List.mem_of_find?_eq_some found))

theorem validateStagedAction_eq_ok {previous : Option Path} {action : Action} {path : Path} :
    validateStagedAction previous action = .ok path ↔
      action.KeepsDirectories ∧ action.OnePath ∧ (∀ q ∈ previous, q < action.path) ∧
        path = action.path := by
  obtain ⟨first, rest, changes⟩ := exists_change action
  have ofOne : (∀ c ∈ action.changes, c.path = first.path) → action.path = first.path := by
    intro same
    obtain ⟨c, mem, here⟩ := path_mem_changes action
    exact here.symm.trans (same c mem)
  constructor
  · intro run
    obtain ⟨⟨⟩, keeps, run⟩ := bind_eq_ok.mp run
    obtain ⟨paths, mapped, run⟩ := bind_eq_ok.mp run
    obtain ⟨⟨⟩, order, run⟩ := bind_eq_ok.mp run
    obtain ⟨⟨⟩, compound, run⟩ := bind_eq_ok.mp run
    obtain ⟨agree, rfl⟩ := mapM_stagedPath_eq_ok.mp mapped
    have inner := checkCompoundPaths_eq_ok.mp compound
    simp only [changes, List.map_cons, List.headD_cons, List.tail_cons] at order inner run
    have same : ∀ c ∈ action.changes, c.path = first.path := by
      rw [changes]
      intro c mem
      rcases List.mem_cons.mp mem with rfl | later
      · rfl
      · exact inner c.path (List.mem_map_of_mem later)
    have here := ofOne same
    cases run
    refine ⟨checkKeepsDirectories_eq_ok.mp keeps, fun c mem => ⟨agree c mem, ?_⟩, ?_, here.symm⟩
    · exact (same c mem).trans here.symm
    · rw [here]
      exact checkOrder_eq_ok.mp order
  · rintro ⟨keeps, one, before, rfl⟩
    have firstPath : first.path = action.path := (one first (changes ▸ List.mem_cons_self)).2
    refine bind_eq_ok.mpr ⟨(), checkKeepsDirectories_eq_ok.mpr keeps, ?_⟩
    refine bind_eq_ok.mpr ⟨_, mapM_stagedPath_eq_ok.mpr ⟨fun c mem => (one c mem).1, rfl⟩, ?_⟩
    simp only [changes, List.map_cons, List.headD_cons, List.tail_cons, firstPath]
    refine bind_eq_ok.mpr ⟨(), checkOrder_eq_ok.mpr before, ?_⟩
    refine bind_eq_ok.mpr ⟨(), checkCompoundPaths_eq_ok.mpr fun inner mem => ?_, rfl⟩
    obtain ⟨c, later, rfl⟩ := List.mem_map.mp mem
    exact (one c (changes ▸ List.mem_cons_of_mem _ later)).2

theorem validateStagedActions_eq_ok {previous : Option Path} :
    validateStagedActions previous actions = .ok () ↔
      (∀ a ∈ actions, a.KeepsDirectories ∧ a.OnePath) ∧ SortedBy Action.path actions ∧
        ∀ q ∈ previous, ∀ a ∈ actions, q < a.path := by
  induction actions generalizing previous with
  | nil => simp [validateStagedActions]
  | cons a rest ih =>
    have step : validateStagedActions previous (a :: rest) = .ok () ↔
        ∃ path, validateStagedAction previous a = .ok path ∧
          validateStagedActions (some path) rest = .ok () := bind_eq_ok
    simp only [step, validateStagedAction_eq_ok, ih, List.forall_mem_cons, sortedBy_cons]
    constructor
    · rintro ⟨path, ⟨keeps, one, before, rfl⟩, others, sorted, after⟩
      have later : ∀ b ∈ rest, a.path < b.path := after a.path rfl
      refine ⟨⟨⟨keeps, one⟩, others⟩, ⟨later, sorted⟩, fun q isPrevious => ?_⟩
      exact ⟨before q isPrevious, fun b mem => (before q isPrevious).trans (later b mem)⟩
    · rintro ⟨⟨⟨keeps, one⟩, others⟩, ⟨later, sorted⟩, before⟩
      refine ⟨a.path, ⟨keeps, one, fun q mem => (before q mem).1, rfl⟩, others, sorted, ?_⟩
      rintro q isHere b mem
      cases isHere
      exact later b mem

theorem validateOldEntries_eq_ok {previous : Option Path} :
    validateOldEntries previous allOld = .ok () ↔
      SortedBy DirEntryWithMeta.path allOld ∧ ∀ q ∈ previous, ∀ e ∈ allOld, q < e.path := by
  induction allOld generalizing previous with
  | nil => simp [validateOldEntries]
  | cons e rest ih =>
    have order : validateOldEntries previous (e :: rest) = .ok () ↔
        ∃ done, checkOrder .entryOrder previous e.path = .ok done ∧
          validateOldEntries (some e.path) rest = .ok () := bind_eq_ok
    rw [order, ih, sortedBy_cons]
    constructor
    · rintro ⟨⟨⟩, checked, sorted, after⟩
      have before := checkOrder_eq_ok.mp checked
      have later : ∀ d ∈ rest, e.path < d.path := after e.path rfl
      refine ⟨⟨later, sorted⟩, fun q isPrevious d mem => ?_⟩
      rcases List.mem_cons.mp mem with rfl | inside
      · exact before q isPrevious
      · exact (before q isPrevious).trans (later d inside)
    · rintro ⟨⟨later, sorted⟩, before⟩
      refine ⟨(), checkOrder_eq_ok.mpr fun q mem => before q mem e List.mem_cons_self, sorted, ?_⟩
      rintro q isHere d mem
      cases isHere
      exact later d mem

/-- The structure check accepts exactly the sorted plans of one path for each action that
keep directories, over a sorted manifest. -/
theorem validateStagedStructure_eq_ok :
    validateStagedStructure actions allOld = .ok () ↔
      (∀ a ∈ actions, a.KeepsDirectories ∧ a.OnePath) ∧ SortedBy Action.path actions ∧
        SortedEntries allOld := by
  have both : validateStagedStructure actions allOld = .ok () ↔
      ∃ done, validateStagedActions none actions = .ok done ∧
        validateOldEntries none allOld = .ok () := bind_eq_ok
  rw [both]
  constructor
  · rintro ⟨⟨⟩, first, second⟩
    obtain ⟨each, sorted, -⟩ := validateStagedActions_eq_ok.mp first
    exact ⟨each, sorted, (validateOldEntries_eq_ok.mp second).1⟩
  · rintro ⟨each, sorted, sortedOld⟩
    exact ⟨(), validateStagedActions_eq_ok.mpr ⟨each, sorted, nofun⟩,
      validateOldEntries_eq_ok.mpr ⟨sortedOld, nofun⟩⟩

end Accepted

end Duet
