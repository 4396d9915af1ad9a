import Duet.Orchestrator.Plan
import Duet.Sync.Manifest

/-!
# Convergence of the three-way merge

Both sides start from manifests that agree on everything that is synchronized. The
changes that each side made since are matched into a plan, some conflicts are
resolved, and what does not depend on an unresolved conflict is carried out on both
sides. `threeWayMerge_converges` says that this loses and invents nothing: the new
manifests agree again, and a rescan of the two trees finds exactly the changes of the
paths that were held back.

The argument is pointwise. `Settles` says what an action of the plan does at its path
in terms of the current entries of the two sides, `entryAt_merged` and
`entryAt_appliedTree` read the new manifest and the new tree at one path, and the
sorted lists are then compared lookup by lookup.
-/

namespace Duet

open Lib

/-! ## Agreement of two sides -/

/-- Two entries of one path agree on everything that is synchronized. Inodes, and
sizes and mtimes of directories, are the side's own. -/
structure SameSynced (l r : DirEntryWithMeta) : Prop where
  isDir : l.isDir = r.isDir
  target : l.target = r.target
  size : l.isFile = true → l.size = r.size
  digest : l.isFile = true → l.digest = r.digest
  mtime : l.isDir = false → l.mtime = r.mtime
  mode : l.isSymlink = false → l.mode = r.mode

namespace SameSynced

theorem refl (e : DirEntryWithMeta) : SameSynced e e :=
  ⟨rfl, rfl, fun _ => rfl, fun _ => rfl, fun _ => rfl, fun _ => rfl⟩

variable {l r : DirEntryWithMeta}

theorem isSymlink (h : SameSynced l r) : l.isSymlink = r.isSymlink :=
  congrArg Option.isSome h.target

theorem isFile (h : SameSynced l r) : l.isFile = r.isFile := by
  simp only [DirEntryWithMeta.isFile, h.isDir, h.isSymlink]

theorem symm (h : SameSynced l r) : SameSynced r l where
  isDir := h.isDir.symm
  target := h.target.symm
  size := fun file => (h.size (h.isFile.trans file)).symm
  digest := fun file => (h.digest (h.isFile.trans file)).symm
  mtime := fun notDir => (h.mtime (h.isDir.trans notDir)).symm
  mode := fun notLink => (h.mode (h.isSymlink.trans notLink)).symm

/-- A fresh inode does not disturb agreement. -/
theorem setIno (e : DirEntryWithMeta) (ino : UInt64) : SameSynced (e.setIno ino) e :=
  ⟨rfl, rfl, fun _ => rfl, fun _ => rfl, fun _ => rfl, fun _ => rfl⟩

end SameSynced

/-- Both present and in agreement, or both absent. -/
def OptionsAgree : Option DirEntryWithMeta → Option DirEntryWithMeta → Prop :=
  Option.Rel SameSynced

theorem OptionsAgree.refl (e : Option DirEntryWithMeta) : OptionsAgree e e := by
  cases e with
  | none => exact .none
  | some e => exact .some (.refl e)

theorem OptionsAgree.symm {l r : Option DirEntryWithMeta} (h : OptionsAgree l r) :
    OptionsAgree r l := by
  cases h with
  | none => exact .none
  | some h => exact .some h.symm

theorem OptionsAgree.isNone_eq {l r : Option DirEntryWithMeta} (h : OptionsAgree l r) :
    l.isNone = r.isNone := by
  cases h <;> rfl

theorem OptionsAgree.setIno (e : Option DirEntryWithMeta) (ino : UInt64) :
    OptionsAgree (e.map (·.setIno ino)) e := by
  cases e with
  | none => exact .none
  | some e => exact .some (.setIno e ino)

/-- Two manifests have the same paths and agree at each of them. -/
def ManifestsAgree (left right : Entries) : Prop :=
  ∀ p, OptionsAgree (entryAt p left) (entryAt p right)

/-- The files of a manifest carry digests. -/
def CarriesDigests (entries : Entries) : Prop :=
  ∀ e ∈ entries, e.isFile = true → e.digest.isSome

/-- Equal digests of the two sides belong to files of one size. -/
def DigestsDetermineSize (left right : Entries) : Prop :=
  ∀ l ∈ left, ∀ r ∈ right, l.isFile = true → r.isFile = true → l.digest = r.digest →
    l.size = r.size

/-- The manifests of one synchronization: the saved ones agree, the current ones are
arbitrary. -/
structure ThreeWay (savedL savedR currentL currentR : Entries) : Prop where
  sortedSavedL : SortedEntries savedL
  sortedSavedR : SortedEntries savedR
  sortedCurrentL : SortedEntries currentL
  sortedCurrentR : SortedEntries currentR
  agree : ManifestsAgree savedL savedR
  digestsL : CarriesDigests currentL
  digestsR : CarriesDigests currentR
  sizes : DigestsDetermineSize currentL currentR

/-! ## Carrying a plan out -/

/-- What an action leaves on disk at its path: a change that is applied here puts its
new entry in the place of the current one. -/
def carryOut (ino : Path → UInt64) (action : Action) (current : Option DirEntryWithMeta) :
    Option DirEntryWithMeta :=
  match action.appliedChange with
  | some change => change.newEntry.map (·.setIno (ino action.path))
  | none => current

/-- A tree after the changes of a plan that were applied here. -/
def appliedTree (ino : Path → UInt64) (tree : Entries) (actions : Actions) : Entries :=
  mergeUpdates DirEntryWithMeta.path Action.path (carryOut ino) tree actions

/-- The paths that a plan holds back: unresolved conflicts and what depends on them. -/
def heldBack (actions : Actions) : List Path :=
  unresolvedPaths actions ++ (filterUnresolvedConflictDependencies actions).2

/-! ## Actions at one path -/

/-- An action settles the difference between the current entries of its path: an
applied change brings the entry of the other side, a sent change carries the entry of
this side, and an identical change needs nothing. -/
def Settles (l r : Option DirEntryWithMeta) : Action → Prop
  | .local c | .resolvedLocal _ c => c.newEntry = r
  | .remote c | .resolvedRemote _ c => c.newEntry = l
  | .identical lc rc => lc.newEntry = l ∧ rc.newEntry = r ∧ OptionsAgree l r
  | .conflict _ _ => False

theorem Settles.flip {l r : Option DirEntryWithMeta} {a : Action} (h : Settles l r a) :
    Settles r l a.flip := by
  cases a with
  | identical lc rc => exact ⟨h.2.1, h.1, h.2.2.symm⟩
  | conflict lc rc => exact h
  | _ => exact h

/-- What an action records of this side without looking at the disk is the current entry. -/
def Records (l : Option DirEntryWithMeta) : Action → Prop
  | .local _ | .resolvedLocal _ _ => True
  | .remote c | .resolvedRemote _ c => c.newEntry = l
  | .identical lc _ => lc.newEntry = l
  | .conflict _ _ => False

theorem Settles.records {l r : Option DirEntryWithMeta} {a : Action} (h : Settles l r a) :
    Records l a := by
  cases a with
  | «local» c | resolvedLocal pair c => trivial
  | identical lc rc => exact h.1
  | remote c | resolvedRemote pair c | conflict lc rc => exact h

/-- Cross-side sameness of two changes is agreement of what they leave, for a
comparison of files that decides whether their digests are equal. -/
theorem optionsAgree_of_same {lc rc : Change}
    {sameFile : DirEntryWithMeta → DirEntryWithMeta → Bool}
    (h : sameWithFileContents lc rc sameFile = true)
    (digests : ∀ l r, sameFile l r = true → l.digest = r.digest)
    (sizes : ∀ l ∈ lc.newEntry, ∀ r ∈ rc.newEntry, l.isFile = true → r.isFile = true →
      l.digest = r.digest → l.size = r.size) :
    OptionsAgree lc.newEntry rc.newEntry := by
  have entries : ∀ l r : DirEntryWithMeta,
      (((l.isSymlink && r.isSymlink || l.mode == r.mode) && l.target == r.target &&
        l.isDir == r.isDir && (l.isDir || l.mtime == r.mtime) &&
        (!l.isFile || sameFile l r)) = true) →
      (l.isFile = true → r.isFile = true → l.digest = r.digest → l.size = r.size) →
      SameSynced l r := by
    intro l r same sizes
    simp only [Bool.and_eq_true, Bool.or_eq_true, beq_iff_eq, Bool.not_eq_true'] at same
    obtain ⟨⟨⟨⟨mode, target⟩, isDir⟩, mtime⟩, file⟩ := same
    have digest : l.isFile = true → l.digest = r.digest := by
      intro isFile
      refine digests l r (file.resolve_left ?_)
      rw [isFile]
      exact Bool.noConfusion
    have isFile : l.isFile = r.isFile := by
      simp only [DirEntryWithMeta.isFile, DirEntryWithMeta.isSymlink, isDir, target]
    refine ⟨isDir, target, fun file => sizes file (isFile ▸ file) (digest file), digest, ?_, ?_⟩
    · intro notDir
      rcases mtime with dir | mtime
      · rw [notDir] at dir; cases dir
      · exact mtime
    · intro notLink
      rcases mode with ⟨link, -⟩ | mode
      · rw [notLink] at link; cases link
      · exact mode
  cases lc <;> cases rc <;> first
    | exact .none
    | exact .some (entries _ _ h (sizes _ rfl _ rfl))
    | cases h

/-- Strong sameness compares the digests. -/
theorem optionsAgree_of_sameStrong {lc rc : Change} (h : sameStrong lc rc = true)
    (sizes : ∀ l ∈ lc.newEntry, ∀ r ∈ rc.newEntry, l.isFile = true → r.isFile = true →
      l.digest = r.digest → l.size = r.size) :
    OptionsAgree lc.newEntry rc.newEntry := by
  refine optionsAgree_of_same h ?_ sizes
  intro l r same
  cases left : l.digest <;> cases right : r.digest <;> simp_all

/-- Two changes of one saved path that do not both remove it can be resolved both ways: the
side that gives way receives a change from its own entry to the other one. -/
theorem resolve_of_present {lc rc : Change} (present : lc.newEntry ≠ none ∨ rc.newEntry ≠ none)
    (saved : lc.oldEntry.isNone = rc.oldEntry.isNone) (paths : lc.path = rc.path) :
    (∃ c, resolveToLocal lc rc = some c ∧ c.newEntry = rc.newEntry ∧ c.oldEntry = lc.newEntry ∧
      c.path = lc.path) ∧
      ∃ c, resolveToRemote lc rc = some c ∧ c.newEntry = lc.newEntry ∧
        c.oldEntry = rc.newEntry ∧ c.path = lc.path := by
  cases lc <;> cases rc <;> first
    | exact ⟨⟨_, rfl, rfl, rfl, paths.symm⟩, ⟨_, rfl, rfl, rfl, rfl⟩⟩
    | exact ⟨⟨_, rfl, rfl, rfl, rfl⟩, ⟨_, rfl, rfl, rfl, rfl⟩⟩
    | exact ⟨⟨_, rfl, rfl, rfl, paths.symm⟩, ⟨_, rfl, rfl, rfl, paths.symm⟩⟩
    | exact absurd rfl (present.resolve_left (not_not.mpr rfl))
    | cases saved

/-- Two changes of one saved path that are not the same can be resolved both ways. -/
theorem resolve_of_not_sameStrong {lc rc : Change} (differ : sameStrong lc rc = false)
    (saved : lc.oldEntry.isNone = rc.oldEntry.isNone) (paths : lc.path = rc.path) :
    (∃ c, resolveToLocal lc rc = some c ∧ c.newEntry = rc.newEntry ∧ c.path = lc.path) ∧
      ∃ c, resolveToRemote lc rc = some c ∧ c.newEntry = lc.newEntry ∧ c.path = lc.path := by
  have present : lc.newEntry ≠ none ∨ rc.newEntry ≠ none := by
    by_contra both
    cases lc <;> cases rc <;> first
      | (cases differ; done)
      | exact both (.inl (Option.some_ne_none _))
      | exact both (.inr (Option.some_ne_none _))
  obtain ⟨⟨cl, toLocal, leftEntry, -, leftPath⟩, ⟨cr, toRemote, rightEntry, -, rightPath⟩⟩ :=
    resolve_of_present present saved paths
  exact ⟨⟨cl, toLocal, leftEntry, leftPath⟩, ⟨cr, toRemote, rightEntry, rightPath⟩⟩

/-- What an action of a plan is at its path: it either settles the path, or is a
conflict that can be resolved both ways. -/
structure IsPlanned (l r : Option DirEntryWithMeta) (a : Action) : Prop where
  paths : a.flip.path = a.path
  settles : a.isUnresolvedConflict = false → Settles l r a
  resolvable : ∀ lc rc, a = .conflict lc rc →
    (∃ c, resolveToLocal lc rc = some c ∧ c.newEntry = r ∧ c.path = a.path) ∧
      ∃ c, resolveToRemote lc rc = some c ∧ c.newEntry = l ∧ c.path = a.path

/-- Every action of a strong plan is planned for the current entries of its path. -/
theorem isPlanned_of_createStrong {savedL savedR l r : Option DirEntryWithMeta}
    {lc rc : Option Change} {p : Path} {a : Action}
    (hl : changeOf (savedL, l) = lc) (hr : changeOf (savedR, r) = rc)
    (paths : ∀ c, lc = some c ∨ rc = some c → c.path = p)
    (saved : savedL.isNone = savedR.isNone)
    (sizes : ∀ x ∈ l, ∀ y ∈ r, x.isFile = true → y.isFile = true → x.digest = y.digest →
      x.size = y.size)
    (created : Action.createStrong lc rc = some a) : IsPlanned l r a := by
  cases lc with
  | none =>
    cases rc with
    | none => cases created
    | some rc =>
      cases created
      exact ⟨rfl, fun _ => newEntry_of_changeOf hr, by rintro _ _ ⟨⟩⟩
  | some lc =>
    cases rc with
    | none =>
      cases created
      exact ⟨rfl, fun _ => newEntry_of_changeOf hl, by rintro _ _ ⟨⟩⟩
    | some rc =>
      have leftEntry := newEntry_of_changeOf hl
      have rightEntry := newEntry_of_changeOf hr
      have samePath : lc.path = rc.path :=
        (paths lc (.inl rfl)).trans (paths rc (.inr rfl)).symm
      simp only [Action.createStrong] at created
      split at created <;> cases created
      · next same =>
        refine ⟨samePath.symm, fun _ => ⟨leftEntry, rightEntry, ?_⟩, by rintro _ _ ⟨⟩⟩
        rw [← leftEntry, ← rightEntry] at sizes ⊢
        exact optionsAgree_of_sameStrong same sizes
      · next differ =>
        refine ⟨samePath.symm, by rintro ⟨⟩, ?_⟩
        rintro lc' rc' ⟨⟩
        rw [← leftEntry, ← rightEntry]
        refine resolve_of_not_sameStrong (by simpa using differ) ?_ samePath
        rw [oldEntry_of_changeOf hl, oldEntry_of_changeOf hr, saved]

/-- Resolving a planned action never panics, and plans it again. -/
theorem IsPlanned.resolve {l r : Option DirEntryWithMeta} {a : Action} (h : IsPlanned l r a)
    (resolution : Resolution) (conflict : a.isUnresolvedConflict = true) :
    ∃ a', resolveAction a resolution = some a' ∧ a'.path = a.path ∧ IsPlanned l r a' := by
  cases a with
  | conflict lc rc =>
    obtain ⟨⟨cl, toLocal, leftEntry, leftPath⟩, ⟨cr, toRemote, rightEntry, rightPath⟩⟩ :=
      h.resolvable lc rc rfl
    cases resolution with
    | «local» =>
      exact ⟨.resolvedLocal (lc, rc) cl, by simp [resolveAction, toLocal], leftPath,
        rfl, fun _ => leftEntry, by rintro _ _ ⟨⟩⟩
    | remote =>
      exact ⟨.resolvedRemote (lc, rc) cr, by simp [resolveAction, toRemote], rightPath,
        rfl, fun _ => rightEntry, by rintro _ _ ⟨⟩⟩
  | _ => cases conflict

/-! ## The plan at one path -/

/-- The strong plan of one synchronization. -/
def strongPlan (savedL savedR currentL currentR : Entries) : Actions :=
  buildActions (changes savedL currentL) (changes savedR currentR) true

section Plan

variable {savedL savedR currentL currentR : Entries} {p : Path}

theorem ThreeWay.sorted_strongPlan (h : ThreeWay savedL savedR currentL currentR) :
    SortedBy Action.path (strongPlan savedL savedR currentL currentR) :=
  sortedBy_buildActions (sortedBy_changes h.sortedSavedL h.sortedCurrentL)
    (sortedBy_changes h.sortedSavedR h.sortedCurrentR)

/-- The plan at one path is made of the changes there. -/
theorem ThreeWay.lookup_strongPlan (h : ThreeWay savedL savedR currentL currentR) :
    lookup Action.path p (strongPlan savedL savedR currentL currentR) =
      Action.createStrong (lookup Change.path p (changes savedL currentL))
        (lookup Change.path p (changes savedR currentR)) :=
  lookup_buildActions (sortedBy_changes h.sortedSavedL h.sortedCurrentL)
    (sortedBy_changes h.sortedSavedR h.sortedCurrentR)

theorem ThreeWay.isPlanned (h : ThreeWay savedL savedR currentL currentR) {a : Action}
    (mem : a ∈ strongPlan savedL savedR currentL currentR) :
    IsPlanned (entryAt a.path currentL) (entryAt a.path currentR) a := by
  have found := h.sorted_strongPlan.lookup_of_mem mem
  rw [h.lookup_strongPlan] at found
  refine isPlanned_of_createStrong (p := a.path)
    (lookup_changes h.sortedSavedL h.sortedCurrentL).symm
    (lookup_changes h.sortedSavedR h.sortedCurrentR).symm ?_ ?_ ?_ found
  · rintro c (left | right)
    · exact key_of_lookup left
    · exact key_of_lookup right
  · exact (h.agree a.path).isNone_eq
  · intro x xMem y yMem
    exact h.sizes x (mem_of_lookup xMem) y (mem_of_lookup yMem)

/-- A path is planned exactly when one of the sides changed it. -/
theorem ThreeWay.planned_iff_changed (h : ThreeWay savedL savedR currentL currentR) :
    (lookup Action.path p (strongPlan savedL savedR currentL currentR)).isSome ↔
      ∃ c ∈ changes savedL currentL ++ changes savedR currentR, c.path = p := by
  rw [← lookup_isSome_iff, lookup_append, h.lookup_strongPlan]
  cases lookup Change.path p (changes savedL currentL) <;>
    cases lookup Change.path p (changes savedR currentR) <;>
    simp [Action.createStrong, apply_ite]

end Plan

/-! ## Resolving -/

/-- What resolving does to one action when nothing panics. -/
def resolvedAction (choice : Path → Option Resolution) (action : Action) : Action :=
  (resolveChosen choice action).getD action

/-- A planned action can be resolved, stays at its path and is planned again. -/
theorem IsPlanned.resolved {l r : Option DirEntryWithMeta} {a : Action}
    (h : IsPlanned l r a) (choice : Path → Option Resolution) :
    resolveChosen choice a = some (resolvedAction choice a) ∧
      (resolvedAction choice a).path = a.path ∧ IsPlanned l r (resolvedAction choice a) := by
  cases a with
  | conflict lc rc =>
    unfold resolvedAction resolveChosen
    cases choice (Action.conflict lc rc).path with
    | none => exact ⟨rfl, rfl, h⟩
    | some resolution =>
      obtain ⟨a', resolves, path, planned⟩ := h.resolve resolution rfl
      simp only [resolves, Option.getD_some]
      exact ⟨trivial, path, planned⟩
  | _ => exact ⟨rfl, rfl, h⟩

/-- Resolving a plan resolves its actions one by one. -/
theorem resolveConflicts_eq_map {choice : Path → Option Resolution} {actions : Actions}
    (resolves : ∀ a ∈ actions, resolveChosen choice a = some (resolvedAction choice a)) :
    resolveConflicts choice actions = some (actions.map (resolvedAction choice)) := by
  unfold resolveConflicts
  induction actions with
  | nil => rfl
  | cons a actions ih =>
    have here := resolves a List.mem_cons_self
    have rest := ih fun b mem => resolves b (List.mem_cons_of_mem a mem)
    rw [List.mapM_cons, rest, here]
    rfl

/-- Resolving conflicts of planned actions never panics. -/
theorem resolveConflicts_eq {l r : Path → Option DirEntryWithMeta} {actions : Actions}
    (planned : ∀ a ∈ actions, IsPlanned (l a.path) (r a.path) a)
    (choice : Path → Option Resolution) :
    resolveConflicts choice actions = some (actions.map (resolvedAction choice)) :=
  resolveConflicts_eq_map fun a mem => ((planned a mem).resolved choice).1

/-! ## Holding back -/

section HeldBack

variable {actions : Actions} {p : Path}

/-- An action that is carried out: settled, and not waiting for an unresolved conflict. -/
def isActive (actions : Actions) (a : Action) : Bool :=
  !a.isUnresolvedConflict && !dependsOnUnresolved (unresolvedPaths actions) a

theorem lookup_active (sorted : SortedBy Action.path actions) :
    lookup Action.path p (filterUnresolvedConflictDependencies actions).1 =
      (lookup Action.path p actions).filter (isActive actions) := by
  unfold filterUnresolvedConflictDependencies
  rw [(sorted.sublist List.filter_sublist).lookup_filter, sorted.lookup_filter,
    Option.filter_filter]
  congr 1

/-- In a sorted plan the paths held back are those of the actions that are not active. -/
theorem mem_heldBack_iff (sorted : SortedBy Action.path actions) {a : Action}
    (mem : a ∈ actions) : a.path ∈ heldBack actions ↔ isActive actions a = false := by
  have same : ∀ {b : Action}, b ∈ actions → b.path = a.path → b = a := by
    intro b bMem path
    have foundA := sorted.lookup_of_mem mem
    rw [← path, sorted.lookup_of_mem bMem] at foundA
    exact Option.some_inj.mp foundA
  simp only [heldBack, unresolvedPaths, filterUnresolvedConflictDependencies, List.mem_append,
    List.mem_map, List.mem_filter, isActive, Bool.and_eq_false_iff, Bool.not_eq_false']
  constructor
  · rintro (⟨b, ⟨bMem, conflict⟩, path⟩ | ⟨b, ⟨⟨bMem, -⟩, depends⟩, path⟩)
    · cases same bMem path
      exact .inl conflict
    · cases same bMem path
      exact .inr depends
  · intro waits
    by_cases conflict : a.isUnresolvedConflict = true
    · exact .inl ⟨a, ⟨mem, conflict⟩, rfl⟩
    · refine .inr ⟨a, ⟨⟨mem, by simpa using conflict⟩, ?_⟩, rfl⟩
      exact waits.resolve_left conflict

end HeldBack

/-! ## Carrying out, at one path -/

section CarryOut

variable {saved current : Entries} {ino : Path → UInt64} {P : Actions} {p : Path}

theorem path_of_appliedChange {a : Action} {c : Change} (h : a.appliedChange = some c) :
    c.path = a.path := by
  cases a <;> cases h <;> rfl

theorem carryOut_path {current : Option DirEntryWithMeta} {a : Action} {e : DirEntryWithMeta}
    (here : ∀ c ∈ current, c.path = a.path) (out : carryOut ino a current = some e) :
    e.path = a.path := by
  unfold carryOut at out
  split at out
  · next change applied =>
    rw [← path_of_appliedChange applied]
    obtain ⟨new, isNew, rfl⟩ := Option.map_eq_some_iff.mp out
    rw [DirEntryWithMeta.setIno_path]
    exact Change.path_of_newEntry isNew
  · exact here e out

theorem carryOut_keeps : KeepsKey DirEntryWithMeta.path Action.path (carryOut ino) P :=
  fun _ _ _ _ here out => carryOut_path here out

theorem sorted_appliedTree (sorted : SortedEntries current) (sortedP : SortedBy Action.path P) :
    SortedEntries (appliedTree ino current P) :=
  sorted.mergeUpdates sortedP carryOut_keeps

theorem entryAt_appliedTree (sorted : SortedEntries current)
    (sortedP : SortedBy Action.path P) :
    entryAt p (appliedTree ino current P) =
      (lookup Action.path p P).elim (entryAt p current) fun a =>
        carryOut ino a (entryAt p current) :=
  lookup_mergeUpdates sorted sortedP carryOut_keeps

/-- Merging an action into the manifest records what it leaves on disk. -/
theorem mergeAction_of_records {a : Action} {l old : Option DirEntryWithMeta} {index : Nat}
    (records : Records l a) :
    mergeAction ((a, (a.appliedChange.bind Change.newEntry).map (·.setIno (ino a.path))), index)
      old = .ok (carryOut ino a l) := by
  cases a with
  | «local» c => cases c <;> rfl
  | resolvedLocal pair c => cases c <;> rfl
  | remote c => exact congrArg Except.ok records
  | resolvedRemote pair c => exact congrArg Except.ok records
  | identical lc rc => exact congrArg Except.ok records
  | conflict lc rc => cases records

/-- What the two sides have on disk after an action was carried out agrees. -/
theorem Settles.carryOut_agree {a : Action} {l r : Option DirEntryWithMeta}
    {inoL inoR : Path → UInt64} (settles : Settles l r a) :
    OptionsAgree (carryOut inoL a l) (carryOut inoR a.flip r) := by
  cases a with
  | «local» c | resolvedLocal pair c =>
    cases settles
    exact OptionsAgree.setIno _ _
  | remote c | resolvedRemote pair c =>
    cases settles
    exact (OptionsAgree.setIno _ _).symm
  | identical lc rc => exact settles.2.2
  | conflict lc rc => cases settles

/-- The manifest after a commit: at every path of the plan it records what is now on
disk, and elsewhere what it recorded before. -/
theorem mergeStagedManifest_spec (current : Entries) (ino : Path → UInt64)
    (sortedSaved : SortedEntries saved) (sortedP : SortedBy Action.path P)
    (records : ∀ a ∈ P, Records (entryAt a.path current) a) :
    ∃ merged, mergeStagedManifest saved P (localResults ino P) = .ok merged ∧
      SortedEntries merged ∧ ∀ p, entryAt p merged =
        (lookup Action.path p P).elim (entryAt p saved) fun a =>
          carryOut ino a (entryAt p current) := by
  have lengths : (localResults ino P).length = P.length := by simp [localResults]
  let record := fun (slot : (Action × Option DirEntryWithMeta) × Nat)
    (_ : Option DirEntryWithMeta) => carryOut ino slot.1.1 (entryAt slot.1.1.path current)
  have keeps : KeepsKey DirEntryWithMeta.path (fun slot => slot.1.1.path) record
      (mergeSlots P (localResults ino P)) :=
    fun _ _ _ _ _ out => carryOut_path (fun c found => key_of_lookup found) out
  have succeeds : ∀ slot ∈ mergeSlots P (localResults ino P), ∀ old,
      mergeAction slot old = .ok (record slot old) := by
    rintro ⟨pair, index⟩ mem old
    have pairMem := List.fst_mem_of_mem_zipIdx mem
    rw [zip_localResults] at pairMem
    obtain ⟨a, aMem, rfl⟩ := List.mem_map.mp pairMem
    exact mergeAction_of_records (records a aMem)
  obtain ⟨merged, isMerged, sorted, entries⟩ :=
    mergeStagedManifest_of_records sortedSaved sortedP lengths succeeds keeps
  refine ⟨merged, isMerged, sorted, fun p => ?_⟩
  rw [entries, ← lookup_mergeSlots lengths]
  cases found : lookup (fun slot => slot.1.1.path) p (mergeSlots P (localResults ino P)) with
  | none => rfl
  | some slot =>
    have keyed := key_of_lookup found
    have here : slot.1.1.path = p := keyed
    simp only [Option.elim, Option.map_some, record, here]

end CarryOut

/-! ## The two sides of one plan -/

section Sides

variable {savedL savedR currentL currentR : Entries} {p : Path}
  {choice : Path → Option Resolution}

/-- The plan after the choices were made. -/
def resolvedPlan (savedL savedR currentL currentR : Entries)
    (choice : Path → Option Resolution) : Actions :=
  (strongPlan savedL savedR currentL currentR).map (resolvedAction choice)

/-- The actions that are carried out. -/
def activePlan (savedL savedR currentL currentR : Entries)
    (choice : Path → Option Resolution) : Actions :=
  (filterUnresolvedConflictDependencies
    (resolvedPlan savedL savedR currentL currentR choice)).1

theorem ThreeWay.resolveConflicts_eq (h : ThreeWay savedL savedR currentL currentR) :
    resolveConflicts choice (strongPlan savedL savedR currentL currentR) =
      some (resolvedPlan savedL savedR currentL currentR choice) :=
  Duet.resolveConflicts_eq (l := fun p => entryAt p currentL) (r := fun p => entryAt p currentR)
    (fun _ mem => h.isPlanned mem) choice

theorem ThreeWay.resolved_keyed (h : ThreeWay savedL savedR currentL currentR) :
    ∀ a ∈ strongPlan savedL savedR currentL currentR,
      (resolvedAction choice a).path = a.path :=
  fun _ mem => ((h.isPlanned mem).resolved choice).2.1

theorem ThreeWay.sorted_resolvedPlan (h : ThreeWay savedL savedR currentL currentR) :
    SortedBy Action.path (resolvedPlan savedL savedR currentL currentR choice) :=
  h.sorted_strongPlan.map h.resolved_keyed

theorem ThreeWay.isPlanned_of_mem_resolved (h : ThreeWay savedL savedR currentL currentR)
    {a : Action} (mem : a ∈ resolvedPlan savedL savedR currentL currentR choice) :
    IsPlanned (entryAt a.path currentL) (entryAt a.path currentR) a := by
  obtain ⟨b, bMem, rfl⟩ := List.mem_map.mp mem
  obtain ⟨-, path, planned⟩ := (h.isPlanned bMem).resolved choice
  rwa [path]

theorem ThreeWay.sorted_activePlan (h : ThreeWay savedL savedR currentL currentR) :
    SortedBy Action.path (activePlan savedL savedR currentL currentR choice) :=
  h.sorted_resolvedPlan.sublist (filterUnresolved_sublist _)

/-- Every action that is carried out settles its path. -/
theorem ThreeWay.settles_of_active (h : ThreeWay savedL savedR currentL currentR)
    {a : Action} (mem : a ∈ activePlan savedL savedR currentL currentR choice) :
    a.flip.path = a.path ∧ Settles (entryAt a.path currentL) (entryAt a.path currentR) a := by
  have planned := h.isPlanned_of_mem_resolved ((filterUnresolved_sublist _).subset mem)
  exact ⟨planned.paths, planned.settles (not_unresolved_of_active mem)⟩

/-- The reversed plan has the same paths. -/
theorem ThreeWay.flip_keyed (h : ThreeWay savedL savedR currentL currentR) :
    ∀ a ∈ activePlan savedL savedR currentL currentR choice, a.flip.path = a.path :=
  fun _ mem => (h.settles_of_active mem).1

theorem ThreeWay.sorted_reverse (h : ThreeWay savedL savedR currentL currentR) :
    SortedBy Action.path (reverse (activePlan savedL savedR currentL currentR choice)) :=
  h.sorted_activePlan.map h.flip_keyed

theorem ThreeWay.lookup_reverse (h : ThreeWay savedL savedR currentL currentR) :
    lookup Action.path p (reverse (activePlan savedL savedR currentL currentR choice)) =
      (lookup Action.path p (activePlan savedL savedR currentL currentR choice)).map
        Action.flip :=
  h.sorted_activePlan.lookup_map h.flip_keyed

/-- A planned path is held back exactly when its action is not carried out. -/
theorem ThreeWay.lookup_active_eq_none_iff (h : ThreeWay savedL savedR currentL currentR)
    (planned : (lookup Action.path p (strongPlan savedL savedR currentL currentR)).isSome) :
    lookup Action.path p (activePlan savedL savedR currentL currentR choice) = none ↔
      p ∈ heldBack (resolvedPlan savedL savedR currentL currentR choice) := by
  obtain ⟨a, found⟩ := Option.isSome_iff_exists.mp planned
  have resolvedAt : lookup Action.path p
      (resolvedPlan savedL savedR currentL currentR choice) = some (resolvedAction choice a) := by
    rw [resolvedPlan, h.sorted_strongPlan.lookup_map h.resolved_keyed, found]
    rfl
  rw [activePlan, lookup_active h.sorted_resolvedPlan, resolvedAt, ← key_of_lookup resolvedAt,
    mem_heldBack_iff h.sorted_resolvedPlan (mem_of_lookup resolvedAt)]
  simp [Option.filter]

/-- A rescan after the plan was carried out finds the changes that were held back. -/
theorem changes_afterwards {saved current merged : Entries} {P : Actions} {held : List Path}
    {ino : Path → UInt64} (sortedSaved : SortedEntries saved)
    (sortedCurrent : SortedEntries current) (sortedMerged : SortedEntries merged)
    (sortedP : SortedBy Action.path P)
    (merges : ∀ p, entryAt p merged = (lookup Action.path p P).elim (entryAt p saved) fun a =>
      carryOut ino a (entryAt p current))
    (isHeld : ∀ c ∈ changes saved current, lookup Action.path c.path P = none ↔ c.path ∈ held) :
    changes merged (appliedTree ino current P) =
      (changes saved current).filter fun c => c.path ∈ held := by
  have sortedTree : SortedEntries (appliedTree ino current P) :=
    sorted_appliedTree sortedCurrent sortedP
  have sortedChanges := sortedBy_changes sortedSaved sortedCurrent
  refine (sortedBy_changes sortedMerged sortedTree).ext
    (sortedChanges.sublist List.filter_sublist) ?_
  intro p
  rw [lookup_changes sortedMerged sortedTree, sortedChanges.lookup_filter, merges,
    entryAt_appliedTree sortedCurrent sortedP]
  have heldAt : ∀ c, lookup Change.path p (changes saved current) = some c →
      (lookup Action.path p P = none ↔ c.path ∈ held) := by
    intro c found
    rw [← isHeld c (mem_of_lookup found), key_of_lookup found]
  cases action : lookup Action.path p P with
  | some a =>
    rw [Option.elim_some, Option.elim_some, changeOf_self]
    cases found : lookup Change.path p (changes saved current) with
    | none => rfl
    | some c =>
      have notHeld : c.path ∉ held := by
        rw [← heldAt c found, action]
        exact Option.some_ne_none a
      simp [Option.filter, notHeld]
  | none =>
    rw [Option.elim_none, Option.elim_none, ← lookup_changes sortedSaved sortedCurrent]
    cases found : lookup Change.path p (changes saved current) with
    | none => rfl
    | some c => simp [Option.filter, (heldAt c found).mp action]

/-- The manifests and the trees of the two sides after the plan was carried out. -/
structure Merges (savedL savedR currentL currentR : Entries)
    (choice : Path → Option Resolution) (inoL inoR : Path → UInt64)
    (mergedL mergedR : Entries) : Prop where
  mergeL : mergeStagedManifest savedL (activePlan savedL savedR currentL currentR choice)
    (localResults inoL (activePlan savedL savedR currentL currentR choice)) = .ok mergedL
  mergeR : mergeStagedManifest savedR
    (reverse (activePlan savedL savedR currentL currentR choice))
    (localResults inoR (reverse (activePlan savedL savedR currentL currentR choice))) =
      .ok mergedR
  sortedL : SortedEntries mergedL
  sortedR : SortedEntries mergedR
  entryL : ∀ p, entryAt p mergedL =
    (lookup Action.path p (activePlan savedL savedR currentL currentR choice)).elim
      (entryAt p savedL) fun a => carryOut inoL a (entryAt p currentL)
  entryR : ∀ p, entryAt p mergedR =
    (lookup Action.path p (activePlan savedL savedR currentL currentR choice)).elim
      (entryAt p savedR) fun a => carryOut inoR a.flip (entryAt p currentR)

theorem ThreeWay.merges (h : ThreeWay savedL savedR currentL currentR)
    (choice : Path → Option Resolution) (inoL inoR : Path → UInt64) : ∃ mergedL mergedR,
      Merges savedL savedR currentL currentR choice inoL inoR mergedL mergedR := by
  have sortedP : SortedBy Action.path (activePlan savedL savedR currentL currentR choice) :=
    h.sorted_activePlan
  obtain ⟨mergedL, mergeL, sortedL, entryL⟩ :=
    mergeStagedManifest_spec currentL inoL h.sortedSavedL sortedP
      fun a mem => (h.settles_of_active mem).2.records
  have settlesR : ∀ a ∈ reverse (activePlan savedL savedR currentL currentR choice),
      Settles (entryAt a.path currentR) (entryAt a.path currentL) a := by
    intro a mem
    obtain ⟨b, bMem, rfl⟩ := List.mem_map.mp mem
    rw [h.flip_keyed b bMem]
    exact (h.settles_of_active bMem).2.flip
  obtain ⟨mergedR, mergeR, sortedR, entryR⟩ :=
    mergeStagedManifest_spec currentR inoR h.sortedSavedR h.sorted_reverse
      fun a mem => (settlesR a mem).records
  refine ⟨mergedL, mergedR, mergeL, mergeR, sortedL, sortedR, entryL, ?_⟩
  intro p
  rw [entryR, h.lookup_reverse]
  cases lookup Action.path p (activePlan savedL savedR currentL currentR choice) <;> rfl

/-- After the plan was carried out the two manifests agree. -/
theorem Merges.agree {inoL inoR : Path → UInt64} {mergedL mergedR : Entries}
    (m : Merges savedL savedR currentL currentR choice inoL inoR mergedL mergedR)
    (h : ThreeWay savedL savedR currentL currentR) : ManifestsAgree mergedL mergedR := by
  intro p
  rw [m.entryL, m.entryR]
  cases found : lookup Action.path p (activePlan savedL savedR currentL currentR choice) with
  | none => exact h.agree p
  | some a =>
    have settles := (h.settles_of_active (mem_of_lookup found)).2
    rw [key_of_lookup found] at settles
    simp only [Option.elim_some]
    exact settles.carryOut_agree

/-- The next plan consists of the actions of this one that were held back. -/
theorem ThreeWay.strongPlan_filter (h : ThreeWay savedL savedR currentL currentR)
    (held : List Path) :
    buildActions ((changes savedL currentL).filter fun c => c.path ∈ held)
        ((changes savedR currentR).filter fun c => c.path ∈ held) true =
      (strongPlan savedL savedR currentL currentR).filter fun a => a.path ∈ held := by
  have sortedL := sortedBy_changes h.sortedSavedL h.sortedCurrentL
  have sortedR := sortedBy_changes h.sortedSavedR h.sortedCurrentR
  have sortedHeldL := sortedL.sublist (List.filter_sublist (p := fun c => c.path ∈ held))
  have sortedHeldR := sortedR.sublist (List.filter_sublist (p := fun c => c.path ∈ held))
  refine (sortedBy_buildActions sortedHeldL sortedHeldR).ext
    (h.sorted_strongPlan.sublist List.filter_sublist) ?_
  intro p
  have byPath : ∀ {α : Type} (path : α → Path) (l : List α),
      (lookup path p l).filter (fun a => path a ∈ held) =
        if p ∈ held then lookup path p l else none := by
    intro α path l
    cases found : lookup path p l with
    | none => simp
    | some a => simp [Option.filter, key_of_lookup found]
  rw [lookup_buildActions sortedHeldL sortedHeldR, sortedL.lookup_filter, sortedR.lookup_filter,
    h.sorted_strongPlan.lookup_filter, byPath, byPath, byPath, h.lookup_strongPlan]
  split <;> rfl

/-- The trees agree at every path that was carried out. -/
theorem ThreeWay.appliedTree_agree (h : ThreeWay savedL savedR currentL currentR)
    {inoL inoR : Path → UInt64} {a : Action}
    (mem : a ∈ activePlan savedL savedR currentL currentR choice) :
    OptionsAgree
      (entryAt a.path (appliedTree inoL currentL
        (activePlan savedL savedR currentL currentR choice)))
      (entryAt a.path (appliedTree inoR currentR
        (reverse (activePlan savedL savedR currentL currentR choice)))) := by
  rw [entryAt_appliedTree h.sortedCurrentL h.sorted_activePlan,
    entryAt_appliedTree h.sortedCurrentR h.sorted_reverse, h.lookup_reverse,
    h.sorted_activePlan.lookup_of_mem mem]
  exact (h.settles_of_active mem).2.carryOut_agree

/-- The changes of a side that the plan knows of are carried out or held back. -/
theorem ThreeWay.held_iff (h : ThreeWay savedL savedR currentL currentR) {c : Change}
    (changed : c ∈ changes savedL currentL ++ changes savedR currentR) :
    lookup Action.path c.path (activePlan savedL savedR currentL currentR choice) = none ↔
      c.path ∈ heldBack (resolvedPlan savedL savedR currentL currentR choice) :=
  h.lookup_active_eq_none_iff (h.planned_iff_changed.mpr ⟨c, changed, rfl⟩)

end Sides

/-- The strong three-way merge converges. The plan is sorted and has exactly one action
for each changed path. However conflicts are resolved, resolving does not panic, both
sides merge the actions that are carried out into new manifests that agree again, and
a rescan of the resulting trees against them finds on each side exactly the changes
that were held back, so that the next plan is what is left of this one. -/
theorem threeWayMerge_converges {savedL savedR currentL currentR : Entries}
    (h : ThreeWay savedL savedR currentL currentR) :
    let changesL := changes savedL currentL
    let changesR := changes savedR currentR
    let plan := buildActions changesL changesR true
    SortedBy Action.path plan ∧
      (∀ c ∈ changesL ++ changesR, ∃! a, a ∈ plan ∧ a.path = c.path) ∧
      (∀ a ∈ plan, ∃ c ∈ changesL ++ changesR, c.path = a.path) ∧
      ∀ choice : Path → Option Resolution, ∃ resolved,
        resolveConflicts choice plan = some resolved ∧
        ∀ inoL inoR : Path → UInt64,
          let P := (filterUnresolvedConflictDependencies resolved).1
          let treeL := appliedTree inoL currentL P
          let treeR := appliedTree inoR currentR (reverse P)
          ∃ newL newR,
            mergeStagedManifest savedL P (localResults inoL P) = .ok newL ∧
            mergeStagedManifest savedR (reverse P) (localResults inoR (reverse P)) = .ok newR ∧
            SortedEntries newL ∧ SortedEntries newR ∧ ManifestsAgree newL newR ∧
            (∀ a ∈ P, OptionsAgree (entryAt a.path treeL) (entryAt a.path treeR)) ∧
            changes newL treeL = changesL.filter (fun c => c.path ∈ heldBack resolved) ∧
            changes newR treeR = changesR.filter (fun c => c.path ∈ heldBack resolved) ∧
            buildActions (changes newL treeL) (changes newR treeR) true =
              plan.filter fun a => a.path ∈ heldBack resolved := by
  intro changesL changesR plan
  refine ⟨h.sorted_strongPlan, ?_, ?_, ?_⟩
  · intro c changed
    obtain ⟨a, found⟩ := Option.isSome_iff_exists.mp (h.planned_iff_changed.mpr ⟨c, changed, rfl⟩)
    refine ⟨a, ⟨mem_of_lookup found, key_of_lookup found⟩, ?_⟩
    rintro b ⟨mem, path⟩
    have foundB := h.sorted_strongPlan.lookup_of_mem mem
    rw [path, found] at foundB
    exact (Option.some_inj.mp foundB).symm
  · intro a mem
    refine h.planned_iff_changed.mp ?_
    exact Option.isSome_iff_exists.mpr ⟨a, h.sorted_strongPlan.lookup_of_mem mem⟩
  · intro choice
    refine ⟨_, h.resolveConflicts_eq, ?_⟩
    intro inoL inoR P treeL treeR
    obtain ⟨newL, newR, m⟩ := h.merges choice inoL inoR
    have afterL : changes newL treeL = _ :=
      changes_afterwards h.sortedSavedL h.sortedCurrentL m.sortedL h.sorted_activePlan m.entryL
        fun c changed => h.held_iff (List.mem_append_left _ changed)
    have reverseAt : ∀ p, lookup Action.path p (reverse P) =
        (lookup Action.path p (activePlan savedL savedR currentL currentR choice)).map
          Action.flip := fun p => h.lookup_reverse
    have afterR : changes newR treeR = changesR.filter fun c =>
        c.path ∈ heldBack (resolvedPlan savedL savedR currentL currentR choice) := by
      refine changes_afterwards h.sortedSavedR h.sortedCurrentR m.sortedR h.sorted_reverse ?_ ?_
      · intro p
        rw [m.entryR, reverseAt]
        cases lookup Action.path p (activePlan savedL savedR currentL currentR choice) <;> rfl
      · intro c changed
        rw [reverseAt, Option.map_eq_none_iff]
        exact h.held_iff (List.mem_append_right _ changed)
    refine ⟨newL, newR, m.mergeL, m.mergeR, m.sortedL, m.sortedR, m.agree h,
      fun a mem => h.appliedTree_agree mem, afterL, afterR, ?_⟩
    rw [afterL, afterR]
    exact h.strongPlan_filter _

/-- A file that both sides added with different contents, next to one that only the
local side added. -/
theorem threeWayMerge_converges_conflict :
    let file := fun (name content : UInt8) (ino : UInt64) => DirEntryWithMeta.mk
      [.normal [name]] 1 0 ino 0o100644 none false 0 (some ⟨Vector.replicate 32 content⟩)
    let currentL := [file 97 1 10, file 98 1 11]
    let currentR := [file 97 2 20]
    let plan := buildActions (changes [] currentL) (changes [] currentR) true
    ThreeWay [] [] currentL currentR ∧ plan.length = 2 ∧
      ∃ resolved, resolveConflicts (fun _ => none) plan = some resolved ∧
        ∃ newL newR, ManifestsAgree newL newR ∧
          changes newL currentL = [.added (file 97 1 10)] ∧
          changes newR (appliedTree (fun _ => 21) currentR
            (reverse (filterUnresolvedConflictDependencies resolved).1)) =
              [.added (file 97 2 20)] := by
  intro file currentL currentR plan
  have h : ThreeWay [] [] currentL currentR := by
    refine ⟨.nil, .nil, by decide, by decide, fun p => .none, ?_, ?_, ?_⟩ <;>
      simp [CarriesDigests, DigestsDetermineSize, currentL, currentR, file]
  refine ⟨h, by decide, ?_⟩
  obtain ⟨resolved, resolves, carriesOut⟩ := (threeWayMerge_converges h).2.2.2 fun _ => none
  have isPlan : resolved = plan := by
    have : resolveConflicts (fun _ => none) plan = some plan := by decide
    exact Option.some_inj.mp (resolves.symm.trans this)
  obtain ⟨newL, newR, -, -, -, -, agree, -, afterL, afterR, -⟩ :=
    carriesOut (fun _ => 0) (fun _ => 21)
  subst isPlan
  refine ⟨plan, resolves, newL, newR, agree, ?_, ?_⟩
  · exact afterL
  · exact afterR

end Duet
