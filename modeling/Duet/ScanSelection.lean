import Duet.Lib.Fallible
import Duet.Lib.Steps
import Duet.Scan.RuleRange
import Duet.Scan.Tree
import Duet.State.Scanned
import Mathlib.Algebra.Order.Ring.Nat
import Mathlib.Data.Nat.SuccPred

/-!
# A scan selects exactly the selection of the profile

What a job still owes are the selected entries below its directory. A directory pays
what its job owes: it sends its own selected children and leaves the rest to the jobs of
its subdirectories (`scanOneDirectory_spec`). So what was sent, what active jobs have
left to send and what the jobs of the queue owe is always the same list up to order,
whatever the schedule, and in the end it has been sent.
-/

namespace Duet

open Lib

/-! ## Trees -/

namespace DirectoryTree

variable {tree : DirectoryTree} {dir p : Path}

/-- The entries at or below a path that have a property. -/
noncomputable def atOrBelow (tree : DirectoryTree) (R : Node → Prop) (path : Path) : List Node :=
  open Classical in tree.nodes.filter fun n => R n ∧ path <+: n.path

/-- The entries strictly below a path that have a property. -/
noncomputable def below (tree : DirectoryTree) (R : Node → Prop) (path : Path) : List Node :=
  open Classical in tree.nodes.filter fun n => R n ∧ path <+: n.path ∧ path ≠ n.path

variable {R : Node → Prop}

theorem mem_atOrBelow {n : Node} :
    n ∈ tree.atOrBelow R p ↔ n ∈ tree.nodes ∧ R n ∧ p <+: n.path := by
  simp [atOrBelow]

theorem mem_below {n : Node} :
    n ∈ tree.below R p ↔ n ∈ tree.nodes ∧ R n ∧ p <+: n.path ∧ p ≠ n.path := by
  simp [below]

theorem nodup_atOrBelow (tree : DirectoryTree) (R : Node → Prop) (p : Path) :
    (tree.atOrBelow R p).Nodup :=
  tree.nodup_nodes.filter _

theorem nodup_below (tree : DirectoryTree) (R : Node → Prop) (p : Path) :
    (tree.below R p).Nodup :=
  tree.nodup_nodes.filter _

/-- What is strictly below a directory is what is at or below its children. -/
theorem below_perm_flatMap (tree : DirectoryTree) (R : Node → Prop) (dir : Path) :
    ((tree.readDir dir).flatMap fun child => tree.atOrBelow R child.path).Perm
      (tree.below R dir) := by
  refine (List.perm_ext_iff_of_nodup ?_ (tree.nodup_below R dir)).mpr ?_
  · refine List.nodup_flatMap.mpr ⟨fun child _ => tree.nodup_atOrBelow R child.path, ?_⟩
    refine (tree.nodup_nodes.filter _).pairwise_of_forall_ne ?_
    intro a aMem b bMem differ n nA nB
    obtain ⟨aNode, nameA, aPath⟩ := mem_readDir.mp aMem
    obtain ⟨bNode, nameB, bPath⟩ := mem_readDir.mp bMem
    have aAbove := (mem_atOrBelow.mp nA).2.2
    have bAbove := (mem_atOrBelow.mp nB).2.2
    have sameLength : a.path.length = b.path.length := by simp [aPath, bPath]
    have samePath : a.path = b.path :=
      (List.prefix_of_prefix_length_le aAbove bAbove sameLength.le).eq_of_length sameLength
    exact differ (eq_of_path aNode bNode samePath)
  · intro n
    rw [List.mem_flatMap, mem_below]
    constructor
    · rintro ⟨child, childMem, nMem⟩
      obtain ⟨mem, holds, isBelow⟩ := mem_atOrBelow.mp nMem
      obtain ⟨-, name, path⟩ := mem_readDir.mp childMem
      have dirAbove : dir <+: child.path := path ▸ List.prefix_append _ _
      refine ⟨mem, holds, dirAbove.trans isBelow, ?_⟩
      rintro rfl
      have := isBelow.length_le
      rw [path, List.length_append, List.length_singleton] at this
      omega
    · rintro ⟨mem, holds, isBelow, strict⟩
      obtain ⟨child, childMem, isAbove⟩ := exists_child mem isBelow strict
      exact ⟨child, childMem, mem_atOrBelow.mpr ⟨mem, holds, isAbove⟩⟩

/-- What is at or below an entry is the entry itself and what is strictly below it. -/
theorem atOrBelow_perm {n : Node} (mem : n ∈ tree.nodes) (self : List Node)
    (isSelf : self = [n] ∧ R n ∨ self = [] ∧ ¬ R n) :
    (self ++ tree.below R n.path).Perm (tree.atOrBelow R n.path) := by
  have notBelow : n ∉ tree.below R n.path := fun isBelow => (mem_below.mp isBelow).2.2.2 rfl
  refine (List.perm_ext_iff_of_nodup ?_ (tree.nodup_atOrBelow R n.path)).mpr ?_
  · rcases isSelf with ⟨rfl, -⟩ | ⟨rfl, -⟩
    · exact List.nodup_cons.mpr ⟨notBelow, tree.nodup_below R n.path⟩
    · exact tree.nodup_below R n.path
  · intro m
    rw [List.mem_append, mem_below, mem_atOrBelow]
    by_cases here : m = n
    · subst here
      rcases isSelf with ⟨rfl, holds⟩ | ⟨rfl, fails⟩
      · simp [mem, holds]
      · simp [fails]
    · have elsewhere : m ∈ tree.nodes → n.path ≠ m.path :=
        fun mMem same => here (eq_of_path mMem mem same.symm)
      rcases isSelf with ⟨rfl, -⟩ | ⟨rfl, -⟩ <;> simp [here] <;> tauto

end DirectoryTree

/-! ## What a job owes -/

/-- An entry is reported: it is under the restriction, no hard exclude and no ignored name
lies above it, and the rule that governs it includes it. -/
structure Reports (context : ScanContext) (p : Path) : Prop where
  restricted : context.scope.restrict <+: p
  notExcluded : ∀ exclude ∈ context.scope.excludes, ¬ exclude <+: p
  notIgnored : ∀ q name, q ++ [.normal name] <+: p → context.ignore name = false
  included : ∃ l, Governs context.locations (context.base ++ p) l ∧ l.isInclude = true

/-- The entries that are still owed for a directory. -/
noncomputable def owed (tree : DirectoryTree) (context : ScanContext) (dir : Path) :
    List DirEntryWithMeta :=
  (tree.below (fun n => Reports context n.path) dir).map Node.toEntry

/-- A job of a directory `dir` below the base, whose range covers the directory or the one
above it. -/
structure ValidJob (context : ScanContext) (job : ScanJob) (dir : Path) : Prop where
  path : job.path = context.base ++ dir
  notIgnored : ∀ q name, q ++ [.normal name] <+: dir → context.ignore name = false
  covers : ∃ outer, Covers context.locations outer job.pft ∧
    Adjacent context.locations outer job.path

/-- What a scan needs of the tree: one device, and nothing but directories, files and
symbolic links. -/
structure Scannable (tree : DirectoryTree) : Prop where
  oneDevice : ∀ n ∈ tree.nodes, n.metadata.dev = tree.dev
  noSpecial : ∀ n ∈ tree.nodes, n.isSpecial = false

theorem ScanScope.isExcluded_iff {scope : ScanScope} {p : Path} :
    scope.isExcluded p = true ↔ ∃ exclude ∈ scope.excludes, exclude <+: p := by
  simp [isExcluded, Path.startsWith_iff]

@[simp] theorem relative_append (base p : Path) : relative base (base ++ p) = p :=
  List.drop_left

theorem isMatch_append {ignore : Name → Bool} {base dir : Path} {name : Name} :
    isMatch ignore (base ++ (dir ++ [.normal name])) = ignore name := by
  unfold isMatch
  rw [← List.append_assoc, List.getLast?_concat]

section Child

variable {tree : DirectoryTree} {context : ScanContext} {pft : ParentFromTo} {dir : Path}
  {child : Node}

/-- What scanning one child of a directory yields. -/
structure ScansChild (tree : DirectoryTree) (context : ScanContext) (pft : ParentFromTo)
    (child : Node) (result : Option ScanJob × Option DirEntryWithMeta) : Prop where
  entry : result.2 = some child.toEntry ∧ Reports context child.path ∨
    result.2 = none ∧ ¬ Reports context child.path
  job : ∀ job ∈ result.1, job = ⟨context.base ++ child.path, pft⟩ ∧
    ∀ q name, q ++ [.normal name] <+: child.path → context.ignore name = false
  leaf : result.1 = none → ∀ n ∈ tree.nodes, Reports context n.path → child.path <+: n.path →
    child.path = n.path

/-- Nothing at or below the child is reported, and it is skipped. -/
theorem ScansChild.skip (nothing : ∀ n ∈ tree.nodes, child.path <+: n.path →
    ¬ Reports context n.path) (mem : child ∈ tree.nodes) :
    ScansChild tree context pft child (none, none) where
  entry := .inr ⟨rfl, nothing child mem List.prefix_rfl⟩
  job := by simp
  leaf _ n nMem reports isAbove := absurd reports (nothing n nMem isAbove)

/-- A child that is not ignored itself has no ignored name at or above it. -/
theorem notIgnored_child {name : Name} (path : child.path = dir ++ [.normal name])
    (above : ∀ q name, q ++ [.normal name] <+: dir → context.ignore name = false)
    (here : context.ignore name = false) :
    ∀ q name, q ++ [.normal name] <+: child.path → context.ignore name = false := by
  intro q name' isAbove
  rw [path] at isAbove
  rcases List.prefix_concat_iff.mp isAbove with whole | inside
  · obtain ⟨-, same⟩ := List.append_inj' whole rfl
    cases same
    exact here
  · exact above q name' inside

/-- Below an excluded child without includes further down nothing is reported. -/
theorem not_reports_of_pruned (sorted : SortedBy Location.path context.locations)
    {l : Location} (governs : Governs context.locations (context.base ++ child.path) l)
    (isExclude : l.isExclude = true)
    (noIncludes : ¬ ∃ l ∈ context.locations, l.isInclude = true ∧
      context.base ++ child.path <+: l.path ∧ l.path ≠ context.base ++ child.path)
    {n : Node} (isBelow : child.path <+: n.path) : ¬ Reports context n.path := by
  intro reports
  obtain ⟨l', governs', isInclude⟩ := reports.included
  have isBelow' : context.base ++ child.path <+: context.base ++ n.path :=
    (List.prefix_append_right_inj _).mpr isBelow
  rcases governs.below sorted governs' isBelow' with rfl | ⟨after, elsewhere⟩
  · simp [Location.isExclude, isInclude] at isExclude
  · exact noIncludes ⟨l', governs'.mem, isInclude, after, elsewhere⟩

/-- The job of a child is for exactly the directories, below which alone entries lie. -/
theorem ScansChild.job_leaf (mem : child ∈ tree.nodes) (sameDevice : context.dev = child.metadata.dev)
    (nonempty : child.path ≠ [])
    (notIgnored : ∀ q name, q ++ [.normal name] <+: child.path → context.ignore name = false)
    {entry : Option DirEntryWithMeta}
    (isEntry : entry = some child.toEntry ∧ Reports context child.path ∨
      entry = none ∧ ¬ Reports context child.path) :
    ScansChild tree context pft child
      (if child.isDir && context.dev == child.metadata.dev then
        some ⟨context.base ++ child.path, pft⟩ else none, entry) where
  entry := isEntry
  job := by
    intro job isJob
    dsimp only at isJob
    split at isJob <;> cases isJob
    exact ⟨rfl, notIgnored⟩
  leaf := by
    intro noJob n nMem _ isAbove
    by_contra strict
    obtain ⟨m, mMem, mPath, isDir⟩ := DirectoryTree.exists_ancestor nMem isAbove nonempty
    rw [DirectoryTree.eq_of_path mMem mem mPath] at isDir
    simp [isDir strict, sameDevice] at noJob

theorem scanChild_spec (scannable : Scannable tree) (device : context.dev = tree.dev)
    (sorted : SortedBy Location.path context.locations) (mem : child ∈ tree.readDir dir)
    (covers : Covers context.locations (context.base ++ dir) pft)
    (notIgnored : ∀ q name, q ++ [.normal name] <+: dir → context.ignore name = false) :
    ∃ result, scanChild context pft child = .ok result ∧
      ScansChild tree context pft child result := by
  obtain ⟨childMem, name, path⟩ := DirectoryTree.mem_readDir.mp mem
  have adjacent : Adjacent context.locations (context.base ++ dir) (context.base ++ child.path) := by
    rw [path, ← List.append_assoc]
    exact Adjacent.child _ _ _
  have governs := covers.governs_findParent adjacent
  have narrowed := covers.narrow sorted adjacent
  have sameDevice : context.dev = child.metadata.dev :=
    device.trans (scannable.oneDevice child childMem).symm
  have nonempty : child.path ≠ [] := by simp [path]
  unfold scanChild
  simp only [relative_append]
  by_cases excluded : context.scope.isExcluded child.path = true
  · rw [if_pos excluded]
    refine ⟨_, rfl, .skip ?_ childMem⟩
    intro n _ isAbove reports
    obtain ⟨exclude, isExclude, above⟩ := ScanScope.isExcluded_iff.mp excluded
    exact reports.notExcluded exclude isExclude (above.trans isAbove)
  rw [if_neg excluded]
  by_cases ignored : isMatch context.ignore (context.base ++ child.path) = true
  · rw [if_pos ignored]
    refine ⟨_, rfl, .skip ?_ childMem⟩
    intro n _ isAbove reports
    rw [path, isMatch_append, reports.notIgnored dir name (path ▸ isAbove)] at ignored
    cases ignored
  rw [if_neg ignored]
  rw [path, isMatch_append, Bool.not_eq_true] at ignored
  have childNotIgnored := notIgnored_child path notIgnored ignored
  by_cases pruned : ((findParent (context.base ++ child.path) context.locations pft).isExclude &&
      !hasDescendantIncludes context.locations (context.base ++ child.path)
        (narrowParentFromTo pft (context.base ++ child.path) context.locations)) = true
  · rw [if_pos pruned]
    rw [Bool.and_eq_true, Bool.not_eq_true', ← Bool.not_eq_true,
      narrowed.hasDescendantIncludes_iff] at pruned
    exact ⟨_, rfl, .skip (fun n _ => not_reports_of_pruned sorted governs pruned.1 pruned.2)
      childMem⟩
  rw [if_neg pruned, if_neg (by simp [scannable.noSpecial child childMem]),
    if_neg (by simp [sameDevice])]
  by_cases isExclude : (findParent (context.base ++ child.path) context.locations pft).isExclude
  · rw [if_pos isExclude]
    refine ⟨_, rfl, .job_leaf childMem sameDevice nonempty childNotIgnored (.inr ⟨rfl, ?_⟩)⟩
    intro reports
    obtain ⟨l, lGoverns, isInclude⟩ := reports.included
    rw [← lGoverns.unique sorted governs, Location.isExclude, isInclude] at isExclude
    cases isExclude
  rw [if_neg isExclude]
  have isInclude : (findParent (context.base ++ child.path) context.locations pft).isInclude =
      true := by
    simpa [Location.isExclude] using isExclude
  by_cases selected : context.scope.selected child.path = true
  · rw [if_pos (by simp [selected, sameDevice])]
    refine ⟨_, rfl, .job_leaf childMem sameDevice nonempty childNotIgnored (.inl ⟨rfl, ?_⟩)⟩
    rw [ScanScope.selected, Bool.and_eq_true, Path.startsWith_iff] at selected
    refine ⟨selected.1, ?_, childNotIgnored, _, governs, isInclude⟩
    intro exclude isMem above
    exact excluded (ScanScope.isExcluded_iff.mpr ⟨exclude, isMem, above⟩)
  · rw [if_neg (by simp [selected])]
    refine ⟨_, rfl, .job_leaf childMem sameDevice nonempty childNotIgnored (.inr ⟨rfl, ?_⟩)⟩
    intro reports
    refine selected ?_
    rw [ScanScope.selected, Bool.and_eq_true, Path.startsWith_iff]
    exact ⟨reports.restricted, by simpa using excluded⟩

end Child

/-! ## What a directory pays -/

section Directory

variable {tree : DirectoryTree} {context : ScanContext} {pft : ParentFromTo} {dir : Path}

/-- What is owed for the directory of a job. -/
noncomputable def ScanJob.owed (tree : DirectoryTree) (context : ScanContext) (job : ScanJob) :
    List DirEntryWithMeta :=
  Duet.owed tree context (relative context.base job.path)

/-- A bound on the steps that a job takes: three for every entry below its directory, and
two for itself. -/
noncomputable def ScanJob.weight (tree : DirectoryTree) (context : ScanContext) (job : ScanJob) :
    Nat :=
  3 * (tree.below (fun _ => True) (relative context.base job.path)).length + 2

/-- A child is paid by its own entry and by what its job owes. -/
theorem ScansChild.pays {child : Node} {result : Option ScanJob × Option DirEntryWithMeta}
    (h : ScansChild tree context pft child result) (mem : child ∈ tree.nodes) :
    (result.2.toList ++ result.1.toList.flatMap (ScanJob.owed tree context)).Perm
      ((tree.atOrBelow (fun n => Reports context n.path) child.path).map Node.toEntry) := by
  have later : result.1.toList.flatMap (ScanJob.owed tree context) =
      owed tree context child.path := by
    cases isJob : result.1 with
    | some job =>
      obtain ⟨rfl, -⟩ := h.job job isJob
      simp [ScanJob.owed]
    | none =>
      have nothing : tree.below (fun n => Reports context n.path) child.path = [] := by
        refine List.eq_nil_iff_forall_not_mem.mpr fun n isBelow => ?_
        obtain ⟨nMem, reports, isAbove, strict⟩ := DirectoryTree.mem_below.mp isBelow
        exact strict (h.leaf isJob n nMem reports isAbove)
      simp [owed, nothing]
  rw [later, owed]
  rcases h.entry with ⟨sent, reports⟩ | ⟨notSent, silent⟩
  · have perm := DirectoryTree.atOrBelow_perm (R := fun n => Reports context n.path) mem [child]
      (.inl ⟨rfl, reports⟩)
    simpa [sent] using perm.map Node.toEntry
  · have perm := DirectoryTree.atOrBelow_perm (R := fun n => Reports context n.path) mem []
      (.inr ⟨rfl, silent⟩)
    simpa [notSent] using perm.map Node.toEntry

/-- All children together are paid by the entries that are sent and the jobs that follow. -/
theorem pays_children {children : List Node}
    {results : List (Option ScanJob × Option DirEntryWithMeta)}
    (scans : List.Forall₂ (ScansChild tree context pft) children results)
    (mem : ∀ child ∈ children, child ∈ tree.nodes) :
    (results.filterMap Prod.snd ++
        (results.filterMap Prod.fst).flatMap (ScanJob.owed tree context)).Perm
      ((children.flatMap fun child =>
        tree.atOrBelow (fun n => Reports context n.path) child.path).map Node.toEntry) := by
  induction scans with
  | nil => exact .refl _
  | @cons child result children results here rest ih =>
    have pays := here.pays (mem child List.mem_cons_self)
    have others := ih fun c cMem => mem c (List.mem_cons_of_mem _ cMem)
    have entries : (result :: results).filterMap Prod.snd =
        result.2.toList ++ results.filterMap Prod.snd := by
      cases sent : result.2 <;> simp [sent]
    have jobs : (result :: results).filterMap Prod.fst =
        result.1.toList ++ results.filterMap Prod.fst := by
      cases isJob : result.1 <;> simp [isJob]
    rw [entries, jobs, List.flatMap_append, List.flatMap_cons, List.map_append]
    refine List.Perm.trans ?_ (pays.append others)
    rw [List.append_assoc, List.append_assoc]
    refine List.Perm.append_left _ ?_
    rw [← List.append_assoc, ← List.append_assoc]
    exact List.Perm.append_right _ List.perm_append_comm

/-- The children weigh less than the directory. -/
theorem weigh_children {children : List Node}
    {results : List (Option ScanJob × Option DirEntryWithMeta)}
    (scans : List.Forall₂ (ScansChild tree context pft) children results)
    (mem : ∀ child ∈ children, child ∈ tree.nodes) :
    (results.filterMap Prod.snd).length +
        ((results.filterMap Prod.fst).map (ScanJob.weight tree context)).sum ≤
      3 * (children.flatMap fun child => tree.atOrBelow (fun _ => True) child.path).length := by
  induction scans with
  | nil => simp
  | @cons child result children results here rest ih =>
    have others := ih fun c cMem => mem c (List.mem_cons_of_mem _ cMem)
    have self := (DirectoryTree.atOrBelow_perm (R := fun _ => True)
      (mem child List.mem_cons_self) [child] (.inl ⟨rfl, trivial⟩)).length_eq
    rw [List.length_append, List.length_singleton] at self
    rw [List.flatMap_cons, List.length_append, ← self]
    have entry : ((result :: results).filterMap Prod.snd).length ≤
        1 + (results.filterMap Prod.snd).length := by
      cases sent : result.2 <;> simp [sent]
    have job : (((result :: results).filterMap Prod.fst).map (ScanJob.weight tree context)).sum ≤
        3 * (tree.below (fun _ => True) child.path).length + 2 +
          ((results.filterMap Prod.fst).map (ScanJob.weight tree context)).sum := by
      cases isJob : result.1 with
      | none => simp [isJob]
      | some job =>
        obtain ⟨rfl, -⟩ := here.job job isJob
        simp [isJob, ScanJob.weight]
    omega

/-- The jobs of the children are valid when the range covers the directory. -/
theorem valid_children {children : List Node}
    {results : List (Option ScanJob × Option DirEntryWithMeta)}
    (scans : List.Forall₂ (ScansChild tree context pft) children results)
    (mem : ∀ child ∈ children, child ∈ tree.readDir dir)
    (covers : Covers context.locations (context.base ++ dir) pft) :
    ∀ job ∈ results.filterMap Prod.fst, ∃ dir, ValidJob context job dir := by
  induction scans with
  | nil => simp
  | @cons child result children results here rest ih =>
    have others := ih fun c cMem => mem c (List.mem_cons_of_mem _ cMem)
    intro job isJob
    obtain ⟨result', resultMem, isFirst⟩ := List.mem_filterMap.mp isJob
    rcases List.mem_cons.mp resultMem with rfl | later
    · obtain ⟨rfl, notIgnored⟩ := here.job job isFirst
      obtain ⟨-, name, path⟩ := DirectoryTree.mem_readDir.mp (mem child List.mem_cons_self)
      refine ⟨child.path, rfl, notIgnored, _, covers, ?_⟩
      rw [path, ← List.append_assoc]
      exact Adjacent.child _ _ _
    · exact others job (List.mem_filterMap.mpr ⟨result', later, isFirst⟩)

/-- What scanning one directory achieves. -/
structure PaysOff (tree : DirectoryTree) (context : ScanContext) (job : ScanJob)
    (children : List ScanJob) (entries : List DirEntryWithMeta) : Prop where
  paid : (entries ++ children.flatMap (ScanJob.owed tree context)).Perm (job.owed tree context)
  valid : ∀ child ∈ children, ∃ dir, ValidJob context child dir
  lighter : entries.length + (children.map (ScanJob.weight tree context)).sum + 2 ≤
    job.weight tree context

/-- Nothing is owed for a directory that is skipped. -/
theorem PaysOff.skip {job : ScanJob} (path : job.path = context.base ++ dir)
    (nothing : ∀ n ∈ tree.nodes, dir <+: n.path → dir ≠ n.path → ¬ Reports context n.path) :
    PaysOff tree context job [] [] := by
  have none : tree.below (fun n => Reports context n.path) dir = [] := by
    refine List.eq_nil_iff_forall_not_mem.mpr fun n isBelow => ?_
    obtain ⟨nMem, reports, isAbove, strict⟩ := DirectoryTree.mem_below.mp isBelow
    exact nothing n nMem isAbove strict reports
  exact ⟨by simp [ScanJob.owed, owed, path, none], by simp, by simp [ScanJob.weight]⟩

/-- A directory pays what its job owes. -/
theorem scanOneDirectory_spec (scannable : Scannable tree) (device : context.dev = tree.dev)
    (sorted : SortedBy Location.path context.locations) {job : ScanJob}
    (valid : ValidJob context job dir) :
    ∃ children entries, scanOneDirectory tree context job = .ok (children, entries) ∧
      PaysOff tree context job children entries := by
  obtain ⟨outer, outerCovers, adjacent⟩ := valid.covers
  have covers := outerCovers.narrow sorted adjacent
  have path := valid.path
  unfold scanOneDirectory
  rw [path, relative_append]
  rw [path] at covers
  by_cases excluded : context.scope.isExcluded dir = true
  · rw [if_pos excluded]
    refine ⟨_, _, rfl, .skip path ?_⟩
    intro n _ isAbove _ reports
    obtain ⟨exclude, isExclude, above⟩ := ScanScope.isExcluded_iff.mp excluded
    exact reports.notExcluded exclude isExclude (above.trans isAbove)
  rw [if_neg excluded]
  by_cases relevant : context.scope.relevant dir = true
  swap
  · rw [if_pos (by simpa using relevant)]
    refine ⟨_, _, rfl, .skip path ?_⟩
    intro n _ isAbove _ reports
    refine relevant ?_
    have comparable := List.prefix_or_prefix_of_prefix reports.restricted isAbove
    simpa [ScanScope.relevant, Path.startsWith_iff, excluded] using comparable
  rw [if_neg (by simpa using relevant)]
  by_cases idle : ((ruleAt context.locations (narrowParentFromTo job.pft (context.base ++ dir)
      context.locations).parent).isExclude && decide ((narrowParentFromTo job.pft
        (context.base ++ dir) context.locations).from_ > (narrowParentFromTo job.pft
          (context.base ++ dir) context.locations).to_)) = true
  · rw [if_pos idle]
    obtain ⟨isExclude, empty⟩ := Bool.and_eq_true_iff.mp idle
    refine ⟨_, _, rfl, .skip path ?_⟩
    intro n _ isAbove _ reports
    obtain ⟨l, lGoverns, isInclude⟩ := reports.included
    have isBelow : context.base ++ dir <+: context.base ++ n.path :=
      (List.prefix_append_right_inj _).mpr isAbove
    rcases covers.governs.below sorted lGoverns isBelow with rfl | ⟨after, -⟩
    · rw [Location.isExclude, isInclude] at isExclude
      cases isExclude
    · obtain ⟨i, inside, rfl⟩ := exists_ruleAt lGoverns.mem
      have inRange := (covers.range i inside).mpr after
      exact absurd (inRange.1.trans inRange.2) (by simpa using empty)
  rw [if_neg idle]
  obtain ⟨results, scanned, scans⟩ := exists_mapM_ok fun child mem =>
    scanChild_spec scannable device sorted mem covers valid.notIgnored
  have inTree : ∀ child ∈ tree.readDir dir, child ∈ tree.nodes :=
    fun child mem => (DirectoryTree.mem_readDir.mp mem).1
  refine ⟨results.filterMap Prod.fst, results.filterMap Prod.snd, by rw [scanned]; rfl, ?_, ?_, ?_⟩
  · refine (pays_children scans inTree).trans ?_
    rw [ScanJob.owed, path, relative_append, owed]
    exact (tree.below_perm_flatMap _ dir).map Node.toEntry
  · exact valid_children scans (fun _ mem => mem) covers
  · have weighs := weigh_children scans inTree
    rw [(tree.below_perm_flatMap (fun _ => True) dir).length_eq] at weighs
    rw [ScanJob.weight, path, relative_append]
    omega

end Directory

/-! ## Runs of the scheduler -/

section Scheduler

variable {tree : DirectoryTree} {context : ScanContext} {limit : Nat}

/-- What an active job has left to send and leaves to its children. -/
noncomputable def ActiveJob.owed (tree : DirectoryTree) (context : ScanContext) (job : ActiveJob) :
    List DirEntryWithMeta :=
  job.entries ++ job.children.flatMap (ScanJob.owed tree context)

noncomputable def ActiveJob.weight (tree : DirectoryTree) (context : ScanContext)
    (job : ActiveJob) : Nat :=
  job.entries.length + 1 + (job.children.map (ScanJob.weight tree context)).sum

/-- A bound on the steps that are left. -/
noncomputable def ScanState.weight (tree : DirectoryTree) (context : ScanContext)
    (state : ScanState) : Nat :=
  (state.active.map (ActiveJob.weight tree context)).sum +
    (state.pending.map (ScanJob.weight tree context)).sum

/-- The invariant of a run: what was sent and what is owed is always the same, and every
job is valid. -/
structure Balanced (tree : DirectoryTree) (context : ScanContext) (total : List DirEntryWithMeta)
    (state : ScanState) : Prop where
  balance : (state.sent ++ (state.active.flatMap (ActiveJob.owed tree context) ++
    state.pending.flatMap (ScanJob.owed tree context))).Perm total
  pending : ∀ job ∈ state.pending, ∃ dir, ValidJob context job dir
  active : ∀ running ∈ state.active, ∀ job ∈ running.children, ∃ dir, ValidJob context job dir

variable {total : List DirEntryWithMeta} {state next : ScanState}

/-- Every step keeps the balance and decreases the bound. -/
theorem Balanced.step (scannable : Scannable tree) (device : context.dev = tree.dev)
    (sorted : SortedBy Location.path context.locations)
    (h : Balanced tree context total state) (step : ScanStep tree context limit state next) :
    Balanced tree context total next ∧ next.weight tree context < state.weight tree context := by
  obtain ⟨balance, pendingValid, activeValid⟩ := h
  cases step with
  | @start job pending active sent children entries room scanned =>
    obtain ⟨dir, valid⟩ := pendingValid job List.mem_cons_self
    obtain ⟨children', entries', scanned', pays⟩ :=
      scanOneDirectory_spec scannable device sorted valid
    rw [scanned] at scanned'
    cases scanned'
    refine ⟨⟨?_, ?_, ?_⟩, ?_⟩
    · refine List.perm_iff_count.mpr fun e => ?_
      have before := balance.count_eq e
      have paid := pays.paid.count_eq e
      simp only [List.flatMap_append, List.flatMap_cons, List.flatMap_nil, List.append_nil,
        ActiveJob.owed, List.count_append] at before paid ⊢
      omega
    · exact fun j mem => pendingValid j (List.mem_cons_of_mem _ mem)
    · intro running mem
      rcases List.mem_append.mp mem with mem | mem
      · exact activeValid running mem
      · cases List.mem_singleton.mp mem
        exact pays.valid
    · have lighter := pays.lighter
      simp only [ScanState.weight, List.map_append, List.sum_append, List.map_cons, List.sum_cons,
        List.map_nil, List.sum_nil, ActiveJob.weight]
      omega
  | @send pending before after sent entry entries children =>
    refine ⟨⟨?_, pendingValid, ?_⟩, ?_⟩
    · refine List.perm_iff_count.mpr fun e => ?_
      have before := balance.count_eq e
      simp only [List.flatMap_append, List.flatMap_cons, List.cons_append, ActiveJob.owed,
        List.count_append, List.count_cons, List.count_nil] at before ⊢
      omega
    · intro running mem
      rcases List.mem_append.mp mem with mem | mem
      · exact activeValid running (List.mem_append_left _ mem)
      · rcases List.mem_cons.mp mem with rfl | mem
        · exact activeValid ⟨entry :: entries, children⟩
            (List.mem_append_right _ List.mem_cons_self)
        · exact activeValid running (List.mem_append_right _ (List.mem_cons_of_mem _ mem))
    · simp only [ScanState.weight, List.map_append, List.sum_append, List.map_cons, List.sum_cons,
        ActiveJob.weight, List.length_cons]
      omega
  | @finish pending before after sent children =>
    have sortedPerm : (sortJobs children).Perm children := List.mergeSort_perm _ _
    refine ⟨⟨?_, ?_, ?_⟩, ?_⟩
    · refine List.perm_iff_count.mpr fun e => ?_
      have before := balance.count_eq e
      have same := (sortedPerm.flatMap_right (ScanJob.owed tree context)).count_eq e
      simp only [List.flatMap_append, List.flatMap_cons, List.nil_append, ActiveJob.owed,
        List.count_append] at before ⊢
      omega
    · intro job mem
      rcases List.mem_append.mp mem with mem | mem
      · exact pendingValid job mem
      · exact activeValid ⟨[], children⟩ (List.mem_append_right _ List.mem_cons_self) job
          (sortedPerm.mem_iff.mp mem)
    · intro running mem
      rcases List.mem_append.mp mem with mem | mem
      · exact activeValid running (List.mem_append_left _ mem)
      · exact activeValid running (List.mem_append_right _ (List.mem_cons_of_mem _ mem))
    · have same := (sortedPerm.map (ScanJob.weight tree context)).sum_nat
      simp only [ScanState.weight, List.map_append, List.sum_append, List.map_cons, List.sum_cons,
        ActiveJob.weight, List.length_nil, same]
      omega

/-- While the scheduler has not returned, some step is possible. -/
theorem Balanced.progress (scannable : Scannable tree) (device : context.dev = tree.dev)
    (sorted : SortedBy Location.path context.locations) (room : 0 < limit)
    (h : Balanced tree context total state) (notDone : ¬ state.Done) :
    ∃ next, ScanStep tree context limit state next := by
  obtain ⟨pending, active, sent⟩ := state
  cases active with
  | cons running active =>
    obtain ⟨entries, children⟩ := running
    cases entries with
    | nil =>
      have ends : ScanStep tree context limit ⟨pending, [] ++ ⟨[], children⟩ :: active, sent⟩ _ :=
        .finish
      exact ⟨_, ends⟩
    | cons entry entries =>
      have sends : ScanStep tree context limit
          ⟨pending, [] ++ ⟨entry :: entries, children⟩ :: active, sent⟩ _ := .send
      exact ⟨_, sends⟩
  | nil =>
    cases pending with
    | nil => exact absurd ⟨rfl, rfl⟩ notDone
    | cons job pending =>
      obtain ⟨dir, valid⟩ := h.pending job List.mem_cons_self
      obtain ⟨children, entries, scanned, -⟩ :=
        scanOneDirectory_spec scannable device sorted valid
      exact ⟨_, .start room scanned⟩

end Scheduler

/-! ## The selection of a profile -/

/-- The selection of a profile: a path is under the restriction, no hard exclude and no
ignored name lies above it, and of its prefixes that have a rule the longest has an
include as its last rule. -/
structure Selected (scope : ScanScope) (locations : Locations) (ignore : Name → Bool)
    (p : Path) : Prop where
  restricted : scope.restrict <+: p
  notExcluded : ∀ exclude ∈ scope.excludes, ¬ exclude <+: p
  notIgnored : ∀ q name, q ++ [.normal name] <+: p → ignore name = false
  included : ∃ q l, q <+: p ∧ lastRule q locations = some l ∧ l.isInclude = true ∧
    ∀ q', q' <+: p → (lastRule q' locations).isSome → q'.length ≤ q.length

section Selection

variable {tree : DirectoryTree} {base : Path} {scope : ScanScope} {locations : Locations}
  {ignore : Name → Bool}

/-- The rules of a profile are relative, and one of them is for the base itself. -/
structure ProfileRules (locations : Locations) : Prop where
  relative : ∀ l ∈ locations, l.path.Relative
  root : ∃ l ∈ locations, canonicalRelativePath l.path = []

theorem ProfileRules.join (h : ProfileRules locations) {l : Location}
    (mem : l ∈ canonicalize locations) : base.join l.path = base ++ l.path := by
  obtain ⟨sorted, found⟩ := canonicalize_spec locations
  obtain ⟨-, source, sourceMem, rfl⟩ :=
    exists_of_lastRule ((found _).symm.trans (sorted.lookup_of_mem mem))
  rw [canonical_path]
  exact (relative_canonical (h.relative source sourceMem)).join base

theorem prefixWith_path (l : Location) (base : Path) :
    (l.prefixWith base).path = base.join l.path := by
  cases l <;> rfl

theorem prefixWith_isInclude (l : Location) (base : Path) :
    (l.prefixWith base).isInclude = l.isInclude := by
  cases l <;> rfl

theorem append_lt_append {a b : Path} (less : a < b) (base : Path) : base ++ a < base ++ b := by
  induction base with
  | nil => exact less
  | cons c base ih => exact List.cons_lt_cons_iff.mpr (.inr ⟨rfl, ih⟩)

/-- The rules of the scanner are sorted. -/
theorem ProfileRules.sorted (h : ProfileRules locations) (base : Path) :
    SortedBy Location.path (prefixedLocations base locations) := by
  refine List.pairwise_map.mpr ((canonicalize_spec locations).1.imp_of_mem ?_)
  intro a b aMem bMem less
  rw [prefixWith_path, prefixWith_path, h.join aMem, h.join bMem]
  exact append_lt_append less base

/-- The governing rule of the scanner is the last rule of the longest prefix. -/
theorem ProfileRules.governs_iff (h : ProfileRules locations) {p : Path} :
    (∃ l, Governs (prefixedLocations base locations) (base ++ p) l ∧ l.isInclude = true) ↔
      ∃ q l, q <+: p ∧ lastRule q locations = some l ∧ l.isInclude = true ∧
        ∀ q', q' <+: p → (lastRule q' locations).isSome → q'.length ≤ q.length := by
  obtain ⟨sorted, found⟩ := canonicalize_spec locations
  have isRule : ∀ q l, lastRule q locations = some l ↔ l ∈ canonicalize locations ∧ l.path = q := by
    intro q l
    rw [← found, sorted.lookup_eq_some]
  constructor
  · rintro ⟨l, governs, isInclude⟩
    obtain ⟨rule, ruleMem, rfl⟩ := List.mem_map.mp governs.mem
    have above := governs.above
    rw [prefixWith_path, h.join ruleMem, List.prefix_append_right_inj] at above
    rw [prefixWith_isInclude] at isInclude
    refine ⟨rule.path, rule, above, (isRule _ _).mpr ⟨ruleMem, rfl⟩, isInclude, ?_⟩
    intro q' above' some
    obtain ⟨rule', isRule'⟩ := Option.isSome_iff_exists.mp some
    obtain ⟨mem', rfl⟩ := (isRule _ _).mp isRule'
    have longest := governs.longest (rule'.prefixWith base) (List.mem_map_of_mem mem')
      (by rwa [prefixWith_path, h.join mem', List.prefix_append_right_inj])
    rw [prefixWith_path, prefixWith_path, h.join ruleMem, h.join mem', List.length_append,
      List.length_append] at longest
    omega
  · rintro ⟨q, rule, above, last, isInclude, longest⟩
    obtain ⟨mem, rfl⟩ := (isRule _ _).mp last
    refine ⟨rule.prefixWith base, ⟨List.mem_map_of_mem mem, ?_, ?_⟩, ?_⟩
    · rwa [prefixWith_path, h.join mem, List.prefix_append_right_inj]
    · intro l' l'Mem above'
      obtain ⟨rule', mem', rfl⟩ := List.mem_map.mp l'Mem
      rw [prefixWith_path, h.join mem', List.prefix_append_right_inj] at above'
      have shorter := longest rule'.path above' (by rw [(isRule _ _).mpr ⟨mem', rfl⟩]; rfl)
      rw [prefixWith_path, prefixWith_path, h.join mem, h.join mem', List.length_append,
        List.length_append]
      omega
    · rwa [prefixWith_isInclude]

/-- What the scanner reports is the selection of the profile. -/
theorem ProfileRules.reports_iff (h : ProfileRules locations) {p : Path} :
    Reports (scanContext tree base scope locations ignore) p ↔
      Selected scope locations ignore p := by
  constructor
  · rintro ⟨restricted, notExcluded, notIgnored, included⟩
    exact ⟨restricted, notExcluded, notIgnored, h.governs_iff.mp included⟩
  · rintro ⟨restricted, notExcluded, notIgnored, included⟩
    exact ⟨restricted, notExcluded, notIgnored, h.governs_iff.mpr included⟩

/-- The root rule is the first one, so the whole range covers the base. -/
theorem ProfileRules.covers (h : ProfileRules locations) (base : Path) :
    Covers (prefixedLocations base locations) base
      ⟨0, 0, (prefixedLocations base locations).length - 1⟩ := by
  obtain ⟨sorted, found⟩ := canonicalize_spec locations
  have isBelow : ∀ l ∈ prefixedLocations base locations, base <+: l.path := by
    intro l mem
    obtain ⟨rule, ruleMem, rfl⟩ := List.mem_map.mp mem
    rw [prefixWith_path, h.join ruleMem]
    exact List.prefix_append _ _
  have rootMem : ∃ l ∈ prefixedLocations base locations, l.path = base := by
    obtain ⟨source, sourceMem, isRoot⟩ := h.root
    have some : (lastRule [] locations).isSome := by
      rw [lastRule, List.find?_isSome]
      refine ⟨source.canonical, ?_, ?_⟩
      · exact List.mem_reverse.mpr (List.mem_map_of_mem sourceMem)
      · rw [canonical_path, isRoot]
        rfl
    obtain ⟨rule, last⟩ := Option.isSome_iff_exists.mp some
    rw [← found, sorted.lookup_eq_some] at last
    refine ⟨rule.prefixWith base, List.mem_map_of_mem last.1, ?_⟩
    rw [prefixWith_path, h.join last.1, last.2, List.append_nil]
  obtain ⟨root, mem, isBase⟩ := rootMem
  obtain ⟨i, inside, rfl⟩ := exists_ruleAt mem
  have positive : 0 < (prefixedLocations base locations).length := Nat.zero_lt_of_lt inside
  have first : (ruleAt (prefixedLocations base locations) 0).path = base := by
    rcases Nat.eq_zero_or_pos i with rfl | later
    · exact isBase
    · have less := ruleAt_lt (h.sorted base) later inside
      rw [isBase] at less
      have le := le_of_isPrefix (isBelow _ (ruleAt_mem positive))
      exact absurd (less.trans_le le) (lt_irrefl _)
  refine ⟨fun _ => Nat.sub_lt positive Nat.one_pos, ?_, positive,
    governs_self (ruleAt_mem positive) first⟩
  intro j jInside
  have isRule := isBelow _ (ruleAt_mem jInside)
  exact ⟨fun _ => isRule, fun _ => ⟨Nat.zero_le _, Nat.le_sub_one_of_lt jInside⟩⟩

/-- The first job is valid and owes the whole selection. -/
theorem ProfileRules.balanced_initial (h : ProfileRules locations) :
    Balanced tree (scanContext tree base scope locations ignore)
      (owed tree (scanContext tree base scope locations ignore) [])
      (initialScan base locations) := by
  refine ⟨?_, ?_, by simp [initialScan]⟩
  · have path : Duet.relative base base = [] := by simp [Duet.relative]
    simp [initialScan, ScanJob.owed, scanContext, path]
  · intro job mem
    cases List.mem_singleton.mp mem
    refine ⟨[], by simp [scanContext], ?_, base, h.covers base, Adjacent.refl _ _⟩
    intro q name isAbove
    simp at isAbove

/-- A scan that is done has sent what it owed from the start. -/
theorem ProfileRules.sent_perm (h : ProfileRules locations) (scannable : Scannable tree)
    {scope : ScanScope} {limit : Nat} {state : ScanState}
    (reaches : ScanReaches tree base scope locations ignore limit state) (done : state.Done) :
    state.sent.Perm (owed tree (scanContext tree base scope locations ignore) []) := by
  let context := scanContext tree base scope locations ignore
  have preserved : ∀ s t, Balanced tree context (owed tree context []) s →
      ScanStep tree context limit s t → Balanced tree context (owed tree context []) t :=
    fun s t holds next => (holds.step scannable rfl (h.sorted base) next).1
  unfold ScanReaches at reaches
  split at reaches
  · next excluded =>
    obtain ⟨exclude, isExclude, above⟩ := ScanScope.isExcluded_iff.mp excluded
    have nothing : tree.below (fun n => Reports context n.path) [] = [] := by
      refine List.eq_nil_iff_forall_not_mem.mpr fun n isBelow => ?_
      have reports := (DirectoryTree.mem_below.mp isBelow).2.1
      exact reports.notExcluded exclude isExclude (above.trans reports.restricted)
    subst reaches
    rw [owed, nothing]
    exact .refl _
  · have balance := (invariant_of_run preserved reaches h.balanced_initial).balance
    rw [done.1, done.2] at balance
    simpa using balance

/-- Every entry is owed once. -/
theorem nodup_owed (context : ScanContext) :
    ((owed tree context []).map DirEntryWithMeta.path).Nodup := by
  rw [owed, List.map_map]
  exact (List.filter_sublist.map Node.path).nodup tree.nodup

end Selection

/-- A scan selects exactly the selection of the profile. Whatever the order in which jobs
end, a scan never fails or stops early and does not go on forever, and when it returns it
has sent every selected entry of the tree exactly once, and nothing else. -/
theorem scan_selects {tree : DirectoryTree} (scannable : Scannable tree) (base : Path)
    (scope : ScanScope) {locations : Locations} (rules : ProfileRules locations)
    (ignore : Name → Bool) {limit : Nat} (positive : 0 < limit) :
    let step := ScanStep tree (scanContext tree base scope locations ignore) limit
    (∀ state, ScanReaches tree base scope locations ignore limit state →
      ∃ final, Relation.ReflTransGen step state final ∧ final.Done) ∧
    (¬ ∃ run : Nat → ScanState, run 0 = initialScan base locations ∧
      ∀ n, step (run n) (run (n + 1))) ∧
    ∀ state, ScanReaches tree base scope locations ignore limit state → state.Done →
      (state.sent.map DirEntryWithMeta.path).Nodup ∧
      ∀ entry, entry ∈ state.sent ↔
        ∃ node ∈ tree.nodes, node.toEntry = entry ∧ Selected scope locations ignore node.path := by
  intro step
  let context := scanContext tree base scope locations ignore
  have sorted : SortedBy Location.path context.locations := rules.sorted base
  let I := Balanced tree context (owed tree context [])
  have preserved : ∀ s t, I s → step s t → I t :=
    fun s t holds next => (holds.step scannable rfl sorted next).1
  have decreases : ∀ s t, I s → step s t → t.weight tree context < s.weight tree context :=
    fun s t holds next => (holds.step scannable rfl sorted next).2
  have start : I (initialScan base locations) := rules.balanced_initial
  refine ⟨?_, ?_, ?_⟩
  · intro state reaches
    unfold ScanReaches at reaches
    split at reaches
    · subst reaches
      exact ⟨_, .refl, rfl, rfl⟩
    · exact exists_final preserved decreases
        (fun s holds notDone => holds.progress scannable rfl sorted positive notDone)
        (invariant_of_run preserved reaches start)
  · rintro ⟨run, first, steps⟩
    exact no_infinite_run preserved decreases run (first ▸ start) steps
  · intro state reaches done
    have isSent : state.sent.Perm (owed tree context []) := rules.sent_perm scannable reaches done
    constructor
    · exact (isSent.map DirEntryWithMeta.path).nodup_iff.mpr (nodup_owed context)
    · intro entry
      rw [isSent.mem_iff, owed, List.mem_map]
      refine exists_congr fun node => ?_
      rw [DirectoryTree.mem_below, rules.reports_iff]
      constructor
      · rintro ⟨⟨mem, selected, -⟩, isEntry⟩
        exact ⟨mem, isEntry, selected⟩
      · rintro ⟨mem, isEntry, selected⟩
        obtain ⟨dir, name, path, -⟩ := tree.named node mem
        exact ⟨⟨mem, selected, List.nil_prefix, by simp [path]⟩, isEntry⟩

/-- The entries that a scan sends are sorted into a manifest with canonical paths. -/
theorem ProfileRules.scanned {tree : DirectoryTree} (scannable : Scannable tree) {base : Path}
    {scope : ScanScope} {locations : Locations} (rules : ProfileRules locations)
    {ignore : Name → Bool} {limit : Nat} {state : ScanState}
    (reaches : ScanReaches tree base scope locations ignore limit state) (done : state.Done) :
    Scanned (state.sent.mergeSort fun a b => a.path ≤ b.path) := by
  have isSent := rules.sent_perm scannable reaches done
  constructor
  · exact sortedBy_mergeSort ((isSent.map DirEntryWithMeta.path).nodup_iff.mpr (nodup_owed _))
  · intro entry mem
    rw [List.mem_mergeSort, isSent.mem_iff, owed] at mem
    obtain ⟨node, isNode, rfl⟩ := List.mem_map.mp mem
    exact DirectoryTree.canonical node (DirectoryTree.mem_below.mp isNode).1

/-- A directory `a` with a file in it, next to a file `b`. -/
def smallTree : DirectoryTree where
  nodes := [⟨[.normal [97]], ⟨.directory, 0, 0, 1, 0o40755, 7⟩⟩,
    ⟨[.normal [97], .normal [120]], ⟨.file, 3, 5, 2, 0o100644, 7⟩⟩,
    ⟨[.normal [98]], ⟨.file, 1, 5, 3, 0o100644, 7⟩⟩]
  dev := 7
  nodup := by decide
  named := by
    intro node mem
    simp only [List.mem_cons, List.not_mem_nil, or_false] at mem
    rcases mem with rfl | rfl | rfl
    · exact ⟨[], [97], rfl, .inl rfl⟩
    · exact ⟨[.normal [97]], [120], rfl, .inr ⟨_, List.mem_cons_self, rfl, rfl⟩⟩
    · exact ⟨[], [98], rfl, .inl rfl⟩

/-- Everything but `a` is excluded, by a rule for `.`. -/
theorem scan_selects_smallTree :
    let locations : Locations := [.exclude [.curDir], .include [.normal [97]]]
    let scope : ScanScope := ⟨[], []⟩
    ∃ final, ScanReaches smallTree [.rootDir] scope locations (fun _ => false) 2 final ∧
      final.Done ∧ (final.sent.map DirEntryWithMeta.path).Nodup ∧
      ∀ entry, entry ∈ final.sent ↔ ∃ node ∈ smallTree.nodes, node.toEntry = entry ∧
        Selected scope locations (fun _ => false) node.path := by
  intro locations scope
  have scannable : Scannable smallTree := ⟨by decide, by decide⟩
  have rules : ProfileRules locations := ⟨by decide, by decide⟩
  obtain ⟨completes, -, selects⟩ :=
    scan_selects scannable [.rootDir] scope rules (fun _ => false) Nat.two_pos
  obtain ⟨final, run, done⟩ := completes (initialScan [.rootDir] locations) .refl
  exact ⟨final, run, done, selects final run done⟩

end Duet
