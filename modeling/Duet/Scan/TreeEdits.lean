import Duet.Scan.Tree

/-!
# Edits of a directory tree

A new entry in a directory, and other metadata for an entry that keeps its kind. Next to
`outside`, which takes an entry away, these are what the system calls do to a tree. Each
edit is known by the entries that are found after it.
-/

namespace Duet

namespace DirectoryTree

variable {tree : DirectoryTree} {dir p q : Path} {name : Name} {metadata : Metadata}

theorem entry?_path {n : Node} (found : tree.entry? p = some n) : n.path = p :=
  (entry?_eq_some.mp found).2

theorem entry?_eq_none : tree.entry? p = none ↔ ∀ n ∈ tree.nodes, n.path ≠ p := by
  constructor
  · intro missing n mem path
    rw [entry?_eq_some.mpr ⟨mem, path⟩] at missing
    cases missing
  · intro apart
    cases found : tree.entry? p with
    | none => rfl
    | some n =>
      obtain ⟨mem, path⟩ := entry?_eq_some.mp found
      exact absurd path (apart n mem)

/-- The base, or a directory of the tree. -/
def HasDirectory (tree : DirectoryTree) (dir : Path) : Prop :=
  dir = [] ∨ ∃ parent ∈ tree.nodes, parent.path = dir ∧ parent.isDir = true

instance : Decidable (tree.HasDirectory dir) := inferInstanceAs (Decidable (_ ∨ _))

theorem hasDirectory_iff :
    tree.HasDirectory dir ↔ dir = [] ∨ ∃ n, tree.entry? dir = some n ∧ n.isDir = true := by
  refine or_congr_right ?_
  constructor
  · rintro ⟨n, mem, path, isDir⟩
    exact ⟨n, entry?_eq_some.mpr ⟨mem, path⟩, isDir⟩
  · rintro ⟨n, found, isDir⟩
    obtain ⟨mem, path⟩ := entry?_eq_some.mp found
    exact ⟨n, mem, path, isDir⟩

/-- An entry lies in a directory. -/
theorem hasDirectory_of_entry {n : Node} (found : tree.entry? p = some n) :
    tree.HasDirectory p.dropLast := by
  obtain ⟨mem, rfl⟩ := entry?_eq_some.mp found
  obtain ⟨dir, name, path, parent⟩ := tree.named n mem
  rw [path, List.dropLast_concat]
  exact parent

/-! ## A new entry -/

/-- The directory is there, and has no entry with the name. -/
def CanInsert (tree : DirectoryTree) (dir : Path) (name : Name) : Prop :=
  tree.HasDirectory dir ∧ ∀ node ∈ tree.nodes, node.path ≠ dir ++ [.normal name]

instance : Decidable (tree.CanInsert dir name) := inferInstanceAs (Decidable (_ ∧ _))

def insert (tree : DirectoryTree) (dir : Path) (name : Name) (metadata : Metadata)
    (can : tree.CanInsert dir name) : DirectoryTree where
  nodes := tree.nodes ++ [⟨dir ++ [.normal name], metadata⟩]
  dev := tree.dev
  nodup := by
    rw [List.map_append, List.nodup_append]
    refine ⟨tree.nodup, List.nodup_singleton _, ?_⟩
    rintro path mem other inside rfl
    obtain ⟨node, nodeMem, path⟩ := List.mem_map.mp mem
    rw [List.map_singleton, List.mem_singleton] at inside
    exact can.2 node nodeMem (path.trans inside)
  named := by
    intro node mem
    rcases List.mem_append.mp mem with old | new
    · obtain ⟨parent, last, path, isParent⟩ := tree.named node old
      refine ⟨parent, last, path, isParent.imp_right ?_⟩
      rintro ⟨above, aboveMem, facts⟩
      exact ⟨above, List.mem_append_left _ aboveMem, facts⟩
    · rw [List.mem_singleton.mp new]
      refine ⟨dir, name, rfl, can.1.imp_right ?_⟩
      rintro ⟨above, aboveMem, facts⟩
      exact ⟨above, List.mem_append_left _ aboveMem, facts⟩

@[simp] theorem insert_dev (can : tree.CanInsert dir name) :
    (tree.insert dir name metadata can).dev = tree.dev := rfl

theorem entry?_insert (can : tree.CanInsert dir name) :
    DirectoryTree.entry? (tree.insert dir name metadata can) q =
      if q = dir ++ [.normal name] then some ⟨q, metadata⟩ else tree.entry? q := by
  change (tree.nodes ++ [_]).find? _ = _
  rw [List.find?_append]
  split
  · rename_i here
    have free : tree.nodes.find? (fun node => node.path = q) = none :=
      entry?_eq_none.mpr fun node mem => here ▸ can.2 node mem
    rw [free, here]
    simp
  · rename_i elsewhere
    have other : List.find? (fun node : Node => decide (node.path = q))
        [⟨dir ++ [.normal name], metadata⟩] = none := by
      rw [List.find?_singleton, if_neg (by simpa using fun same => elsewhere same.symm)]
    rw [other, Option.or_none]
    rfl

/-! ## Other metadata -/

/-- The entry with other metadata, when it has this path. -/
def relabel (path : Path) (change : Metadata → Metadata) (node : Node) : Node :=
  if node.path = path then { node with metadata := change node.metadata } else node

@[simp] theorem relabel_path {path : Path} {change : Metadata → Metadata} {node : Node} :
    (relabel path change node).path = node.path := by
  unfold relabel
  split
  · rfl
  · rfl

theorem relabel_isDir {path : Path} {change : Metadata → Metadata} {node : Node}
    (kept : ∀ m, (change m).fileType = m.fileType) :
    (relabel path change node).isDir = node.isDir := by
  unfold relabel
  split
  · unfold Node.isDir
    rw [kept]
  · rfl

/-- The tree with other metadata at a path, of the same kind. -/
def modify (tree : DirectoryTree) (path : Path) (change : Metadata → Metadata)
    (kept : ∀ m, (change m).fileType = m.fileType) : DirectoryTree where
  nodes := tree.nodes.map (relabel path change)
  dev := tree.dev
  nodup := by
    rw [List.map_map]
    have same : Node.path ∘ relabel path change = Node.path := funext fun node => relabel_path
    rw [same]
    exact tree.nodup
  named := by
    intro node mem
    obtain ⟨old, oldMem, rfl⟩ := List.mem_map.mp mem
    obtain ⟨parent, last, named, isParent⟩ := tree.named old oldMem
    refine ⟨parent, last, relabel_path.trans named, isParent.imp_right ?_⟩
    rintro ⟨above, aboveMem, abovePath, isDir⟩
    exact ⟨relabel path change above, List.mem_map_of_mem aboveMem,
      relabel_path.trans abovePath, (relabel_isDir kept).trans isDir⟩

@[simp] theorem modify_dev {change : Metadata → Metadata}
    {kept : ∀ m, (change m).fileType = m.fileType} : (tree.modify p change kept).dev = tree.dev :=
  rfl

theorem entry?_modify {change : Metadata → Metadata}
    {kept : ∀ m, (change m).fileType = m.fileType} :
    DirectoryTree.entry? (tree.modify p change kept) q =
      (tree.entry? q).map (relabel p change) := by
  change (tree.nodes.map _).find? _ = (tree.nodes.find? _).map _
  rw [List.find?_map]
  congr 2
  funext node
  simp

/-- Other entries have the metadata that they had. -/
theorem entry?_modify_of_ne {change : Metadata → Metadata}
    {kept : ∀ m, (change m).fileType = m.fileType} (ne : q ≠ p) :
    DirectoryTree.entry? (tree.modify p change kept) q = tree.entry? q := by
  rw [entry?_modify]
  cases found : tree.entry? q with
  | none => rfl
  | some node =>
    have path : node.path ≠ p := fun same => ne ((entry?_path found).symm.trans same)
    exact congrArg some (if_neg path)

theorem entry?_modify_self {change : Metadata → Metadata}
    {kept : ∀ m, (change m).fileType = m.fileType} {n : Node} (found : tree.entry? p = some n) :
    DirectoryTree.entry? (tree.modify p change kept) p =
      some { n with metadata := change n.metadata } := by
  rw [entry?_modify, found]
  exact congrArg some (if_pos (entry?_path found))

/-! ## An entry less -/

theorem entry?_outside :
    DirectoryTree.entry? (tree.outside p) q = if p <+: q then none else tree.entry? q := by
  split
  · rename_i below
    refine entry?_eq_none.mpr fun n mem path => ?_
    exact (mem_outside.mp mem).2 (path ▸ below)
  · rename_i apart
    cases found : tree.entry? q with
    | none =>
      exact entry?_eq_none.mpr fun n mem => entry?_eq_none.mp found n (mem_outside.mp mem).1
    | some n =>
      obtain ⟨mem, rfl⟩ := entry?_eq_some.mp found
      exact entry?_eq_some.mpr ⟨mem_outside.mpr ⟨mem, apart⟩, rfl⟩

/-- Where nothing lies below the entry that goes, only this one goes. -/
theorem entry?_outside_of_leaf (leaf : ∀ n ∈ tree.nodes, p <+: n.path → n.path = p) :
    DirectoryTree.entry? (tree.outside p) q = if q = p then none else tree.entry? q := by
  rw [entry?_outside]
  split
  · rename_i below
    split
    · rfl
    · rename_i ne
      refine (entry?_eq_none.mpr fun n mem path => ne ?_).symm
      rw [← path]
      exact leaf n mem (path ▸ below)
  · rename_i apart
    have ne : q ≠ p := by
      rintro rfl
      exact apart (List.prefix_refl _)
    rw [if_neg ne]

/-- Nothing lies below a file or a link. -/
theorem leaf_of_not_isDir {n : Node} (found : tree.entry? p = some n) (notDir : n.isDir = false) :
    ∀ m ∈ tree.nodes, p <+: m.path → m.path = p := by
  obtain ⟨mem, rfl⟩ := entry?_eq_some.mp found
  intro m mMem below
  rw [eq_of_leaf notDir mem mMem below]

/-- Nothing lies below an empty directory. -/
theorem leaf_of_empty (empty : tree.readDir p = []) :
    ∀ m ∈ tree.nodes, p <+: m.path → m.path = p := by
  intro m mMem below
  by_contra strict
  obtain ⟨child, inside, -⟩ := exists_child mMem below fun same => strict same.symm
  rw [empty] at inside
  cases inside

/-! ## Lookups -/

/-- What a look at a path finds, without following it when it names a link itself. -/
inductive Lookup where
  | found (metadata : Metadata)
  | missing
  /-- something on the way is not a directory -/
  | failed
deriving DecidableEq

/-- The look at a path. Behind a symbolic link it may find anything. -/
def lookup (tree : DirectoryTree) (behind : Path → Lookup) (path : Path) : Lookup :=
  match tree.entry? path with
  | some node => .found node.metadata
  | none =>
    match path.ancestors.findSome? tree.entry? with
    | none => .missing
    | some above => match above.metadata.fileType with
      | .directory => .missing
      | .symlink _ => behind path
      | _ => .failed

theorem lookup_of_entry {behind : Path → Lookup} {n : Node} (found : tree.entry? p = some n) :
    tree.lookup behind p = .found n.metadata := by
  unfold lookup
  rw [found]

end DirectoryTree

end Duet
