import Duet.Sync.CommitRules

/-!
# The steps of a commit that change the tree

What each call, and each function that is made of them, leaves at the path of its action. The
tree, the contents and the result at that place are a spot (`Spot`); all else is left as it is,
by `Local`.
-/

namespace Duet.Commit

open Lib

/-- A path that names an entry has a directory and a name. -/
theorem exists_name {p : Path} (canonical : CanonicalPath p) :
    ∃ name, p.getLast? = some (.normal name) ∧ p.dropLast ++ [.normal name] = p := by
  obtain ⟨nonempty, normal⟩ := canonical
  have last := normal _ (List.getLast_mem nonempty)
  cases component : p.getLast nonempty with
  | normal name =>
    refine ⟨name, ?_, ?_⟩
    · rw [List.getLast?_eq_some_getLast nonempty, component]
    · rw [← component]
      exact List.dropLast_append_getLast nonempty
  | rootDir | curDir | parentDir =>
    rw [component] at last
    cases last

/-- From `s` to `t` the entry at the path has become `node`, and more calls were made. -/
def Sets (p : Path) (s : State) (node : Option Node) (t : State) : Prop :=
  ∃ tree calls, t = (s.withTree tree).atCall calls ∧ tree.entry? p = node

section Calls

variable {kernel : Kernel} {p : Path} {i : Nat} {may : Prop} {s t u : State} {n : Node}
  {m : Metadata} {node : Option Node} {call : Call}

theorem Sets.trans {other : Option Node} (first : Sets p s other t) (second : Sets p t node u) :
    Sets p s node u := by
  obtain ⟨tree, calls, rfl, -⟩ := first
  obtain ⟨tree', calls', rfl, here⟩ := second
  exact ⟨tree', calls', rfl, here⟩

theorem Sets.after (still : Still s t) (sets : Sets p t node u) : Sets p s node u := by
  obtain ⟨calls, rfl⟩ := still
  obtain ⟨tree, calls', rfl, here⟩ := sets
  exact ⟨tree, calls', rfl, here⟩

theorem Sets.still (sets : Sets p s node t) (still : Still t u) : Sets p s node u := by
  obtain ⟨tree, calls, rfl, here⟩ := sets
  obtain ⟨calls', rfl⟩ := still
  exact ⟨tree, calls', rfl, here⟩

theorem Sets.entry (sets : Sets p s node t) : t.disk.tree.entry? p = node := by
  obtain ⟨tree, calls, rfl, here⟩ := sets
  exact here

/-- The directory of an entry stays while only the entry changes. -/
theorem hasDirectory_of_near (near : Beside p i s t) (nonempty : p ≠ [])
    (parent : s.disk.tree.HasDirectory p.dropLast) : t.disk.tree.HasDirectory p.dropLast := by
  rw [DirectoryTree.hasDirectory_iff] at parent ⊢
  have ne : p.dropLast ≠ p := fun same => by
    have lengths := congrArg List.length same
    have positive := List.length_pos_iff.mpr nonempty
    rw [List.length_dropLast] at lengths
    omega
  rwa [near.entries _ ne]

theorem local_openParent (parent : s.disk.tree.HasDirectory p.dropLast) :
    Local kernel p i may (openParent kernel p) (fun _ t => Still s t) s := by
  refine Local.call rfl fun calls => Local.read ?_
  rw [if_pos (show (s.atCall calls).disk.tree.HasDirectory p.dropLast from parent)]
  exact Local.pure ⟨calls, rfl⟩

theorem local_insertEntry (canonical : CanonicalPath p)
    (parent : s.disk.tree.HasDirectory p.dropLast) (free : s.disk.tree.entry? p = none) :
    Local kernel p i may (insertEntry call p m) (fun _ t => Sets p s (some ⟨p, m⟩) t) s := by
  obtain ⟨name, last, split⟩ := exists_name canonical
  have can : s.disk.tree.CanInsert p.dropLast name := by
    refine ⟨parent, fun node mem path => ?_⟩
    exact DirectoryTree.entry?_eq_none.mp free node mem (path.trans split)
  refine Local.read ?_
  rw [last]
  dsimp only
  rw [dif_pos can]
  refine Local.written (.of_tree (fun q ne => ?_) rfl) ⟨_, s.calls, rfl, ?_⟩
  · rw [DirectoryTree.entry?_insert, split, if_neg ne]
  · rw [DirectoryTree.entry?_insert, split, if_pos rfl]

theorem local_unlink (allowed : may) (found : s.disk.tree.entry? p = some n) (leaf : n.isDir = false) :
    Local kernel p i may (unlink kernel p) (fun _ t => Sets p s none t) s := by
  have only := DirectoryTree.leaf_of_not_isDir found leaf
  refine Local.mutate rfl allowed fun calls => Local.read ?_
  rw [show (s.atCall calls).disk.tree.entry? p = some n from found]
  dsimp only
  rw [leaf, if_neg Bool.false_ne_true]
  refine Local.written (.of_tree (fun q ne => ?_) rfl) ⟨_, calls, rfl, ?_⟩
  · exact (DirectoryTree.entry?_outside_of_leaf only).trans (if_neg ne)
  · exact (DirectoryTree.entry?_outside_of_leaf only).trans (if_pos rfl)

theorem local_removeDirectory (allowed : may) (found : s.disk.tree.entry? p = some n)
    (isDir : n.isDir = true) (empty : s.disk.tree.readDir p = []) :
    Local kernel p i may (removeDirectory kernel p) (fun _ t => Sets p s none t) s := by
  have only := DirectoryTree.leaf_of_empty empty
  refine Local.mutate rfl allowed fun calls => Local.read ?_
  rw [show (s.atCall calls).disk.tree.entry? p = some n from found]
  dsimp only
  rw [if_pos (by
    rw [isDir, show (s.atCall calls).disk.tree.readDir p = [] from empty]
    rfl)]
  refine Local.written (.of_tree (fun q ne => ?_) rfl) ⟨_, calls, rfl, ?_⟩
  · exact (DirectoryTree.entry?_outside_of_leaf only).trans (if_neg ne)
  · exact (DirectoryTree.entry?_outside_of_leaf only).trans (if_pos rfl)

theorem local_changeMetadata {change : Metadata → Metadata}
    {kept : ∀ m, (change m).fileType = m.fileType} (call : Call) (quiet : call.mutates? = none)
    (found : s.disk.tree.entry? p = some n) :
    Local kernel p i may (changeMetadata kernel call p change kept)
      (fun _ t => Sets p s (some { n with metadata := change n.metadata }) t) s := by
  refine Local.call quiet fun calls => Local.read ?_
  rw [show (s.atCall calls).disk.tree.entry? p = some n from found]
  refine Local.written (.of_tree (fun q ne => ?_) rfl) ⟨_, calls, rfl, ?_⟩
  · exact DirectoryTree.entry?_modify_of_ne ne
  · exact DirectoryTree.entry?_modify_self found

/-- A directory that its owner can write. -/
def IsPrivate (node : Node) : Prop :=
  node.isDir = true ∧ ownerWriteExecute node.metadata.mode = true

theorem local_createPrivateDirectoryStaged (allowed : may) (canonical : CanonicalPath p)
    (parent : s.disk.tree.HasDirectory p.dropLast) (free : s.disk.tree.entry? p = none) :
    Local kernel p i may (createPrivateDirectoryStaged kernel p)
      (fun _ t => ∃ node, IsPrivate node ∧ Sets p s (some node) t) s := by
  refine (local_openParent parent).bind ?_
  rintro - t - ⟨calls, rfl⟩
  refine Local.mutate rfl allowed fun calls' => ?_
  refine (local_insertEntry (s := (s.atCall calls).atCall calls') canonical parent free).bind ?_
  rintro - t - sets
  refine (local_changeMetadata (.normalizeDirectory p) rfl sets.entry).mono ?_
  rintro - u sets'
  have whole := Sets.after (.trans ⟨calls, rfl⟩ ⟨calls', rfl⟩) (sets.trans sets')
  exact ⟨_, ⟨decide_eq_true rfl, ownerWriteExecute_privateMode _⟩, whole⟩

theorem local_createSymlink {target : Path} (allowed : may) (canonical : CanonicalPath p)
    (parent : s.disk.tree.HasDirectory p.dropLast) (free : s.disk.tree.entry? p = none) :
    Local kernel p i may (createSymlink kernel p target)
      (fun _ t => ∃ m, m.fileType = .symlink target ∧ Sets p s (some ⟨p, m⟩) t) s := by
  refine (local_openParent parent).bind ?_
  rintro - t - ⟨calls, rfl⟩
  refine Local.mutate rfl allowed fun calls' => ?_
  refine (local_insertEntry (s := (s.atCall calls).atCall calls') canonical parent free).mono ?_
  rintro - t sets
  exact ⟨_, rfl, Sets.after (.trans ⟨calls, rfl⟩ ⟨calls', rfl⟩) sets⟩

theorem local_resultAt {entry : DirEntryWithMeta} (found : s.disk.tree.entry? p = some n) :
    Local kernel p i may (resultAt call p entry)
      (fun r t => t = s ∧ r = entry.setIno n.metadata.ino) s := by
  have inode : Local kernel p i may (inodeAt call p) (fun ino t => t = s ∧ ino = n.metadata.ino) s := by
    refine Local.read ?_
    rw [found]
    exact Local.pure ⟨rfl, rfl⟩
  refine inode.bind ?_
  rintro - t - ⟨rfl, rfl⟩
  exact Local.pure ⟨rfl, rfl⟩

/-- The metadata is what an entry of its kind asks for, and the inode is the same. -/
structure Updated (before : Metadata) (entry : DirEntryWithMeta) (m : Metadata) : Prop where
  fileType : m.fileType = before.fileType
  mode : entry.isSymlink = false → syncedMode m.mode = syncedMode entry.mode
  mtime : m.mtime = entry.mtime

theorem local_updateMetaStaged {entry : DirEntryWithMeta}
    (parent : s.disk.tree.HasDirectory p.dropLast) (found : s.disk.tree.entry? p = some n)
    (kind : (∃ target, entry.isSymlink = true ∧ n.metadata.fileType = .symlink target) ∨
      entry.isSymlink = false ∧ n.isDir = entry.isDir) :
    Local kernel p i may (updateMetaStaged kernel p entry)
      (fun r t => ∃ m, Updated n.metadata entry m ∧ Sets p s (some { n with metadata := m }) t ∧
        r = entry.setIno m.ino) s := by
  unfold updateMetaStaged
  rcases kind with ⟨target, isLink, kind⟩ | ⟨notLink, kind⟩
  · rw [if_pos isLink]
    refine (local_openParent parent).bind ?_
    rintro - t - ⟨calls, rfl⟩
    refine Local.read ?_
    rw [show (s.atCall calls).disk.tree.entry? p = some n from found]
    dsimp only
    rw [kind]
    refine (local_changeMetadata (s := s.atCall calls) (.setSymlinkTimes p) rfl found).bind ?_
    rintro - t - sets
    refine (local_resultAt sets.entry).mono ?_
    rintro r u ⟨rfl, rfl⟩
    refine ⟨withMtime entry.mtime n.metadata, ⟨rfl, fun notLink => ?_, rfl⟩,
      Sets.after ⟨calls, rfl⟩ sets, rfl⟩
    rw [isLink] at notLink
    cases notLink
  · rw [if_neg (by rw [notLink]; exact Bool.false_ne_true)]
    refine Local.call rfl fun calls => Local.read ?_
    rw [show (s.atCall calls).disk.tree.entry? p = some n from found]
    dsimp only
    rw [if_pos kind]
    refine (local_changeMetadata (s := s.atCall calls) (.setPermissions p) rfl found).bind ?_
    rintro - t - sets
    refine (local_changeMetadata (.setTimes p) rfl sets.entry).bind ?_
    rintro - u - sets'
    refine Local.call rfl fun calls' => ?_
    have synced : Still u (u.atCall calls') := ⟨calls', rfl⟩
    refine (local_resultAt ((sets'.still synced).entry)).mono ?_
    rintro r v ⟨rfl, rfl⟩
    refine ⟨withMtime entry.mtime (withMode entry.mode n.metadata),
      ⟨rfl, fun _ => syncedMode_chmod _ _, rfl⟩, ?_, rfl⟩
    exact Sets.after ⟨calls, rfl⟩ (sets.trans (sets'.still synced))

end Calls

/-! ## Results and records -/

/-- What a commit knows about one action: what is at its path, and its result. -/
structure Spot where
  node : Option Node
  bytes : List UInt8
  result : Option (Option DirEntryWithMeta)

def State.spot (s : State) (p : Path) (i : Nat) : Spot :=
  ⟨s.disk.tree.entry? p, s.contents p, s.localResults[i]?⟩

/-- Only the records are other ones, and more calls were made. -/
def Noted (s t : State) : Prop := ∃ records calls, t = { s with records := records, calls := calls }

section Results

variable {kernel : Kernel} {actions : Actions} {a : Action} {p q : Path} {i : Nat} {may : Prop}
  {s t : State} {n : Node} {entry : DirEntryWithMeta}

theorem spot_of_beside {p' : Path} {i' : Nat} (beside : Beside p i s t) (path : p' ≠ p)
    (index : i' ≠ i) : t.spot p' i' = s.spot p' i' := by
  unfold State.spot
  rw [beside.entries p' path, beside.contents p' path, beside.results i' index]

theorem Noted.spot (noted : Noted s t) : t.spot p i = s.spot p i := by
  obtain ⟨records, calls, rfl⟩ := noted
  rfl

theorem local_record {told : Marker.CommitRecord} (quiet : operation? told = none) :
    Local kernel p i may (record kernel q told) (fun _ t => Noted s t) s := by
  refine Local.call rfl fun calls => Local.read (Local.written ?_ ⟨_, calls, rfl⟩)
  refine ⟨⟨fun _ _ => rfl, rfl, fun _ _ => rfl, fun _ _ => rfl, rfl, fun _ _ => rfl⟩, ?_⟩
  intro r mem
  rcases List.mem_append.mp mem with old | new
  · exact .inl old
  · exact .inr (List.mem_singleton.mp new ▸ quiet)

theorem local_recordStep {step : Marker.CommitStep} :
    Local kernel p i may (recordStep kernel step q) (fun _ t => Noted s t) s :=
  local_record rfl

/-- A result can be kept when its slot is free and it has the path of its action. -/
theorem assignLocalResult_free {results : List (Option DirEntryWithMeta)}
    (isAction : actions[i]? = some a) (path : entry.path = a.path)
    (free : results[i]? = some none) :
    assignLocalResult actions results i entry = .ok (results.set i (some entry)) := by
  unfold assignLocalResult
  rw [isAction]
  dsimp only
  rw [if_neg (not_not.mpr path), free]

theorem getElem?_set_free {results : List (Option DirEntryWithMeta)}
    (free : results[i]? = some none) : (results.set i (some entry))[i]? = some (some entry) := by
  obtain ⟨bound, -⟩ := List.getElem?_eq_some_iff.mp free
  rw [List.getElem?_set_self bound]

theorem Near.of_result {results : List (Option DirEntryWithMeta)}
    (others : ∀ j, j ≠ i → results[j]? = s.localResults[j]?)
    (length : results.length = s.localResults.length) :
    Near p i s { s with localResults := results } :=
  ⟨⟨fun _ _ => rfl, rfl, fun _ _ => rfl, others, length, fun _ _ => rfl⟩, fun _ mem => .inl mem⟩

theorem local_assignResult (isAction : actions[i]? = some a) (path : entry.path = a.path)
    (free : s.localResults[i]? = some none) :
    Local kernel p i may (assignResult actions i entry)
      (fun _ t => t = { s with localResults := s.localResults.set i (some entry) }) s := by
  refine Local.read ?_
  rw [assignLocalResult_free isAction path free]
  refine Local.written (.of_result (fun j ne => ?_) List.length_set) rfl
  rw [List.getElem?_set_ne ne.symm]

theorem local_updateEntry (isAction : actions[i]? = some a) (path : entry.path = a.path)
    (free : s.localResults[i]? = some none) (parent : s.disk.tree.HasDirectory p.dropLast)
    (found : s.disk.tree.entry? p = some n)
    (kind : (∃ target, entry.isSymlink = true ∧ n.metadata.fileType = .symlink target) ∨
      entry.isSymlink = false ∧ n.isDir = entry.isDir) :
    Local kernel p i may (updateEntry kernel actions i p entry)
      (fun _ t => ∃ m, Updated n.metadata entry m ∧
        t.spot p i = ⟨some { n with metadata := m }, s.contents p, some (some (entry.setIno m.ino))⟩)
      s := by
  refine (local_updateMetaStaged parent found kind).bind ?_
  rintro result t - ⟨m, updated, ⟨tree, calls, rfl, here⟩, rfl⟩
  have assigned := @local_assignResult kernel actions a p i may ((s.withTree tree).atCall calls)
    (entry.setIno m.ino) isAction path free
  refine assigned.bind ?_
  rintro - u - rfl
  refine local_recordStep.mono ?_
  rintro - v noted
  refine ⟨m, updated, noted.spot.trans ?_⟩
  unfold State.spot
  exact congrArg₂ (fun node result => (⟨node, s.contents p, result⟩ : Spot)) here
    (getElem?_set_free free)

end Results

/-! ## Publication -/

section Publication

variable {kernel : Kernel} {hashes : Detail.ContentHashes} {p : Path} {i : Nat} {may : Prop}
  {s t : State} {m : Metadata} {prepared : Detail.PreparedOutput} {call : Call}

theorem Sets.spot {node : Option Node} (sets : Sets p s node t) :
    t.spot p i = ⟨node, s.contents p, s.localResults[i]?⟩ := by
  obtain ⟨tree, calls, rfl, here⟩ := sets
  unfold State.spot
  rw [← here]
  rfl

theorem local_placeEntry (canonical : CanonicalPath p)
    (parent : s.disk.tree.HasDirectory p.dropLast)
    (leaf : ∀ n, s.disk.tree.entry? p = some n → n.isDir = false) :
    Local kernel p i may (placeEntry call p m) (fun _ t => Sets p s (some ⟨p, m⟩) t) s := by
  refine Local.read ?_
  cases found : s.disk.tree.entry? p with
  | none => exact local_insertEntry canonical parent found
  | some n =>
    have only := DirectoryTree.leaf_of_not_isDir found (leaf n found)
    dsimp only
    rw [leaf n found, if_neg Bool.false_ne_true]
    have gone : DirectoryTree.entry? (s.disk.tree.outside p) p = none :=
      (DirectoryTree.entry?_outside_of_leaf only).trans (if_pos rfl)
    have near : Near p i s (s.withTree (s.disk.tree.outside p)) := by
      refine .of_tree (fun q ne => ?_) rfl
      exact (DirectoryTree.entry?_outside_of_leaf only).trans (if_neg ne)
    refine Local.write near ?_
    have parent' := hasDirectory_of_near near.toBeside canonical.1 parent
    refine (local_insertEntry canonical parent' gone).mono fun _ t sets => ?_
    exact Sets.trans ⟨s.disk.tree.outside p, s.calls, rfl, gone⟩ sets

/-- The staged file is at its path. -/
theorem local_place (path : prepared.output.finalPath = p) (canonical : CanonicalPath p)
    (parent : s.disk.tree.HasDirectory p.dropLast)
    (leaf : ∀ n, s.disk.tree.entry? p = some n → n.isDir = false) :
    Local kernel p i may (place call prepared)
      (fun _ t => t.spot p i = ⟨some ⟨p, stagedMetadata s.disk.tree.dev prepared⟩,
        prepared.output.file, s.localResults[i]?⟩) s := by
  subst path
  refine Local.read ((local_placeEntry canonical parent leaf).bind ?_)
  rintro - t - sets
  refine Local.read (Local.written ?_ ?_)
  · refine ⟨⟨fun _ _ => rfl, rfl, fun q ne => ?_, fun _ _ => rfl, rfl, fun _ _ => rfl⟩, ?_⟩
    · exact Function.update_of_ne ne _ _
    · exact fun _ mem => .inl mem
  · have spot : t.spot prepared.output.finalPath i = _ := sets.spot
    unfold State.spot at spot ⊢
    rw [Spot.mk.injEq] at spot ⊢
    exact ⟨spot.1, Function.update_self _ _ _, spot.2.2⟩

theorem local_preparePublication (path : prepared.output.finalPath = p)
    (verified : Detail.verifyContents hashes prepared.finalEntry prepared.output.file = .ok ())
    (parent : s.disk.tree.HasDirectory p.dropLast) :
    Local kernel p i may (preparePublication kernel hashes prepared) (fun _ t => Still s t) s := by
  subst path
  refine Local.call rfl fun calls => ?_
  rw [verified]
  refine Local.call rfl fun calls' => ?_
  refine (local_openParent (s := (s.atCall calls).atCall calls') parent).mono ?_
  exact fun _ t still => .trans (.trans ⟨calls, rfl⟩ ⟨calls', rfl⟩) still

/-- The name of a link that is made is free. -/
theorem looks_checkFree {description : String} (free : s.disk.tree.entry? p = none) :
    Looks kernel s (checkFree description p) (fun _ => True) False := by
  refine Looks.read ?_
  rw [free]
  exact Looks.pure trivial

/-- No directory is missing above an entry whose directory is there. -/
theorem looks_ensureParentDirectoryStaged (parent : s.disk.tree.HasDirectory p.dropLast) :
    Looks kernel s (ensureParentDirectoryStaged kernel p) (fun _ => True) False := by
  have exists_ : Looks kernel s (tryExists kernel p.dropLast) (fun found => found = true) False := by
    unfold tryExists
    split
    · exact Looks.pure rfl
    · rename_i nonempty
      rcases DirectoryTree.hasDirectory_iff.mp parent with empty | ⟨n, found, isDir⟩
      · rw [empty] at nonempty
        exact absurd rfl nonempty
      · refine looks_look.bind ?_
        rintro found' calls rfl
        rw [DirectoryTree.lookup_of_entry found]
        have directory : n.metadata.fileType = .directory := of_decide_eq_true isDir
        dsimp only
        rw [directory]
        exact Looks.pure rfl
  have missing : Looks kernel s (missingDirectories kernel (Path.ancestors p.dropLast))
      (fun missing => missing = []) False := by
    have first : Path.ancestors p.dropLast = p.dropLast :: (Path.ancestors p.dropLast).tail := by
      unfold Path.ancestors
      generalize p.dropLast = dir
      induction dir using List.reverseRecOn with
      | nil => rfl
      | append_singleton dir c _ => simp
    rw [first]
    refine exists_.bind ?_
    rintro - calls rfl
    exact Looks.pure rfl
  refine missing.bind ?_
  rintro - calls rfl
  exact Looks.pure trivial

end Publication

end Duet.Commit
