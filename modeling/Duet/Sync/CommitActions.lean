import Duet.Sync.CommitSteps

/-!
# The forward pass at one action

What the forward pass leaves at the path of an action (`Forwarded`): a change that is no
change of a directory is finished, a new directory is there for its owner only, and an old
directory is as it was.
-/

namespace Duet.Commit

open Lib

/-! ## What a spot shows -/

/-- What an entry describes is there, or nothing is. -/
def Shows (hashes : Detail.ContentHashes) (node : Option Node) (bytes : List UInt8) :
    Option DirEntryWithMeta → Prop
  | none => node = none
  | some entry => ∃ n, node = some n ∧ Matches hashes bytes n.metadata entry

/-- The result of a change that left this node. -/
def resultOf (c : Change) (node : Option Node) : Option DirEntryWithMeta :=
  match c.newEntry, node with
  | some entry, some n => some (entry.setIno n.metadata.ino)
  | _, _ => none

/-- What the change is made from is there, and there is no result yet. -/
structure Waiting (hashes : Detail.ContentHashes) (c : Change) (spot : Spot) : Prop where
  shows : Shows hashes spot.node spot.bytes c.oldEntry
  free : spot.result = some none

/-- What the change leaves is there, with its result. -/
structure Finished (hashes : Detail.ContentHashes) (c : Change) (spot : Spot) : Prop where
  shows : Shows hashes spot.node spot.bytes c.newEntry
  result : spot.result = some (resultOf c spot.node)

/-- What the forward pass makes of a spot. -/
inductive Forwarded (hashes : Detail.ContentHashes) (c : Change) (before : Spot) : Spot → Prop where
  /-- an old directory -/
  | kept {old : DirEntryWithMeta} (isOld : c.oldEntry = some old) (isDir : old.isDir = true) :
      Forwarded hashes c before before
  /-- a new directory -/
  | made {entry : DirEntryWithMeta} {n : Node} {bytes : List UInt8}
      (isNew : c.newEntry = some entry) (isDir : entry.isDir = true)
      (leaf : ∀ old, c.oldEntry = some old → old.isDir = false) (isPrivate : IsPrivate n) :
      Forwarded hashes c before ⟨some n, bytes, some none⟩
  | finished {spot : Spot} (notDir : c.isDir = false) (finished : Finished hashes c spot) :
      Forwarded hashes c before spot

/-- The change puts an entry into its directory, or takes one from it, by a call that needs
the rights of its owner. Publications do not. -/
def Mutates : Change → Prop
  | .removed _ => True
  | .added entry => entry.isFile = false
  | .modified old new => old.isDir = false ∧ new.isFile = false

/-- An action of a plan with the change that it carries out here. -/
structure Slot (actions : Actions) (a : Action) (i : Nat) (c : Change) : Prop where
  isAction : actions[i]? = some a
  applied : a.appliedChange = some c
  canonical : CanonicalPath a.path
  paths : c.PathsAgree ∧ c.path = a.path
  keeps : ∀ old new, c = .modified old new → old.isDir = true → new.isDir = true
  plain : ∀ e, c.oldEntry = some e ∨ c.newEntry = some e → e.isDir = true → e.target = none
  digests : ∀ e, c.oldEntry = some e ∨ c.newEntry = some e → e.isFile = true → e.digest.isSome

section Entries

variable {hashes : Detail.ContentHashes} {c : Change} {e : DirEntryWithMeta} {s : State} {p : Path}
  {i : Nat} {spot : Spot}

theorem path_of_oldEntry (agree : c.PathsAgree) (isOld : c.oldEntry = some e) : e.path = c.path := by
  cases c with
  | added entry => cases isOld
  | removed entry =>
    cases isOld
    rfl
  | modified old new =>
    cases isOld
    exact agree

/-- The three kinds of entries. -/
theorem isFile_iff : e.isFile = true ↔ e.isDir = false ∧ e.target = none := by
  simp [DirEntryWithMeta.isFile, DirEntryWithMeta.isSymlink]

/-- A node that an entry describes is a directory when the entry is one. -/
theorem Matches.isDir_eq {bytes : List UInt8} {n : Node} (fits : Matches hashes bytes n.metadata e) :
    n.isDir = e.isDir := by
  unfold Node.isDir
  cases isDir : e.isDir with
  | true => exact decide_eq_true (fits.directory isDir)
  | false =>
    refine decide_eq_false fun directory => ?_
    cases target : e.target with
    | none =>
      rw [(fits.file (isFile_iff.mpr ⟨isDir, target⟩)).1] at directory
      cases directory
    | some target =>
      rw [fits.symlink isDir _ ‹_›] at directory
      cases directory

/-- A file with other metadata has the contents that it had. -/
theorem verifyContents_of_same {old new : DirEntryWithMeta} {bytes : List UInt8}
    (files : old.isFile = true ∧ new.isFile = true)
    (digests : old.digest.isSome ∧ new.digest.isSome) (same : old.sameContents new = true)
    (verified : Detail.verifyContents hashes old bytes = .ok ()) :
    Detail.verifyContents hashes new bytes = .ok () := by
  obtain ⟨left, isLeft⟩ := Option.isSome_iff_exists.mp digests.1
  obtain ⟨right, isRight⟩ := Option.isSome_iff_exists.mp digests.2
  unfold DirEntryWithMeta.sameContents at same
  simp only [files.1, files.2, isLeft, isRight, Bool.and_self, Bool.and_eq_true, beq_iff_eq] at same
  obtain ⟨size, rfl⟩ := same
  unfold Detail.verifyContents at verified ⊢
  rw [isLeft, size] at verified
  rw [isRight]
  dsimp only at verified ⊢
  split at verified
  · cases verified
  · split at verified
    · cases verified
    · rename_i count actual
      rw [if_neg count, if_neg actual]

/-- The change of an added or modified entry is one of a directory when the new entry is. -/
theorem isDir_of_new (isNew : c.newEntry = some e)
    (leaf : ∀ old, c.oldEntry = some old → old.isDir = false) : c.isDir = e.isDir := by
  cases c with
  | added entry =>
    cases isNew
    rfl
  | removed entry => cases isNew
  | modified old new =>
    cases isNew
    change (old.isDir || e.isDir) = e.isDir
    rw [leaf old rfl, Bool.false_or]

theorem resultOf_some {n : Node} (isNew : c.newEntry = some e) :
    resultOf c (some n) = some (e.setIno n.metadata.ino) := by
  unfold resultOf
  rw [isNew]

theorem resultOf_none (isNew : c.newEntry = none) {node : Option Node} :
    resultOf c node = none := by
  unfold resultOf
  rw [isNew]

/-- A link or directory that got its metadata is what its entry says. -/
theorem Updated.matches {before m : Metadata} {bytes : List UInt8} (updated : Updated before e m)
    (file : e.isFile = true → before.fileType = .file ∧
      Detail.verifyContents hashes e bytes = .ok ())
    (directory : e.isDir = true → before.fileType = .directory)
    (symlink : e.isDir = false → ∀ target, e.target = some target →
      before.fileType = .symlink target) : Matches hashes bytes m e where
  file isFile := ⟨updated.fileType.trans (file isFile).1, (file isFile).2⟩
  directory isDir := updated.fileType.trans (directory isDir)
  symlink notDir target isTarget := updated.fileType.trans (symlink notDir target isTarget)
  mode := updated.mode
  mtime := fun _ => updated.mtime

end Entries

/-! ## Changes without a staged output -/

section Changes

variable {kernel : Kernel} {hashes : Detail.ContentHashes} {actions : Actions} {a : Action}
  {c : Change} {i : Nat} {s : State} {e old : DirEntryWithMeta} {before : Spot}

theorem Slot.path_new (slot : Slot actions a i c) (isNew : c.newEntry = some e) :
    e.path = a.path := (Change.path_of_newEntry isNew).trans slot.paths.2

theorem Slot.path_old (slot : Slot actions a i c) (isOld : c.oldEntry = some e) :
    e.path = a.path := (path_of_oldEntry slot.paths.1 isOld).trans slot.paths.2

/-- The path of an entry is joined to the base as it is. -/
theorem joinBase_canonical {p : Path} (canonical : CanonicalPath p) : joinBase p = .ok p := by
  unfold joinBase
  rw [canonical.validateRelativePath]
  have relative : p.Relative := fun inside => by cases canonical.2 _ inside
  have whole : canonicalRelativePath p = p := by
    rw [canonicalRelativePath_eq relative, List.filter_eq_self]
    intro component inside
    have normal := canonical.2 component inside
    cases component with
    | normal name => rfl
    | _ => cases normal
  rw [whole]

theorem local_createEntry (slot : Slot actions a i c) (mutates : Mutates c)
    (isNew : c.newEntry = some e) (notFile : e.isFile = false)
    (leaf : ∀ old, c.oldEntry = some old → old.isDir = false)
    (parent : s.disk.tree.HasDirectory a.path.dropLast)
    (free : s.disk.tree.entry? a.path = none) (empty : s.localResults[i]? = some none) :
    Local kernel a.path i (Mutates c) (createEntry kernel actions i a.path e)
      (fun _ t => Forwarded hashes c before (t.spot a.path i)) s := by
  have path := slot.path_new isNew
  have sameDir := isDir_of_new isNew leaf
  unfold createEntry
  cases isTarget : e.target with
  | some target =>
    have notDir : e.isDir = false := by
      refine Bool.eq_false_iff.mpr fun isDir => ?_
      have none := slot.plain e (.inr isNew) isDir
      rw [isTarget] at none
      cases none
    have isLink : e.isSymlink = true := by
      unfold DirEntryWithMeta.isSymlink
      rw [isTarget]
      rfl
    refine (local_createSymlink mutates slot.canonical parent free).bind ?_
    rintro - t near ⟨m, kind, sets⟩
    refine local_recordStep.bind ?_
    rintro - u near' noted
    have spot : u.spot a.path i = ⟨some ⟨a.path, m⟩, s.contents a.path, some none⟩ :=
      noted.spot.trans (sets.spot.trans (by rw [empty]))
    have found : u.disk.tree.entry? a.path = some ⟨a.path, m⟩ := congrArg Spot.node spot
    have bytes : u.contents a.path = s.contents a.path := congrArg Spot.bytes spot
    have parent' := hasDirectory_of_near (near.trans near').toBeside slot.canonical.1 parent
    refine (local_updateEntry slot.isAction path (congrArg Spot.result spot) parent' found
      (.inl ⟨target, isLink, kind⟩)).mono ?_
    rintro - v ⟨m', updated, last⟩
    refine .finished (sameDir.trans notDir) ⟨?_, ?_⟩
    · rw [isNew, last]
      refine ⟨_, rfl, updated.matches ?_ ?_ ?_⟩
      · exact fun isFile => absurd isFile (Bool.eq_false_iff.mp notFile)
      · exact fun isDir => absurd isDir (Bool.eq_false_iff.mp notDir)
      · intro _ other isOther
        rw [isTarget] at isOther
        cases isOther
        exact kind
    · rw [last, resultOf_some isNew]
  | none =>
    have isDir : e.isDir = true := by
      by_contra notDir
      rw [isFile_iff.mpr ⟨Bool.eq_false_iff.mpr notDir, isTarget⟩] at notFile
      cases notFile
    dsimp only
    rw [if_pos isDir]
    refine (local_createPrivateDirectoryStaged mutates slot.canonical parent free).bind ?_
    rintro - t - ⟨n, isPrivate, sets⟩
    refine local_recordStep.mono ?_
    rintro - u noted
    rw [noted.spot, sets.spot, empty]
    exact .made isNew isDir leaf isPrivate

/-- What is there is what the old entry says, before an entry is changed. -/
theorem local_verify {description : String} {p : Path} {may : Prop} (unseen : kernel.Unseen p)
    (fits : Fits hashes s p e) :
    Local kernel p i may (verifyCurrentMatchesEntry kernel hashes p e description)
      (fun _ t => Still s t) s :=
  ((looks_verifyCurrentMatchesEntry unseen).local (not_not.mpr fits)).mono fun _ _ post => post.1

/-- A file or link goes. -/
theorem local_takeAway {step : Marker.CommitStep} {q : Path} {description : String} {may : Prop}
    (allowed : may) (unseen : kernel.Unseen a.path) (fits : Fits hashes s a.path old)
    (notDir : old.isDir = false) :
    Local kernel a.path i may (do
        verifyCurrentMatchesEntry kernel hashes a.path old description
        openParent kernel a.path
        unlink kernel a.path
        recordStep kernel step q)
      (fun _ t => t.spot a.path i = ⟨none, s.contents a.path, s.localResults[i]?⟩) s := by
  obtain ⟨n, found, isMatch⟩ := fits
  refine (local_verify unseen ⟨n, found, isMatch⟩).bind ?_
  rintro - t - ⟨calls, rfl⟩
  refine (local_openParent (s := s.atCall calls) (DirectoryTree.hasDirectory_of_entry found)).bind ?_
  rintro - t - ⟨calls', rfl⟩
  refine (local_unlink (s := (s.atCall calls).atCall calls') allowed found
    (isMatch.isDir_eq.trans notDir)).bind ?_
  rintro - t - sets
  refine local_recordStep.mono ?_
  rintro - u noted
  exact noted.spot.trans sets.spot

theorem local_replaceEntry {removed : Marker.CommitStep} (slot : Slot actions a i c)
    (mutates : Mutates c) (unseen : kernel.Unseen a.path) (isOld : c.oldEntry = some old)
    (isNew : c.newEntry = some e) (notDir : old.isDir = false) (notFile : e.isFile = false)
    (waiting : Waiting hashes c (s.spot a.path i)) :
    Local kernel a.path i (Mutates c) (replaceEntry kernel hashes actions i a.path removed old e)
      (fun _ t => Forwarded hashes c before (t.spot a.path i)) s := by
  have fits : Fits hashes s a.path old := by
    have shows := waiting.shows
    rwa [isOld] at shows
  have parent : s.disk.tree.HasDirectory a.path.dropLast := by
    obtain ⟨n, found, -⟩ := fits
    exact DirectoryTree.hasDirectory_of_entry found
  have whole : replaceEntry kernel hashes actions i a.path removed old e = (do
      verifyCurrentMatchesEntry kernel hashes a.path old "replace target"
      openParent kernel a.path
      unlink kernel a.path
      recordStep kernel removed old.path) >>= fun _ => createEntry kernel actions i a.path e := by
    unfold replaceEntry
    simp only [bind_assoc]
  rw [whole]
  refine (local_takeAway mutates unseen fits notDir).bind ?_
  rintro - t near spot
  refine local_createEntry slot mutates isNew notFile ?_
    (hasDirectory_of_near near.toBeside slot.canonical.1 parent) (congrArg Spot.node spot) ?_
  · intro other isOther
    rw [isOld] at isOther
    cases isOther
    exact notDir
  · exact (congrArg Spot.result spot).trans waiting.free

/-- A change that has no staged output. -/
theorem local_applyChange (slot : Slot actions a i c) (unseen : kernel.Unseen a.path)
    (detail : applyDetailKindForChange c = none) (waiting : Waiting hashes c (s.spot a.path i))
    (parent : s.disk.tree.HasDirectory a.path.dropLast) :
    Local kernel a.path i (Mutates c) (applyChange kernel hashes actions i c)
      (fun _ t => Forwarded hashes c (s.spot a.path i) (t.spot a.path i)) s := by
  cases c with
  | removed entry =>
    have path : entry.path = a.path := slot.path_old rfl
    unfold applyChange
    dsimp only
    rw [path, joinBase_canonical slot.canonical]
    change Local _ _ _ _ (if entry.isDir then _ else _) _ _
    cases isDir : entry.isDir with
    | true => exact Local.pure (.kept rfl isDir)
    | false =>
      rw [if_neg Bool.false_ne_true]
      refine (local_takeAway trivial unseen waiting.shows isDir).mono ?_
      intro _ t spot
      rw [spot]
      exact .finished isDir ⟨rfl, waiting.free⟩
  | added entry =>
    have path : entry.path = a.path := slot.path_new rfl
    have notFile : entry.isFile = false := by
      by_contra isFile
      simp [applyDetailKindForChange, isFile] at detail
    unfold applyChange
    dsimp only
    rw [path, joinBase_canonical slot.canonical]
    refine ((looks_ensureParentDirectoryStaged parent).local id).bind ?_
    rintro - t - ⟨⟨calls, rfl⟩, -⟩
    refine local_createEntry (s := s.atCall calls) slot notFile rfl notFile ?_ parent
      waiting.shows waiting.free
    intro old isOld
    cases isOld
  | modified e1 e2 =>
    have path : e2.path = a.path := slot.path_new rfl
    obtain ⟨n, found, isMatch⟩ := waiting.shows
    unfold applyChange
    dsimp only
    rw [path, joinBase_canonical slot.canonical]
    change Local _ _ _ _ (if e1.isFile then _ else _) _ _
    cases isFile1 : e1.isFile with
    | true =>
      obtain ⟨notDir1, -⟩ := isFile_iff.mp isFile1
      rw [if_pos rfl]
      cases isFile2 : e2.isFile with
      | false =>
        rw [if_neg Bool.false_ne_true]
        exact local_replaceEntry slot ⟨notDir1, isFile2⟩ unseen rfl rfl notDir1 isFile2 waiting
      | true =>
        obtain ⟨notDir2, noTarget2⟩ := isFile_iff.mp isFile2
        have same : e1.sameContents e2 = true := by
          by_contra differs
          simp [applyDetailKindForChange, isFile1, isFile2, differs] at detail
        rw [if_pos rfl, same]
        change Local _ _ _ _ (verifyCurrentMatchesEntry _ _ _ _ _ >>= fun _ => _) _ _
        refine (local_verify unseen ⟨n, found, isMatch⟩).bind ?_
        rintro - t - ⟨calls, rfl⟩
        have notLink : e2.isSymlink = false := by
          unfold DirEntryWithMeta.isSymlink
          rw [noTarget2]
          rfl
        refine (local_updateEntry (s := s.atCall calls) slot.isAction path waiting.free parent found
          (.inr ⟨notLink, ?_⟩)).mono ?_
        · rw [isMatch.isDir_eq, notDir1, notDir2]
        · rintro - u ⟨m, updated, last⟩
          refine .finished ?_ ⟨?_, ?_⟩
          · change (e1.isDir || e2.isDir) = false
            rw [notDir1, notDir2]
            rfl
          · rw [last]
            refine ⟨_, rfl, updated.matches ?_ ?_ ?_⟩
            · obtain ⟨kind, verified⟩ := isMatch.file isFile1
              refine fun _ => ⟨kind, verifyContents_of_same ⟨isFile1, isFile2⟩ ⟨?_, ?_⟩ same verified⟩
              · exact slot.digests e1 (.inl rfl) isFile1
              · exact slot.digests e2 (.inr rfl) isFile2
            · exact fun isDir => absurd isDir (Bool.eq_false_iff.mp notDir2)
            · intro _ target isTarget
              rw [noTarget2] at isTarget
              cases isTarget
          · rw [last]
            rfl
    | false =>
      rw [if_neg Bool.false_ne_true]
      have notFile2 : e1.isFile = false → e2.isFile = false := by
        intro notFile
        by_contra isFile
        rw [Bool.not_eq_false] at isFile
        simp [applyDetailKindForChange, notFile, isFile] at detail
      cases isLink : e1.isSymlink with
      | true =>
        have notDir1 : e1.isDir = false := by
          refine Bool.eq_false_iff.mpr fun isDir => ?_
          have none := slot.plain e1 (.inl rfl) isDir
          rw [DirEntryWithMeta.isSymlink, none] at isLink
          cases isLink
        rw [if_pos rfl, notFile2 isFile1, if_neg Bool.false_ne_true]
        exact local_replaceEntry slot ⟨notDir1, notFile2 isFile1⟩ unseen rfl rfl notDir1
          (notFile2 isFile1) waiting
      | false =>
        have isDir1 : e1.isDir = true := by
          by_contra notDir
          simp [DirEntryWithMeta.isFile, isLink, notDir] at isFile1
        rw [if_neg Bool.false_ne_true, notFile2 isFile1, if_neg Bool.false_ne_true]
        exact Local.pure (.kept rfl isDir1)

end Changes

/-! ## Records of what is carried out -/

section Told

variable {kernel : Kernel} {hashes : Detail.ContentHashes} {actions : Actions} {a : Action}
  {c : Change} {i : Nat} {may : Prop} {α β : Type} {s t u : State}

/-- The change of an action is in place. -/
def InPlace (hashes : Detail.ContentHashes) (a : Action) (s : State) : Prop :=
  ∀ c, a.appliedChange = some c →
    Shows hashes (s.disk.tree.entry? a.path) (s.contents a.path) c.newEntry

/-- The action carries out no change of a directory. -/
def Leaf (a : Action) : Prop := ∀ c, a.appliedChange = some c → c.isDir = false

/-- What was recorded from `s` to `t` as carried out is this action, which changes no directory
and is in place. -/
def Told (hashes : Detail.ContentHashes) (a : Action) (s t : State) : Prop :=
  ∀ r ∈ t.records, r ∈ s.records ∨ ∀ b, operation? r = some b →
    b = a ∧ Leaf a ∧ InPlace hashes a t

theorem Slot.isLeaf (slot : Slot actions a i c) (notDir : c.isDir = false) : Leaf a := by
  intro c' isChange
  rw [slot.applied] at isChange
  cases isChange
  exact notDir

theorem Told.of_near {p : Path} (near : Near p i s t) : Told hashes a s t := by
  intro r mem
  refine (near.records r mem).imp_right fun quiet b isOperation => ?_
  rw [quiet] at isOperation
  cases isOperation

theorem Told.after {p : Path} (near : Near p i s t) (told : Told hashes a t u) :
    Told hashes a s u := by
  intro r mem
  rcases told r mem with old | inPlace
  · refine (near.records r old).imp_right fun quiet b isOperation => ?_
    rw [quiet] at isOperation
    cases isOperation
  · exact .inr inPlace

theorem Finished.inPlace (applied : a.appliedChange = some c)
    (finished : Finished hashes c (s.spot a.path i)) : InPlace hashes a s := by
  intro c' isChange
  rw [applied] at isChange
  cases isChange
  exact finished.shows

theorem InPlace.mono (inPlace : InPlace hashes a s)
    (node : t.disk.tree.entry? a.path = s.disk.tree.entry? a.path)
    (bytes : t.contents a.path = s.contents a.path) : InPlace hashes a t := by
  intro c isChange
  rw [node, bytes]
  exact inPlace c isChange

/-- A step that carries out one action, or fails because a call was refused. In both cases
the records are true. -/
def Carries (kernel : Kernel) (hashes : Detail.ContentHashes) (a : Action) (i : Nat) (may : Prop)
    (m : Committing α) (Q : State → Prop) (s : State) : Prop :=
  m.Ends (fun _ t => Beside a.path i s t ∧ Told hashes a s t ∧ Q t)
    (fun e t => Beside a.path i s t ∧ Told hashes a s t ∧ Refused kernel a.path may t.disk.tree e) s

theorem Carries.of_local {m : Committing α} {Q : α → State → Prop} {R : State → Prop}
    (step : Local kernel a.path i may m Q s) (weaker : ∀ x t, Q x t → R t) :
    Carries kernel hashes a i may m R s :=
  Effect.Ends.mono step (fun x t post => ⟨post.1.toBeside, .of_near post.1, weaker x t post.2⟩)
    fun _ _ fails => ⟨fails.near.toBeside, .of_near fails.near, fails.refused⟩

theorem Carries.bind {m : Committing α} {f : α → Committing β} {Q : α → State → Prop}
    {R : State → Prop} (first : Local kernel a.path i may m Q s)
    (rest : ∀ x t, Near a.path i s t → Q x t → Carries kernel hashes a i may (f x) R t) :
    Carries kernel hashes a i may (m >>= f) R s := by
  unfold Carries
  rw [Effect.ends_bind]
  refine Effect.Ends.mono first ?_ ?_
  · rintro x t ⟨near, post⟩
    refine Effect.Ends.mono (rest x t near post) ?_ ?_
    · exact fun y u post => ⟨near.toBeside.trans post.1, .after near post.2.1, post.2.2⟩
    · exact fun e u post => ⟨near.toBeside.trans post.1, .after near post.2.1, post.2.2⟩
  · exact fun e t fails => ⟨fails.near.toBeside, .of_near fails.near, fails.refused⟩

/-- From `s` to `t` only records were added, and results and calls. -/
structure SameDisk (s t : State) : Prop where
  disk : t.disk = s.disk
  contents : t.contents = s.contents

theorem carries_record {q : Path} {told : Marker.CommitRecord} {f : Unit → Committing β}
    {R : State → Prop} (operation : operation? told = some a) (leaf : Leaf a)
    (inPlace : InPlace hashes a s)
    (rest : ∀ t, Noted s t → (f ()).Ends
      (fun _ u => Near a.path i t u ∧ SameDisk t u ∧ R u)
      (fun e u => Near a.path i t u ∧ SameDisk t u ∧ Refused kernel a.path may u.disk.tree e) t) :
    Carries kernel hashes a i may (record kernel q told >>= f) R s := by
  have whole : (record kernel q told >>= f) = perform kernel (.record q) >>= fun _ =>
      update (fun s => { s with records := s.records ++ [told] }) >>= f := by
    unfold record
    rw [bind_assoc]
  rw [whole]
  refine Carries.bind (local_perform nofun) ?_
  rintro - t - ⟨-, calls, rfl⟩
  -- all that happens after the record leaves the action in place
  let t : State := { s.atCall calls with records := s.records ++ [told] }
  have after : ∀ u, Near a.path i t u → SameDisk t u →
      Beside a.path i (s.atCall calls) u ∧ Told hashes a (s.atCall calls) u := by
    intro u near same
    have first : Beside a.path i (s.atCall calls) t :=
      ⟨fun _ _ => rfl, rfl, fun _ _ => rfl, fun _ _ => rfl, rfl, fun _ _ => rfl⟩
    have inPlace' : InPlace hashes a u :=
      inPlace.mono (by rw [same.disk]; rfl) (by rw [same.contents]; rfl)
    refine ⟨first.trans near.toBeside, fun r mem => ?_⟩
    rcases near.records r mem with old | quiet
    · refine (List.mem_append.mp old).imp_right fun new b isOperation => ?_
      rw [List.mem_singleton.mp new, operation] at isOperation
      cases isOperation
      exact ⟨rfl, leaf, inPlace'⟩
    · refine .inr fun b isOperation => ?_
      rw [quiet] at isOperation
      cases isOperation
  refine Effect.Ends.mono (rest t ⟨_, calls, rfl⟩) ?_ ?_
  · rintro y u ⟨near, same, post⟩
    exact ⟨(after u near same).1, (after u near same).2, post⟩
  · rintro e u ⟨near, same, refused⟩
    exact ⟨(after u near same).1, (after u near same).2, refused⟩

end Told

/-! ## Changes with a staged output -/

/-- A staged output is for the change: the new file, and how it gets its name. -/
structure OutputFits (c : Change) (prepared : Detail.PreparedOutput) : Prop where
  path : prepared.output.finalPath = c.path
  entry : ∃ entry ino, c.newEntry = some entry ∧ entry.isFile = true ∧
    prepared.finalEntry = entry.setIno ino
  replaces : ∀ old, c.oldEntry = some old → prepared.publication = .replace old
  appears : c.oldEntry = none → ∃ description, prepared.publication = .noReplace description

section Outputs

variable {kernel : Kernel} {hashes : Detail.ContentHashes} {actions : Actions} {a : Action}
  {c : Change} {i : Nat} {s : State} {prepared : Detail.PreparedOutput}

/-- The output is what its entry says. -/
abbrev Verified (hashes : Detail.ContentHashes) (prepared : Detail.PreparedOutput) : Prop :=
  Detail.verifyContents hashes prepared.finalEntry prepared.output.file = .ok ()

/-- The spot once the output has its name, with this result. -/
def publishedSpot (p : Path) (dev : UInt64) (prepared : Detail.PreparedOutput)
    (result : Option DirEntryWithMeta) : Spot :=
  ⟨some ⟨p, stagedMetadata dev prepared⟩, prepared.output.file, some result⟩

/-- A published output is what the change leaves. -/
theorem shows_published {p : Path} {dev : UInt64} (fits : OutputFits c prepared)
    (verified : Verified hashes prepared) :
    Shows hashes (some ⟨p, stagedMetadata dev prepared⟩) prepared.output.file c.newEntry := by
  obtain ⟨entry, ino, isNew, isFile, final⟩ := fits.entry
  obtain ⟨notDir, noTarget⟩ := isFile_iff.mp isFile
  unfold Verified at verified
  rw [final] at verified
  rw [isNew]
  refine ⟨_, rfl, fun _ => ⟨rfl, verified⟩, fun isDir => ?_, fun _ target isTarget => ?_, ?_, ?_⟩
  · rw [notDir] at isDir
    cases isDir
  · rw [noTarget] at isTarget
    cases isTarget
  · intro _
    unfold stagedMetadata
    rw [final]
    exact syncedMode_chmod _ _
  · intro _
    unfold stagedMetadata
    rw [final]
    rfl

theorem OutputFits.notDir (fits : OutputFits c prepared)
    (leaf : ∀ old, c.oldEntry = some old → old.isDir = false) : c.isDir = false := by
  obtain ⟨entry, ino, isNew, isFile, -⟩ := fits.entry
  exact (isDir_of_new isNew leaf).trans (isFile_iff.mp isFile).1

theorem carries_onCommit {before : Spot} {dev : UInt64} (slot : Slot actions a i c)
    (fits : OutputFits c prepared) (verified : Verified hashes prepared)
    (leaf : ∀ old, c.oldEntry = some old → old.isDir = false)
    (spot : s.spot a.path i = publishedSpot a.path dev prepared none) :
    Carries kernel hashes a i False (onCommit kernel actions i a prepared)
      (fun t => Forwarded hashes c before (t.spot a.path i)) s := by
  obtain ⟨entry, ino, isNew, isFile, final⟩ := fits.entry
  have shows : Shows hashes (s.disk.tree.entry? a.path) (s.contents a.path) c.newEntry := by
    rw [show s.disk.tree.entry? a.path = _ from congrArg Spot.node spot,
      show s.contents a.path = _ from congrArg Spot.bytes spot]
    exact shows_published fits verified
  have inPlace : InPlace hashes a s := by
    intro c' isChange
    rw [slot.applied] at isChange
    cases isChange
    exact shows
  refine carries_record rfl (slot.isLeaf (fits.notDir leaf)) inPlace ?_
  rintro t ⟨records, calls, rfl⟩
  have path : prepared.finalEntry.path = a.path := by
    rw [final]
    exact (show entry.path = a.path from slot.path_new isNew)
  have free : s.localResults[i]? = some none := congrArg Spot.result spot
  unfold assignResult
  rw [Effect.ends_bind, Effect.ends_bind, Effect.ends_read]
  dsimp only
  rw [assignLocalResult_free slot.isAction path free]
  dsimp only
  rw [Effect.ends_write, Effect.ends_bind]
  have near : Near a.path i { s with records := records, calls := calls }
      { s with
        records := records, calls := calls,
        localResults := s.localResults.set i (some prepared.finalEntry) } :=
    Near.of_result (fun j ne => List.getElem?_set_ne ne.symm) List.length_set
  refine Effect.Ends.mono (looks_perform rfl (C := False)) ?_ ?_
  · rintro - u ⟨⟨calls', -, rfl⟩, -⟩
    refine ⟨near.trans (.of_still ⟨calls', rfl⟩), ⟨rfl, rfl⟩, ?_⟩
    refine .finished (fits.notDir leaf) ⟨shows, ?_⟩
    change (s.localResults.set i (some prepared.finalEntry))[i]? =
      some (resultOf c (s.disk.tree.entry? a.path))
    have node : s.disk.tree.entry? a.path = some ⟨a.path, stagedMetadata dev prepared⟩ :=
      congrArg Spot.node spot
    rw [getElem?_set_free free, node, resultOf_some isNew]
    unfold stagedMetadata
    rw [final]
    rfl
  · rintro e u ⟨⟨calls', -, rfl⟩, denied | impossible⟩
    · exact ⟨near.trans (.of_still ⟨calls', rfl⟩), ⟨rfl, rfl⟩, denied.refused⟩
    · exact absurd impossible id

/-- A file does not take the place of a directory. -/
theorem Slot.leaf (slot : Slot actions a i c) (fits : OutputFits c prepared) :
    ∀ old, c.oldEntry = some old → old.isDir = false := by
  intro old isOld
  obtain ⟨entry, ino, isNew, isFile, -⟩ := fits.entry
  refine Bool.eq_false_iff.mpr fun isDir => ?_
  cases c with
  | added e => cases isOld
  | removed e => cases isNew
  | modified e1 e2 =>
    cases isOld
    cases isNew
    have newDir := slot.keeps _ _ rfl isDir
    rw [(isFile_iff.mp isFile).1] at newDir
    cases newDir

theorem Waiting.leaf (waiting : Waiting hashes c (s.spot a.path i))
    (leaf : ∀ old, c.oldEntry = some old → old.isDir = false) :
    ∀ n, s.disk.tree.entry? a.path = some n → n.isDir = false := by
  intro n found
  have shows := waiting.shows
  cases isOld : c.oldEntry with
  | none =>
    rw [isOld] at shows
    have absent : s.disk.tree.entry? a.path = none := shows
    rw [found] at absent
    cases absent
  | some old =>
    rw [isOld] at shows
    obtain ⟨n', found', isMatch⟩ := shows
    have same : some n = some n' := found.symm.trans found'
    cases same
    exact isMatch.isDir_eq.trans (leaf old isOld)

/-- The output gets its name, and is recorded. -/
theorem carries_place {before : Spot} {call : Call} (slot : Slot actions a i c)
    (fits : OutputFits c prepared) (verified : Verified hashes prepared)
    (waiting : Waiting hashes c (s.spot a.path i))
    (parent : s.disk.tree.HasDirectory a.path.dropLast) :
    Carries kernel hashes a i False (place call prepared >>= fun _ =>
        onCommit kernel actions i a prepared)
      (fun t => Forwarded hashes c before (t.spot a.path i)) s := by
  have leaf := slot.leaf fits
  refine Carries.bind (local_place (fits.path.trans slot.paths.2) slot.canonical parent
    (waiting.leaf leaf)) ?_
  rintro - t - spot
  have free : s.localResults[i]? = some none := waiting.free
  rw [free] at spot
  exact carries_onCommit slot fits verified leaf spot

theorem carries_publishPreparedOutput {before : Spot} (slot : Slot actions a i c)
    (unseen : kernel.Unseen a.path) (output : s.preparedOutputs i = some prepared)
    (fits : OutputFits c prepared) (verified : Verified hashes prepared)
    (waiting : Waiting hashes c (s.spot a.path i))
    (parent : s.disk.tree.HasDirectory a.path.dropLast) :
    Carries kernel hashes a i False (publishPreparedOutput kernel hashes actions i a)
      (fun t => Forwarded hashes c before (t.spot a.path i)) s := by
  have path : prepared.output.finalPath = a.path := fits.path.trans slot.paths.2
  let taken : State := { s with preparedOutputs := Function.update s.preparedOutputs i none }
  have take : Local kernel a.path i False (takeOutput i)
      (fun out t => prepared = out ∧ t = taken) s := by
    refine Local.read (Local.write (t := taken) ?_ ?_)
    · refine ⟨⟨fun _ _ => rfl, rfl, fun _ _ => rfl, fun _ _ => rfl, rfl, fun j ne => ?_⟩, ?_⟩
      · exact Function.update_of_ne ne _ _
      · exact fun _ mem => .inl mem
    · rw [output]
      exact Local.pure ⟨rfl, rfl⟩
  refine Carries.bind take ?_
  rintro out t - ⟨rfl, rfl⟩
  rw [path]
  refine Carries.bind ((looks_ensureParentDirectoryStaged (s := taken) parent).local id) ?_
  rintro - t - ⟨⟨calls, rfl⟩, -⟩
  have staged := @local_preparePublication kernel hashes a.path i False (taken.atCall calls)
    prepared path verified parent
  cases isOld : c.oldEntry with
  | some old =>
    have fitsOld : Fits hashes s a.path old := by
      have shows := waiting.shows
      rwa [isOld] at shows
    rw [fits.replaces old isOld]
    refine Carries.bind staged ?_
    rintro - t - ⟨calls₁, rfl⟩
    rw [path]
    refine Carries.bind (local_verify (s := (taken.atCall calls).atCall calls₁) unseen fitsOld) ?_
    rintro - t - ⟨calls₂, rfl⟩
    refine Carries.bind (local_perform nofun) ?_
    rintro - t - ⟨-, calls₃, rfl⟩
    exact carries_place (s := (((taken.atCall calls).atCall calls₁).atCall calls₂).atCall calls₃)
      slot fits verified waiting parent
  | none =>
    have free : s.disk.tree.entry? a.path = none := by
      have shows := waiting.shows
      rwa [isOld] at shows
    obtain ⟨description, fresh⟩ := fits.appears isOld
    rw [fresh]
    refine Carries.bind staged ?_
    rintro - t - ⟨calls₁, rfl⟩
    rw [path]
    refine Carries.bind (local_perform nofun) ?_
    rintro - t - ⟨-, calls₂, rfl⟩
    have looked := @looks_checkFree kernel a.path
      (((taken.atCall calls).atCall calls₁).atCall calls₂) description free
    refine Carries.bind (looked.local id) ?_
    rintro - t - ⟨⟨calls₃, rfl⟩, -⟩
    exact carries_place (s := (((taken.atCall calls).atCall calls₁).atCall calls₂).atCall calls₃)
      slot fits verified waiting parent

/-! ## The step of the forward pass -/

/-- The output that is staged for a change, when it has one. -/
def OutputReady (hashes : Detail.ContentHashes) (c : Change) :
    Option Detail.PreparedOutput → Prop
  | none => applyDetailKindForChange c = none
  | some prepared => OutputFits c prepared ∧ Verified hashes prepared

theorem Carries.may {α : Type} {m : Committing α} {Q : State → Prop}
    (carries : Carries kernel hashes a i False m Q s) (may : Prop) :
    Carries kernel hashes a i may m Q s := by
  refine Effect.Ends.mono carries (fun _ _ => id) ?_
  rintro e t ⟨beside, told, number, call, isCall, refuses, own⟩
  exact ⟨beside, told, number, call, isCall, refuses, fun q isPath => ((own q isPath).2).elim⟩

theorem isDir_of_entry {e : DirEntryWithMeta} (isEntry : c.oldEntry = some e ∨ c.newEntry = some e)
    (isDir : e.isDir = true) : c.isDir = true := by
  cases c with
  | added entry =>
    rcases isEntry with isOld | isNew
    · cases isOld
    · cases isNew
      exact isDir
  | removed entry =>
    rcases isEntry with isOld | isNew
    · cases isOld
      exact isDir
    · cases isNew
  | modified old new =>
    change (old.isDir || new.isDir) = true
    rcases isEntry with isOld | isNew
    · cases isOld
      rw [isDir, Bool.true_or]
    · cases isNew
      rw [isDir, Bool.or_true]

/-- What is no change of a directory is finished. -/
theorem Forwarded.whole {before spot : Spot} (forwarded : Forwarded hashes c before spot)
    (notDir : c.isDir = false) : Finished hashes c spot := by
  cases forwarded with
  | kept isOld isDir =>
    rw [isDir_of_entry (.inl isOld) isDir] at notDir
    cases notDir
  | made isNew isDir leaf isPrivate =>
    rw [isDir_of_entry (.inr isNew) isDir] at notDir
    cases notDir
  | finished _ finished => exact finished

/-- One action of the forward pass, from a spot that is as its change expects it. -/
theorem carries_forwardStep (slot : Slot actions a i c) (unseen : kernel.Unseen a.path)
    (ready : OutputReady hashes c (s.preparedOutputs i))
    (waiting : Waiting hashes c (s.spot a.path i))
    (parent : s.disk.tree.HasDirectory a.path.dropLast) :
    Carries kernel hashes a i (Mutates c) (forwardStep kernel hashes actions (a, i))
      (fun t => Forwarded hashes c (s.spot a.path i) (t.spot a.path i)) s := by
  change Carries kernel hashes a i (Mutates c) (if (s.preparedOutputs i).isSome then
    publishPreparedOutput kernel hashes actions i a else
    applyActionWithoutDetail kernel hashes actions i a) _ s
  cases output : s.preparedOutputs i with
  | some prepared =>
    rw [output] at ready
    rw [Option.isSome_some, if_pos rfl]
    exact (carries_publishPreparedOutput slot unseen output ready.1 ready.2 waiting parent).may _
  | none =>
    rw [output] at ready
    rw [Option.isSome_none, if_neg Bool.false_ne_true]
    unfold applyActionWithoutDetail
    rw [slot.applied]
    refine Carries.bind (local_applyChange slot unseen ready waiting parent) ?_
    rintro - t - forwarded
    cases isDir : c.isDir with
    | true => exact .of_local (Local.pure forwarded) fun _ _ => id
    | false =>
      rw [if_neg Bool.false_ne_true, ← bind_pure (record kernel a.path (.committedAction a))]
      refine carries_record rfl (slot.isLeaf isDir) ((forwarded.whole isDir).inPlace slot.applied) ?_
      rintro u noted
      exact ⟨.refl u, ⟨rfl, rfl⟩, noted.spot ▸ forwarded⟩

end Outputs

end Duet.Commit
