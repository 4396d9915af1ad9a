import Duet.Sync.Commit
import Duet.Sync.RemovalChecks

/-!
# Rules for the steps of a commit

Each step of a pass is about one action. Whether it ends well or not, it changes the tree
only at the path of the action, and only the results and outputs of that action (`Near`).
From a state that is as the step expects it, it fails only when a call is refused
(`StepFails`). `Local` says both, and is put together along the step.
-/

namespace Duet.Commit

open Lib

/-! ## Bits of a mode -/

theorem or_and_mask (mode permissions mask : UInt32) :
    (mode &&& ~~~mask ||| permissions &&& mask) &&& mask = permissions &&& mask := by
  apply UInt32.toBitVec_inj.mp
  simp only [UInt32.toBitVec_and, UInt32.toBitVec_or, UInt32.toBitVec_not]
  ext i bound
  simp only [BitVec.getElem_and, BitVec.getElem_or, BitVec.getElem_not]
  cases mode.toBitVec[i] <;> cases permissions.toBitVec[i] <;> cases mask.toBitVec[i] <;> rfl

theorem or_and_of_and {bits mask : UInt32} (inside : bits &&& mask = mask) (more : UInt32) :
    (bits ||| more) &&& mask = mask := by
  apply UInt32.toBitVec_inj.mp
  have same := congrArg UInt32.toBitVec inside
  simp only [UInt32.toBitVec_and, UInt32.toBitVec_or] at same ⊢
  ext i bound
  have bit : (bits.toBitVec &&& mask.toBitVec)[i] = mask.toBitVec[i] := by rw [same]
  simp only [BitVec.getElem_and, BitVec.getElem_or] at bit ⊢
  cases isMore : more.toBitVec[i] with
  | false => simpa using bit
  | true => simp

@[simp] theorem syncedMode_chmod (mode permissions : UInt32) :
    syncedMode (chmod mode permissions) = syncedMode permissions := or_and_mask _ _ _

/-- A private directory can be written by its owner. -/
theorem ownerWriteExecute_privateMode (m : Metadata) :
    ownerWriteExecute (privateMode m).mode = true := by
  have inside : ∀ mode, syncedMode mode &&& 0o300 = mode &&& 0o300 := by
    intro mode
    unfold syncedMode
    rw [UInt32.and_assoc]
    rfl
  change ((chmod m.mode (0o700 ||| m.mode &&& 0o2000)) &&& 0o300 == 0o300) = true
  rw [← inside, syncedMode_chmod, inside, or_and_of_and (by decide)]
  rfl

/-! ## States -/

/-- The state with another number of calls. -/
def State.atCall (s : State) (calls : Nat) : State := { s with calls := calls }

/-- Only calls were made. -/
def Still (s t : State) : Prop := ∃ calls, t = s.atCall calls

/-- The path at which a call puts an entry into a directory, or takes one from it, with the
rights that the directory gives its owner. A publication is not such a call. -/
def Call.mutates? : Call → Option Path
  | .createDirectory path | .unlink path | .createSymlink path | .removeDirectory path =>
    some path
  | _ => none

/-- The action that a record says is carried out. -/
def operation? : Marker.CommitRecord → Option Action
  | .committedAction action | .regularPublication action _ => some action
  | _ => none

/-- From `s` to `t` only what belongs to one action has changed. -/
structure Beside (p : Path) (i : Nat) (s t : State) : Prop where
  entries : ∀ q, q ≠ p → t.disk.tree.entry? q = s.disk.tree.entry? q
  dev : t.disk.tree.dev = s.disk.tree.dev
  contents : ∀ q, q ≠ p → t.contents q = s.contents q
  results : ∀ j, j ≠ i → t.localResults[j]? = s.localResults[j]?
  length : t.localResults.length = s.localResults.length
  outputs : ∀ j, j ≠ i → t.preparedOutputs j = s.preparedOutputs j

/-- And nothing was recorded as carried out. -/
structure Near (p : Path) (i : Nat) (s t : State) : Prop extends Beside p i s t where
  records : ∀ r ∈ t.records, r ∈ s.records ∨ operation? r = none

section Near

variable {p : Path} {i : Nat} {s t u : State} {tree : DirectoryTree}

theorem Beside.refl (s : State) : Beside p i s s :=
  ⟨fun _ _ => rfl, rfl, fun _ _ => rfl, fun _ _ => rfl, rfl, fun _ _ => rfl⟩

theorem Beside.trans (first : Beside p i s t) (second : Beside p i t u) : Beside p i s u where
  entries q ne := (second.entries q ne).trans (first.entries q ne)
  dev := second.dev.trans first.dev
  contents q ne := (second.contents q ne).trans (first.contents q ne)
  results j ne := (second.results j ne).trans (first.results j ne)
  length := second.length.trans first.length
  outputs j ne := (second.outputs j ne).trans (first.outputs j ne)

theorem Near.refl (s : State) : Near p i s s := ⟨.refl s, fun _ mem => .inl mem⟩

theorem Near.trans (first : Near p i s t) (second : Near p i t u) : Near p i s u where
  toBeside := first.toBeside.trans second.toBeside
  records r mem := (second.records r mem).elim (first.records r) .inr

theorem Near.of_still (still : Still s t) : Near p i s t := by
  obtain ⟨calls, rfl⟩ := still
  exact ⟨⟨fun _ _ => rfl, rfl, fun _ _ => rfl, fun _ _ => rfl, rfl, fun _ _ => rfl⟩,
    fun _ mem => .inl mem⟩

theorem Near.of_tree (entries : ∀ q, q ≠ p → tree.entry? q = s.disk.tree.entry? q)
    (dev : tree.dev = s.disk.tree.dev) : Near p i s (s.withTree tree) :=
  ⟨⟨entries, dev, fun _ _ => rfl, fun _ _ => rfl, rfl, fun _ _ => rfl⟩, fun _ mem => .inl mem⟩

theorem Still.refl (s : State) : Still s s := ⟨s.calls, rfl⟩

theorem Still.trans (first : Still s t) (second : Still t u) : Still s u := by
  obtain ⟨calls, rfl⟩ := first
  obtain ⟨calls', rfl⟩ := second
  exact ⟨calls', rfl⟩

end Near

/-! ## Local steps -/

section Local

variable {kernel : Kernel} {p : Path} {i : Nat} {may : Prop} {α β : Type} {s t : State}

/-- A call was refused. If it was to put an entry into a directory or take it from there, it
was this entry, and the step may do so. -/
def Refused (kernel : Kernel) (p : Path) (may : Prop) (tree : DirectoryTree) (e : Error) : Prop :=
  ∃ number call, e = .refused call ∧ kernel.refuses number tree call = true ∧
    ∀ q, call.mutates? = some q → q = p ∧ may

/-- How a step on one action fails. -/
structure StepFails (kernel : Kernel) (p : Path) (i : Nat) (may : Prop) (s : State) (e : Error)
    (t : State) : Prop where
  near : Near p i s t
  refused : Refused kernel p may t.disk.tree e

/-- A step on one action that fails only when a call is refused. -/
def Local (kernel : Kernel) (p : Path) (i : Nat) (may : Prop) (m : Committing α)
    (Q : α → State → Prop) (s : State) : Prop :=
  m.Ends (fun a t => Near p i s t ∧ Q a t) (StepFails kernel p i may s) s

theorem StepFails.after {e : Error} {u : State} (near : Near p i s t)
    (fails : StepFails kernel p i may t e u) : StepFails kernel p i may s e u :=
  ⟨near.trans fails.near, fails.refused⟩

theorem Local.pure {a : α} {Q : α → State → Prop} (holds : Q a s) :
    Local kernel p i may (pure a : Committing α) Q s := ⟨.refl s, holds⟩

theorem Local.mono {m : Committing α} {Q R : α → State → Prop} (holds : Local kernel p i may m Q s)
    (weaker : ∀ a t, Q a t → R a t) : Local kernel p i may m R s :=
  Effect.Ends.mono holds (fun a t post => ⟨post.1, weaker a t post.2⟩) fun _ _ => id

theorem Local.bind {m : Committing α} {f : α → Committing β} {Q : α → State → Prop}
    {R : β → State → Prop} (first : Local kernel p i may m Q s)
    (rest : ∀ a t, Near p i s t → Q a t → Local kernel p i may (f a) R t) :
    Local kernel p i may (m >>= f) R s := by
  unfold Local
  rw [Effect.ends_bind]
  refine Effect.Ends.mono first ?_ fun _ _ => id
  rintro a t ⟨near, post⟩
  refine Effect.Ends.mono (rest a t near post) ?_ fun _ _ fails => fails.after near
  exact fun b u post => ⟨near.trans post.1, post.2⟩

/-- After a look at the state. -/
theorem Local.read {f : State → Committing β} {R : β → State → Prop}
    (rest : Local kernel p i may (f s) R s) : Local kernel p i may (Effect.read >>= f) R s := rest

/-- After a state was written. -/
theorem Local.write {f : Unit → Committing β} {R : β → State → Prop} {t : State}
    (near : Near p i s t) (rest : Local kernel p i may (f ()) R t) :
    Local kernel p i may (Effect.write t >>= f) R s := by
  refine Effect.Ends.mono rest ?_ fun _ _ fails => fails.after near
  exact fun b u post => ⟨near.trans post.1, post.2⟩

theorem Local.written {Q : Unit → State → Prop} {t : State} (near : Near p i s t)
    (holds : Q () t) : Local kernel p i may (Effect.write t) Q s := ⟨near, holds⟩

theorem local_perform {call : Call} (own : ∀ q, call.mutates? = some q → q = p ∧ may) :
    Local kernel p i may (perform kernel call) (fun n t => n = s.calls ∧ Still s t) s := by
  have still : Still s (s.atCall (s.calls + 1)) := ⟨_, rfl⟩
  unfold perform
  change Effect.Ends (if kernel.refuses s.calls s.disk.tree call then
    Effect.fail (.refused call) else pure s.calls : Committing Nat) _ _ (s.atCall (s.calls + 1))
  split
  · rename_i refuses
    exact ⟨.of_still still, s.calls, call, rfl, refuses, own⟩
  · exact ⟨.of_still still, rfl, still⟩

/-- After a call that changes no directory. -/
theorem Local.call {call : Call} {f : Nat → Committing β} {R : β → State → Prop}
    (quiet : call.mutates? = none)
    (rest : ∀ calls, Local kernel p i may (f s.calls) R (s.atCall calls)) :
    Local kernel p i may (perform kernel call >>= f) R s := by
  refine (local_perform fun q isPath => by rw [quiet] at isPath; cases isPath).bind ?_
  rintro - t - ⟨rfl, calls, rfl⟩
  exact rest calls

/-- After a call on the entry of the action. -/
theorem Local.mutate {call : Call} {f : Nat → Committing β} {R : β → State → Prop}
    (own : call.mutates? = some p) (allowed : may)
    (rest : ∀ calls, Local kernel p i may (f s.calls) R (s.atCall calls)) :
    Local kernel p i may (perform kernel call >>= f) R s := by
  have here : ∀ q, call.mutates? = some q → q = p ∧ may := by
    intro q isPath
    rw [own] at isPath
    exact ⟨(Option.some.inj isPath).symm, allowed⟩
  refine (local_perform here).bind ?_
  rintro - t - ⟨rfl, calls, rfl⟩
  exact rest calls

end Local

/-! ## Looking at the tree -/

section Looks

variable {kernel : Kernel} {hashes : Detail.ContentHashes} {p : Path} {i : Nat} {may : Prop}
  {α β : Type} {s : State} {C : Prop}

/-- A call that changes no directory was refused. -/
def Denied (kernel : Kernel) (tree : DirectoryTree) (e : Error) : Prop :=
  ∃ number call, e = .refused call ∧ kernel.refuses number tree call = true ∧ call.mutates? = none

/-- Only calls were made, each with a number of its own. -/
def Looked (s t : State) : Prop := ∃ calls, s.calls ≤ calls ∧ t = s.atCall calls

theorem Looked.refl (s : State) : Looked s s := ⟨s.calls, le_rfl, rfl⟩

theorem Looked.trans {s t u : State} (first : Looked s t) (second : Looked t u) : Looked s u := by
  obtain ⟨calls, later, rfl⟩ := first
  obtain ⟨calls', later', rfl⟩ := second
  exact ⟨calls', later.trans later', rfl⟩

theorem Looked.still {s t : State} (looked : Looked s t) : Still s t := by
  obtain ⟨calls, -, same⟩ := looked
  exact ⟨calls, same⟩

/-- The program only makes calls. It fails when one is refused, or else because of `C`. -/
def Looks (kernel : Kernel) (s : State) (m : Committing α) (Q : α → Prop) (C : Prop) : Prop :=
  m.Ends (fun a t => Looked s t ∧ Q a)
    (fun e t => Looked s t ∧ (Denied kernel s.disk.tree e ∨ C)) s

theorem Looks.pure {a : α} {Q : α → Prop} (holds : Q a) :
    Looks kernel s (pure a : Committing α) Q C := ⟨.refl s, holds⟩

theorem Looks.fail {e : Error} {Q : α → Prop} (cause : C) :
    Looks kernel s (Effect.fail e : Committing α) Q C := ⟨.refl s, .inr cause⟩

theorem Looks.check {x : Except Error α} {Q : α → Prop} (holds : ∀ a, x = .ok a → Q a)
    (cause : ∀ e, x = .error e → C) : Looks kernel s (Effect.check x) Q C := by
  cases x with
  | ok a => exact ⟨.refl s, holds a rfl⟩
  | error e => exact ⟨.refl s, .inr (cause e rfl)⟩

theorem Looks.mono {m : Committing α} {Q R : α → Prop} {D : Prop} (looks : Looks kernel s m Q C)
    (weaker : ∀ a, Q a → R a) (cause : C → D) : Looks kernel s m R D :=
  Effect.Ends.mono looks (fun a _ post => ⟨post.1, weaker a post.2⟩)
    fun _ _ post => ⟨post.1, post.2.imp_right cause⟩

/-- What follows makes its calls later. -/
theorem Looks.after {m : Committing α} {f : α → Committing β} {Q : α → Prop} {R : β → Prop}
    (first : Looks kernel s m Q C)
    (rest : ∀ a calls, s.calls ≤ calls → Q a → Looks kernel (s.atCall calls) (f a) R C) :
    Looks kernel s (m >>= f) R C := by
  unfold Looks
  rw [Effect.ends_bind]
  refine Effect.Ends.mono first ?_ fun _ _ => id
  rintro a - ⟨⟨calls, later, rfl⟩, post⟩
  refine Effect.Ends.mono (rest a calls later post) ?_ ?_
  · exact fun b u post => ⟨.trans ⟨calls, later, rfl⟩ post.1, post.2⟩
  · exact fun e u post => ⟨.trans ⟨calls, later, rfl⟩ post.1, post.2⟩

theorem Looks.bind {m : Committing α} {f : α → Committing β} {Q : α → Prop} {R : β → Prop}
    (first : Looks kernel s m Q C)
    (rest : ∀ a calls, Q a → Looks kernel (s.atCall calls) (f a) R C) :
    Looks kernel s (m >>= f) R C :=
  first.after fun a calls _ => rest a calls

theorem looks_perform {call : Call} (quiet : call.mutates? = none) :
    Looks kernel s (perform kernel call) (fun n => n = s.calls) C := by
  unfold perform
  change Effect.Ends (if kernel.refuses s.calls s.disk.tree call then
    Effect.fail (.refused call) else Pure.pure s.calls : Committing Nat) _ _ (s.atCall (s.calls + 1))
  split
  · rename_i refuses
    exact ⟨⟨_, Nat.le_succ _, rfl⟩, .inl ⟨s.calls, call, rfl, refuses, quiet⟩⟩
  · exact ⟨⟨_, Nat.le_succ _, rfl⟩, rfl⟩

theorem Looks.call {call : Call} {f : Nat → Committing β} {R : β → Prop}
    (quiet : call.mutates? = none)
    (rest : ∀ calls, Looks kernel (s.atCall calls) (f s.calls) R C) :
    Looks kernel s (perform kernel call >>= f) R C := by
  refine (looks_perform quiet).bind ?_
  rintro - calls rfl
  exact rest calls

theorem Denied.refused {e : Error} {tree : DirectoryTree} (denied : Denied kernel tree e) :
    Refused kernel p may tree e := by
  obtain ⟨number, call, rfl, refuses, quiet⟩ := denied
  refine ⟨number, call, rfl, refuses, fun q isPath => ?_⟩
  rw [quiet] at isPath
  cases isPath

/-- Looking is a step on any action. -/
theorem Looks.local {m : Committing α} {Q : α → Prop} (looks : Looks kernel s m Q C)
    (fine : ¬ C) : Local kernel p i may m (fun a t => Still s t ∧ Q a) s := by
  refine Effect.Ends.mono looks ?_ ?_
  · exact fun a t post => ⟨.of_still post.1.still, post.1.still, post.2⟩
  · rintro e - ⟨⟨calls, -, rfl⟩, denied | cause⟩
    · exact ⟨.of_still ⟨calls, rfl⟩, denied.refused⟩
    · exact absurd cause fine

/-- After a look at the state. -/
theorem Looks.read {f : State → Committing β} {R : β → Prop}
    (rest : Looks kernel s (f s) R C) : Looks kernel s (Effect.read >>= f) R C := rest

theorem looks_look : Looks kernel s (look kernel p)
    (fun found => found = s.disk.tree.lookup kernel.behind p) C := by
  refine Looks.call rfl fun calls => Looks.read ?_
  exact Looks.pure rfl

theorem looks_symlinkMetadata : Looks kernel s (symlinkMetadata kernel p)
    (fun m => s.disk.tree.lookup kernel.behind p = .found m)
    (∀ m, s.disk.tree.lookup kernel.behind p ≠ .found m) := by
  refine looks_look.bind ?_
  rintro found calls rfl
  cases isFound : s.disk.tree.lookup kernel.behind p with
  | found m => exact Looks.pure rfl
  | missing | failed => exact Looks.fail nofun

end Looks

/-! ## What an entry describes -/

/-- The node at a path is what an entry says, as far as a check sees it. -/
structure Matches (hashes : Detail.ContentHashes) (bytes : List UInt8) (m : Metadata)
    (entry : DirEntryWithMeta) : Prop where
  file : entry.isFile = true → m.fileType = .file ∧ Detail.verifyContents hashes entry bytes = .ok ()
  directory : entry.isDir = true → m.fileType = .directory
  symlink : entry.isDir = false → ∀ target, entry.target = some target → m.fileType = .symlink target
  mode : entry.isSymlink = false → syncedMode m.mode = syncedMode entry.mode
  mtime : entry.isDir = false → m.mtime = entry.mtime

/-- What the entry describes is in the tree. -/
def Fits (hashes : Detail.ContentHashes) (s : State) (p : Path) (entry : DirEntryWithMeta) : Prop :=
  ∃ n, s.disk.tree.entry? p = some n ∧ Matches hashes (s.contents p) n.metadata entry

/-- A path at which no symbolic link above it leads to something. -/
def Kernel.Unseen (kernel : Kernel) (p : Path) : Prop := ∀ m, kernel.behind p ≠ .found m

section Verify

variable {kernel : Kernel} {hashes : Detail.ContentHashes} {p : Path} {s : State}
  {entry : DirEntryWithMeta} {description : String} {m : Metadata}

theorem lookup_eq_found (unseen : kernel.Unseen p)
    (found : s.disk.tree.lookup kernel.behind p = .found m) :
    ∃ n, s.disk.tree.entry? p = some n ∧ n.metadata = m := by
  unfold DirectoryTree.lookup at found
  split at found
  · rename_i n isNode
    cases found
    exact ⟨n, isNode, rfl⟩
  · split at found
    · cases found
    · split at found
      · cases found
      · exact absurd found (unseen m)
      · cases found

theorem looks_verifyFileMatchesEntry (isFile : entry.isFile = true) :
    Looks kernel s (verifyFileMatchesEntry kernel hashes p entry description)
      (fun _ => ∃ n, s.disk.tree.entry? p = some n ∧ n.metadata.fileType = .file ∧
        Detail.verifyContents hashes entry (s.contents p) = .ok ())
      (¬ Fits hashes s p entry) := by
  refine Looks.call rfl fun calls => Looks.read ?_
  cases isNode : s.disk.tree.entry? p with
  | none =>
    rw [show (s.atCall calls).disk.tree.entry? p = none from isNode]
    refine Looks.fail ?_
    rintro ⟨n, found, -⟩
    rw [isNode] at found
    cases found
  | some n =>
    have other : n.metadata.fileType ≠ .file → ¬ Fits hashes s p entry := by
      rintro notFile ⟨n', found, fits⟩
      rw [isNode] at found
      cases found
      exact notFile (fits.file isFile).1
    rw [show (s.atCall calls).disk.tree.entry? p = some n from isNode]
    dsimp only
    cases kind : n.metadata.fileType with
    | file =>
      dsimp only
      cases verified : Detail.verifyContents hashes entry (s.contents p) with
      | ok =>
        rw [show Detail.verifyContents hashes entry ((s.atCall calls).contents p) = .ok ()
          from verified]
        exact Looks.pure ⟨n, rfl, kind, rfl⟩
      | error cause =>
        rw [show Detail.verifyContents hashes entry ((s.atCall calls).contents p) = .error cause
          from verified]
        refine Looks.fail ?_
        rintro ⟨n', -, fits⟩
        rw [(fits.file isFile).2] at verified
        cases verified
    | directory | symlink target | special =>
      refine Looks.fail (other fun same => ?_)
      rw [kind] at same
      cases same

theorem looks_verifySymlink (found : s.disk.tree.lookup kernel.behind p = .found m)
    (notFile : entry.isFile = false) (notDir : entry.isDir = false) :
    Looks kernel s (verifySymlink kernel p m entry description)
      (fun _ => ∀ target, entry.target = some target → m.fileType = .symlink target)
      (¬ Fits hashes s p entry) := by
  -- the entry is a link, and has a target
  have isLink : ∃ target, entry.target = some target := by
    rw [← Option.isSome_iff_exists]
    simpa [DirEntryWithMeta.isFile, notDir, DirEntryWithMeta.isSymlink] using notFile
  obtain ⟨expected, isTarget⟩ := isLink
  have noFit : m.fileType ≠ .symlink expected → ¬ Fits hashes s p entry := by
    rintro other ⟨n, isNode, fits⟩
    rw [DirectoryTree.lookup_of_entry isNode] at found
    cases found
    exact other (fits.symlink notDir expected isTarget)
  unfold verifySymlink
  cases kind : m.fileType with
  | symlink target =>
    refine Looks.call rfl fun calls => ?_
    split
    · rename_i differs
      refine Looks.fail (noFit ?_)
      rw [kind]
      rintro same
      cases same
      exact differs isTarget.symm
    · rename_i same
      refine Looks.pure fun other isOther => ?_
      rw [← not_not.mp same] at isOther
      cases isOther
      rfl
  | file | directory | special => exact Looks.fail (noFit (by rw [kind]; nofun))

theorem looks_verifyCurrentMatchesEntry (unseen : kernel.Unseen p) :
    Looks kernel s (verifyCurrentMatchesEntry kernel hashes p entry description)
      (fun _ => Fits hashes s p entry) (¬ Fits hashes s p entry) := by
  unfold verifyCurrentMatchesEntry
  have looked : Looks kernel s (symlinkMetadata kernel p)
      (fun m => s.disk.tree.lookup kernel.behind p = .found m) (¬ Fits hashes s p entry) := by
    refine looks_symlinkMetadata.mono (fun _ => id) ?_
    rintro missing ⟨n, isNode, -⟩
    exact missing n.metadata (DirectoryTree.lookup_of_entry isNode)
  refine looked.bind fun m calls found => ?_
  obtain ⟨n, isNode, rfl⟩ := lookup_eq_found unseen found
  -- a node that fits is this one
  have same : Fits hashes s p entry → Matches hashes (s.contents p) n.metadata entry := by
    rintro ⟨n', isNode', fits⟩
    rw [isNode] at isNode'
    cases isNode'
    exact fits
  have kinds : Looks kernel (s.atCall calls)
      (verifyKind kernel hashes p n.metadata entry description)
      (fun _ => (entry.isFile = true → n.metadata.fileType = .file ∧
          Detail.verifyContents hashes entry (s.contents p) = .ok ()) ∧
        (entry.isDir = true → n.metadata.fileType = .directory) ∧
        (entry.isDir = false → ∀ target, entry.target = some target →
          n.metadata.fileType = .symlink target))
      (¬ Fits hashes s p entry) := by
    unfold verifyKind
    cases isFile : entry.isFile with
    | true =>
      have facts : entry.isDir = false ∧ entry.target = none := by
        simpa [DirEntryWithMeta.isFile, DirEntryWithMeta.isSymlink] using isFile
      rw [if_pos rfl]
      refine (looks_verifyFileMatchesEntry isFile).mono ?_ id
      rintro - ⟨n', isNode', kind, verified⟩
      have here : some n = some n' := isNode.symm.trans isNode'
      cases here
      refine ⟨fun _ => ⟨kind, verified⟩, fun isDir => ?_, fun _ target isTarget => ?_⟩
      · rw [facts.1] at isDir
        cases isDir
      · rw [facts.2] at isTarget
        cases isTarget
    | false =>
      rw [if_neg Bool.false_ne_true]
      cases isDir : entry.isDir with
      | true =>
        rw [if_pos rfl]
        unfold checkDirectory
        refine Looks.check (fun _ checked => ?_) fun e refused fits => ?_
        · split at checked
          · cases checked
          · rename_i directory
            exact ⟨nofun, fun _ => not_not.mp directory, nofun⟩
        · rw [if_neg (not_not.mpr ((same fits).directory isDir))] at refused
          cases refused
      | false =>
        rw [if_neg Bool.false_ne_true]
        refine (looks_verifySymlink (s := s.atCall calls) found isFile isDir).mono ?_ id
        exact fun _ link => ⟨nofun, nofun, fun _ => link⟩
  refine kinds.bind fun _ calls' kind => ?_
  have modes : Looks kernel ((s.atCall calls).atCall calls')
      (Effect.check (checkMode n.metadata entry description))
      (fun _ => entry.isSymlink = false → syncedMode n.metadata.mode = syncedMode entry.mode)
      (¬ Fits hashes s p entry) := by
    unfold checkMode
    refine Looks.check (fun _ checked notLink => ?_) fun e refused fits => ?_
    · split at checked
      · cases checked
      · rename_i agree
        simpa [notLink] using agree
    · split at refused
      · rename_i differ
        simp only [Bool.and_eq_true, Bool.not_eq_true', bne_iff_ne] at differ
        exact differ.2 ((same fits).mode differ.1)
      · cases refused
  refine modes.bind fun _ calls'' mode => ?_
  unfold checkMtime
  refine Looks.check (fun _ checked => ?_) fun e refused fits => ?_
  · refine ⟨n, isNode, kind.1, kind.2.1, kind.2.2, mode, fun notDir => ?_⟩
    split at checked
    · cases checked
    · rename_i agree
      simpa [notDir] using agree
  · split at refused
    · rename_i differ
      simp only [Bool.and_eq_true, Bool.not_eq_true', bne_iff_ne] at differ
      exact differ.2 ((same fits).mtime differ.1)
    · cases refused

end Verify

end Duet.Commit
