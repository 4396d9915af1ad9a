import Duet.Sync.DiskRules
import Duet.Sync.SystemCalls

/-!
# Rules for system calls

What a part of a program that only looks at the disk finds there, when it answers, and why
it does not: a check fails, or a call was refused or the process killed.
-/

namespace Duet.Recovery

open Lib Marker

variable {system : System} {α β : Type}

/-- One of some calls was refused, or the process was killed at it. -/
def Disturbed (system : System) (first last : Nat) : Prop :=
  ∃ i, first ≤ i ∧ i < last ∧ system.answer i ≠ .done

theorem Disturbed.mono {first last first' last' : Nat} (disturbed : Disturbed system first last)
    (earlier : first' ≤ first) (later : last ≤ last') : Disturbed system first' last' := by
  obtain ⟨i, low, high, answer⟩ := disturbed
  exact ⟨i, Nat.le_trans earlier low, Nat.lt_of_lt_of_le high later, answer⟩

/-! ## Single calls -/

section Ends

variable {s : Machine}

theorem ends_call {change : Disk → Except String (α × Disk)} {Q : α → Machine → Prop}
    {E : Stop → Machine → Prop}
    (done : ∀ a disk, change s.disk = .ok (a, disk) → Q a ⟨disk, s.calls + 1⟩)
    (fails : ∀ text, change s.disk = .error text → E (.error text) ⟨s.disk, s.calls + 1⟩)
    (disturbed : ∀ stop, Disturbed system s.calls (s.calls + 1) → E stop ⟨s.disk, s.calls + 1⟩) :
    (call system change).Ends Q E s := by
  have here : system.answer s.calls ≠ .done → Disturbed system s.calls (s.calls + 1) :=
    fun answer => ⟨s.calls, Nat.le_refl _, Nat.lt_succ_self _, answer⟩
  unfold Effect.Ends call
  split
  next result t ran =>
    split at ran
    · cases ran
    · cases ran
    · split at ran
      · next a disk changed =>
        cases ran
        exact done _ _ changed
      · cases ran
  next stop t ran =>
    split at ran
    · next answer =>
      cases ran
      exact disturbed _ (here (by simp [answer]))
    · next answer =>
      cases ran
      exact disturbed _ (here (by simp [answer]))
    · split at ran
      · cases ran
      · next text changed =>
        cases ran
        exact fails _ changed

/-- What holds after an error that is handled, and after a signal. -/
def Caught (Q : Except String α → Machine → Prop) (E : Stop → Machine → Prop) :
    Stop → Machine → Prop
  | .error text, t => Q (.error text) t
  | .killed, t => E .killed t

theorem ends_attempt {part : Calls α} {Q : Except String α → Machine → Prop}
    {E : Stop → Machine → Prop} (ends : part.Ends (fun a t => Q (.ok a) t) (Caught Q E) s) :
    (Calls.attempt part).Ends Q E s := by
  unfold Effect.Ends Calls.attempt at *
  generalize part s = run at *
  rcases run with ⟨(text | _) | a, t⟩
  · exact ends
  · exact ends
  · exact ends

theorem ends_attempt_bind {part : Calls α} {next : Except String α → Calls β}
    {Q : β → Machine → Prop} {E : Stop → Machine → Prop}
    (ends : part.Ends (fun a t => (next (.ok a)).Ends Q E t)
      (Caught (fun result t => (next result).Ends Q E t) E) s) :
    (Calls.attempt part >>= next).Ends Q E s := by
  rw [Effect.ends_bind]
  exact ends_attempt ends

theorem ends_update {change : Disk → Except String Disk} {Q : Unit → Machine → Prop}
    {E : Stop → Machine → Prop}
    (done : ∀ disk, change s.disk = .ok disk → Q () ⟨disk, s.calls + 1⟩)
    (fails : ∀ text, change s.disk = .error text → E (.error text) ⟨s.disk, s.calls + 1⟩)
    (disturbed : ∀ stop, Disturbed system s.calls (s.calls + 1) → E stop ⟨s.disk, s.calls + 1⟩) :
    (update system change).Ends Q E s := by
  apply ends_call
  · intro a disk changed
    obtain ⟨later, found, same⟩ := map_eq_ok.mp changed
    cases same
    exact done disk found
  · intro text failed
    cases found : change s.disk with
    | error text => exact fails _ (by simpa [found, Except.map] using failed)
    | ok disk => simp [found, Except.map] at failed
  · exact disturbed

end Ends

/-! ## Parts that only look -/

/-- A part of a program that leaves the disk alone. It answers with what it finds, or it fails:
there is nothing to find, or a call was disturbed. -/
def Looks (system : System) (part : Calls α) (finds : Disk → α → Prop) : Prop :=
  ∀ s, part.Ends (fun a t => t.disk = s.disk ∧ s.calls ≤ t.calls ∧ finds s.disk a)
    (fun _ t => t.disk = s.disk ∧ s.calls ≤ t.calls ∧
      ((∃ a, finds s.disk a) → Disturbed system s.calls t.calls)) s

/-- A part that looks, and then a program that goes on from what it found. -/
theorem Looks.ends_bind {part : Calls α} {finds : Disk → α → Prop} {s : Machine}
    (looks : Looks system part finds) {next : α → Calls β} {Q : β → Machine → Prop}
    {E : Stop → Machine → Prop}
    (found : ∀ a t, t.disk = s.disk → s.calls ≤ t.calls → finds s.disk a → (next a).Ends Q E t)
    (fails : ∀ stop t, t.disk = s.disk → s.calls ≤ t.calls →
      ((∃ a, finds s.disk a) → Disturbed system s.calls t.calls) → E stop t) :
    (part >>= next).Ends Q E s := by
  rw [Effect.ends_bind]
  refine (looks s).mono ?_ ?_
  · exact fun a t holds => found a t holds.1 holds.2.1 holds.2.2
  · exact fun stop t holds => fails stop t holds.1 holds.2.1 holds.2.2

theorem Looks.weaken {part : Calls α} {finds finds' : Disk → α → Prop}
    (looks : Looks system part finds) (same : ∀ disk a, finds disk a ↔ finds' disk a) :
    Looks system part finds' := by
  have equal : finds = finds' := funext₂ fun disk a => propext (same disk a)
  rwa [← equal]

theorem looks_query (look : Disk → Except String α) :
    Looks system (query system look) fun disk a => look disk = .ok a := by
  intro s
  apply ends_call
  · intro a disk changed
    obtain ⟨b, found, same⟩ := map_eq_ok.mp changed
    cases same
    exact ⟨rfl, Nat.le_succ _, found⟩
  · intro text failed
    refine ⟨rfl, Nat.le_succ _, fun some => ?_⟩
    obtain ⟨a, found⟩ := some
    change look s.disk = _ at found
    simp [found, Except.map] at failed
  · exact fun stop disturbed => ⟨rfl, Nat.le_succ _, fun _ => disturbed⟩

theorem looks_check (result : Except String α) :
    Looks system (Calls.check result) fun _ a => result = .ok a := by
  intro s
  cases result with
  | error text =>
    refine ⟨rfl, Nat.le_refl _, fun found => ?_⟩
    obtain ⟨a, found⟩ := found
    cases found
  | ok a => exact ⟨rfl, Nat.le_refl _, rfl⟩

theorem looks_syncAll : Looks system (syncAll system) fun _ _ => True :=
  (looks_query _).weaken fun _ _ => ⟨fun _ => trivial, fun _ => rfl⟩

/-- A look whose answer is not used, and another one that needs it to succeed. -/
theorem Looks.before {part : Calls α} {finds : Disk → α → Prop} (looks : Looks system part finds)
    {next : α → Calls β} {finds' : Disk → β → Prop}
    (later : ∀ a, Looks system (next a) finds')
    (needs : ∀ disk b, finds' disk b → ∃ a, finds disk a) :
    Looks system (part >>= next) finds' := by
  intro s
  apply looks.ends_bind
  · intro a t disk calls found
    refine (later a t).mono ?_ ?_
    · intro b u holds
      obtain ⟨same, more, found'⟩ := holds
      exact ⟨same.trans disk, Nat.le_trans calls more, disk ▸ found'⟩
    · intro stop u holds
      obtain ⟨same, more, why⟩ := holds
      rw [disk] at why same
      exact ⟨same, Nat.le_trans calls more, fun some => (why some).mono calls (Nat.le_refl _)⟩
  · intro stop t disk calls why
    refine ⟨disk, calls, fun some => why ?_⟩
    obtain ⟨b, found⟩ := some
    exact needs s.disk b found

/-- A look, and a check of what it found. -/
theorem Looks.then_require {part : Calls α} {finds : Disk → α → Prop}
    (looks : Looks system part finds) {next : α → Calls Unit} {holds : Disk → Prop}
    (passes : ∀ disk a, finds disk a → holds disk → next a = pure ())
    (refuses : ∀ disk a, finds disk a → ¬ holds disk → ∃ text, next a = Calls.fail text)
    (needs : ∀ disk, holds disk → ∃ a, finds disk a) :
    Looks system (part >>= next) fun disk _ => holds disk := by
  intro s
  apply looks.ends_bind
  · intro a t disk calls found
    by_cases passed : holds s.disk
    · rw [passes s.disk a found passed]
      exact ⟨disk, calls, passed⟩
    · obtain ⟨text, refused⟩ := refuses s.disk a found passed
      rw [refused]
      refine ⟨disk, calls, fun some => ?_⟩
      obtain ⟨_, passed'⟩ := some
      exact absurd passed' passed
  · intro stop t disk calls why
    refine ⟨disk, calls, fun some => why ?_⟩
    obtain ⟨_, passed⟩ := some
    exact needs s.disk passed

/-! ## Parts that are able to succeed -/

section Does

variable {able : Disk → Prop} {done fails : Disk → Disk → Prop} {s : Machine}

/-- A part of a program that only fails on a disk where it is able to succeed when one of its
calls is disturbed. -/
def Does (system : System) (able : Disk → Prop) (done fails : Disk → Disk → Prop)
    (part : Calls Unit) (s : Machine) : Prop :=
  part.Ends (fun _ t => done s.disk t.disk ∧ s.calls ≤ t.calls ∧ able s.disk)
    (fun _ t => fails s.disk t.disk ∧ s.calls ≤ t.calls ∧
      (able s.disk → Disturbed system s.calls t.calls)) s

/-- What a part does from a later machine that has the disk of an earlier one. -/
theorem Does.of_same {part : Calls Unit} {t : Machine} (does : Does system able done fails part t)
    (disk : t.disk = s.disk) (calls : s.calls ≤ t.calls) :
    part.Ends (fun _ u => done s.disk u.disk ∧ s.calls ≤ u.calls ∧ able s.disk)
      (fun _ u => fails s.disk u.disk ∧ s.calls ≤ u.calls ∧
        (able s.disk → Disturbed system s.calls u.calls)) t := by
  refine does.mono ?_ ?_
  · intro _ u holds
    rw [disk] at holds
    exact ⟨holds.1, Nat.le_trans calls holds.2.1, holds.2.2⟩
  · intro stop u holds
    rw [disk] at holds
    exact ⟨holds.1, Nat.le_trans calls holds.2.1, fun able =>
      (holds.2.2 able).mono calls (Nat.le_refl _)⟩

/-- A look that succeeds where the part is able to. -/
theorem Looks.does_bind {part : Calls α} {finds : Disk → α → Prop} (looks : Looks system part finds)
    {next : α → Calls Unit} (untouched : fails s.disk s.disk)
    (later : ∀ a t, t.disk = s.disk → finds s.disk a → Does system able done fails (next a) t)
    (needs : able s.disk → ∃ a, finds s.disk a) :
    Does system able done fails (part >>= next) s := by
  apply looks.ends_bind
  · exact fun a t disk calls found => (later a t disk found).of_same disk calls
  · intro stop t disk calls why
    exact ⟨disk ▸ untouched, calls, fun able => why (needs able)⟩

theorem Looks.does {part : Calls Unit} {finds : Disk → Unit → Prop} (looks : Looks system part finds)
    (unfound : fails s.disk s.disk) (found : ∀ a, finds s.disk a → done s.disk s.disk)
    (exactly : ∀ a, finds s.disk a ↔ able s.disk) : Does system able done fails part s := by
  refine (looks s).mono ?_ ?_
  · intro a t holds
    rw [holds.1]
    exact ⟨found a holds.2.2, holds.2.1, (exactly a).mp holds.2.2⟩
  · intro stop t holds
    obtain ⟨disk, calls, why⟩ := holds
    exact ⟨disk ▸ unfound, calls, fun able => why ⟨(), (exactly ()).mpr able⟩⟩

theorem Does.mono {part : Calls Unit} {able' : Disk → Prop} {done' fails' : Disk → Disk → Prop}
    (does : Does system able done fails part s) (enough : able' s.disk → able s.disk)
    (answer : ∀ disk, able s.disk → done s.disk disk → done' s.disk disk ∧ able' s.disk)
    (error : ∀ disk, fails s.disk disk → fails' s.disk disk) :
    Does system able' done' fails' part s := by
  refine Effect.Ends.mono does ?_ ?_
  · intro _ t holds
    obtain ⟨finished, calls, able⟩ := holds
    obtain ⟨finished', able'⟩ := answer t.disk able finished
    exact ⟨finished', calls, able'⟩
  · exact fun _ t holds => ⟨error t.disk holds.1, holds.2.1, fun able => holds.2.2 (enough able)⟩

theorem does_fail {text : String} (untouched : fails s.disk s.disk) (unable : ¬ able s.disk) :
    Does system able done fails (Calls.fail text) s :=
  ⟨untouched, Nat.le_refl _, fun able => absurd able unable⟩

end Does

/-! ## Directories that are kept open -/

/-- A path leads to a directory, which is the retained one. -/
def System.IsAt (system : System) (disk : Disk) (path : Bytes) (dir : FileIdentity) : Prop :=
  system.leadsTo path = some dir ∧ ∃ entries mode, disk.inode dir = some (.directory entries mode)

theorem System.IsAt.set {disk : Disk} {path : Bytes} {dir other : FileIdentity}
    {entries : Entries} {mode : UInt32} (isAt : system.IsAt disk path dir) :
    system.IsAt (disk.set other (.directory entries mode)) path dir := by
  obtain ⟨leads, entries', mode', found⟩ := isAt
  refine ⟨leads, ?_⟩
  by_cases same : dir = other
  · exact ⟨entries, mode, by simp [same]⟩
  · exact ⟨entries', mode', (Disk.inode_set_of_ne same).trans found⟩

theorem looks_openDirectoryForAccess (path : Bytes) :
    Looks system (openDirectoryForAccess system path) fun disk dir =>
      system.IsAt disk path dir := by
  refine (looks_query _).weaken fun disk dir => ?_
  unfold System.IsAt
  cases leads : system.leadsTo path with
  | none => simp
  | some identity =>
    simp only [bind_eq_ok, Option.some.injEq]
    constructor
    · intro opened
      obtain ⟨⟨entries, mode⟩, opened, same⟩ := opened
      cases same
      exact ⟨rfl, entries, mode, (Disk.directory_eq_ok.mp opened).1⟩
    · intro found
      obtain ⟨rfl, entries, mode, found⟩ := found
      exact ⟨(entries, mode), Disk.directory_eq_ok.mpr ⟨found, by simp [permits]⟩, rfl⟩

theorem looks_reopenDirectory (path : Bytes) :
    Looks system (reopenDirectory system path) fun disk dir => system.leadsTo path = some dir ∧
      ∃ entries mode, disk.inode dir = some (.directory entries mode) ∧
        permits mode 0o400 = true := by
  refine (looks_query _).weaken fun disk dir => ?_
  cases leads : system.leadsTo path with
  | none => simp
  | some identity =>
    simp only [bind_eq_ok, Option.some.injEq]
    constructor
    · intro opened
      obtain ⟨⟨entries, mode⟩, opened, same⟩ := opened
      cases same
      exact ⟨rfl, entries, mode, Disk.directory_eq_ok.mp opened⟩
    · intro found
      obtain ⟨rfl, entries, mode, found⟩ := found
      exact ⟨(entries, mode), Disk.directory_eq_ok.mpr found, rfl⟩

theorem looks_symlinkMetadata (path : Bytes) :
    Looks system (symlinkMetadata system path) fun disk found =>
      system.leadsTo path = some found.1 ∧ disk.inode found.1 = some found.2 := by
  refine (looks_query _).weaken fun disk found => ?_
  rcases found with ⟨identity, inode⟩
  cases leads : system.leadsTo path with
  | none => simp
  | some other =>
    simp only [map_eq_ok, Disk.stat_eq_ok, Option.some.injEq, Prod.mk.injEq]
    constructor
    · intro found
      obtain ⟨_, found, rfl, rfl⟩ := found
      exact ⟨rfl, found⟩
    · intro found
      obtain ⟨rfl, found⟩ := found
      exact ⟨inode, found, rfl, rfl⟩

/-- A handle that is the expected one. -/
theorem looks_verifyDirectoryHandleIdentity (directory expected : FileIdentity)
    (description : String) :
    Looks system (verifyDirectoryHandleIdentity system directory expected description)
      fun disk _ => directory = expected ∧ disk.inode directory ≠ none := by
  refine (looks_query _).then_require ?_ ?_ ?_
  · exact fun disk inode found holds => if_pos holds.1
  · intro disk inode found fails
    have differs : directory ≠ expected := fun same =>
      fails ⟨same, by simp [Disk.stat_eq_ok.mp found]⟩
    exact ⟨_, if_neg differs⟩
  · intro disk holds
    obtain ⟨inode, found⟩ := Option.ne_none_iff_exists'.mp holds.2
    exact ⟨inode, Disk.stat_eq_ok.mpr found⟩

theorem isDir_iff {inode : Inode} :
    inode.isDir = true ↔ ∃ entries mode, inode = .directory entries mode := by
  cases inode <;> simp [Inode.isDir]

theorem looks_verifyPathIdentity (path : Bytes) (retained : FileIdentity) (description : String) :
    Looks system (verifyPathIdentity system path retained description)
      fun disk _ => system.IsAt disk path retained := by
  refine (looks_query _).before (fun _ => (looks_symlinkMetadata path).then_require ?_ ?_ ?_) ?_
  · intro disk found leads isAt
    obtain ⟨leads', entries, mode, here⟩ := isAt
    rw [leads.1, Option.some.injEq] at leads'
    rw [leads', here, Option.some.injEq] at leads
    exact if_pos ⟨by rw [← leads.2]; rfl, leads'⟩
  · intro disk found leads isAt
    refine ⟨_, if_neg fun holds => isAt ?_⟩
    obtain ⟨isDirectory, rfl⟩ := holds
    obtain ⟨entries, mode, same⟩ := isDir_iff.mp isDirectory
    exact ⟨leads.1, entries, mode, leads.2.trans (congrArg some same)⟩
  · intro disk isAt
    obtain ⟨leads, entries, mode, here⟩ := isAt
    exact ⟨(retained, _), leads, here⟩
  · intro disk _ isAt
    obtain ⟨-, entries, mode, found⟩ := isAt
    exact ⟨_, Disk.stat_eq_ok.mpr found⟩

/-- A directory that has to be the expected one, when one is expected. -/
def Expected (expected : Option FileIdentity) (directory : FileIdentity) : Prop :=
  ∀ identity, expected = some identity → directory = identity

theorem looks_verifyExpected (directory : FileIdentity) (expected : Option FileIdentity)
    (description : String) :
    Looks system (verifyExpected system directory expected description)
      fun disk _ => Expected expected directory ∧ (expected ≠ none → disk.inode directory ≠ none) := by
  cases expected with
  | none => exact fun s => ⟨rfl, Nat.le_refl _, by simp [Expected]⟩
  | some identity =>
    refine (looks_verifyDirectoryHandleIdentity directory identity description).weaken
      fun disk _ => ?_
    simp [Expected]

/-- A directory that has just been opened for access may be synced by path and identity. -/
def Syncable (system : System) (disk : Disk) (path : Bytes) (access : FileIdentity)
    (expected : Option FileIdentity) : Prop :=
  system.IsAt disk path access ∧ Expected expected access

theorem System.IsAt.inode_ne_none {disk : Disk} {path : Bytes} {dir : FileIdentity}
    (isAt : system.IsAt disk path dir) : disk.inode dir ≠ none := by
  obtain ⟨-, entries, mode, found⟩ := isAt
  simp [found]

/-- While no name goes. -/
def Nothing (_ : FileIdentity) (_ : Name) : Prop := False

section Sync

variable {path : Bytes} {access : FileIdentity} {expected : Option FileIdentity}
  {description : String}

/-- A sync of a directory leaves the disk alone or fails, and then the directory may have
lost no more than its mode. -/
abbrev Syncs (system : System) (path : Bytes) (access : FileIdentity)
    (expected : Option FileIdentity) (part : Calls Unit) (s : Machine) : Prop :=
  Does system (fun disk => Syncable system disk path access expected)
    (fun disk later => later = disk) (Shrinks Nothing) part s

/-- An attempt to set the mode of a directory, which either has the one or the other then. -/
theorem ends_attempt_setMode {next : Except String Unit → Calls Unit} {s : Machine}
    {Q : Unit → Machine → Prop} {E : Stop → Machine → Prop} {entries : Entries}
    {mode mode' : UInt32} (found : s.disk.inode access = some (.directory entries mode))
    (done : (next (.ok ())).Ends Q E ⟨s.disk.set access (.directory entries mode'), s.calls + 1⟩)
    (fails : ∀ text, Disturbed system s.calls (s.calls + 1) →
      (next (.error text)).Ends Q E ⟨s.disk, s.calls + 1⟩)
    (killed : Disturbed system s.calls (s.calls + 1) → E .killed ⟨s.disk, s.calls + 1⟩) :
    (Calls.attempt (update system fun disk => disk.setMode access mode') >>= next).Ends Q E s := by
  apply ends_attempt_bind
  apply ends_update
  · intro disk changed
    obtain ⟨entries', mode'', found', rfl⟩ := Disk.setMode_eq_ok.mp changed
    rw [found] at found'
    cases found'
    exact done
  · intro text failed
    rw [Disk.setMode_of_directory mode' found] at failed
    cases failed
  · intro stop disturbed
    cases stop with
    | error text => exact fails text disturbed
    | killed => exact killed disturbed

/-- What is done with the directory that was opened once more. -/
theorem syncs_reopened {s : Machine} {identity : FileIdentity} (isAt : system.IsAt s.disk path access) (leads : system.leadsTo path = some identity) :
    Syncs system path access expected (do
      let _ ← query system fun disk => disk.stat access
      let inode ← query system fun disk => disk.stat identity
      if ¬ (inode.isDir ∧ identity = access) then
        Calls.fail "reopened directory is not the retained directory"
      else do
        verifyExpected system identity expected description
        verifyPathIdentity system path identity description
        syncAll system
        verifyPathIdentity system path identity description) s := by
  obtain rfl : access = identity := Option.some.inj (isAt.1.symm.trans leads)
  obtain ⟨-, entries, mode, found⟩ := isAt
  refine (looks_query _).does_bind (.refl _) ?_ fun _ => ⟨_, Disk.stat_eq_ok.mpr found⟩
  intro _ t disk₁ _
  rw [← disk₁] at found
  refine (looks_query _).does_bind (.refl _) ?_ fun _ => ⟨_, Disk.stat_eq_ok.mpr found⟩
  intro inode u disk₂ stat
  rw [Disk.stat_eq_ok, found] at stat
  cases stat
  rw [if_neg (by simp [Inode.isDir])]
  refine (looks_verifyExpected _ _ _).does_bind (.refl _) ?_ fun syncable =>
    ⟨(), syncable.2, fun _ => syncable.1.inode_ne_none⟩
  intro _ v disk₃ isExpected
  refine (looks_verifyPathIdentity _ _ _).does_bind (.refl _) ?_ fun syncable => ⟨(), syncable.1⟩
  intro _ w disk₄ _
  refine looks_syncAll.does_bind (.refl _) ?_ fun _ => ⟨(), trivial⟩
  intro _ x disk₅ _
  exact (looks_verifyPathIdentity _ _ _).does (.refl _) (fun _ _ => rfl) fun _ =>
    ⟨fun isAt => ⟨isAt, isExpected.1⟩, fun syncable => syncable.1⟩

/-- The error of a directory that could not be opened once more: its mode is what it was, or the
one for that moment. -/
theorem ends_failAndRestoreMode {u v : Machine} {entries : Entries} {mode : UInt32}
    {text : String} (found : u.disk.inode access = some (.directory entries mode))
    (disk : v.disk = u.disk.set access (.directory entries (mode ||| 0o500)))
    (calls : u.calls ≤ v.calls)
    (why : Syncable system u.disk path access expected → Disturbed system u.calls v.calls) :
    (failAndRestoreMode system access mode text).Ends
      (fun _ t => t.disk = u.disk ∧ u.calls ≤ t.calls ∧ Syncable system u.disk path access expected)
      (fun _ t => Shrinks Nothing u.disk t.disk ∧ u.calls ≤ t.calls ∧
        (Syncable system u.disk path access expected → Disturbed system u.calls t.calls)) v := by
  have now : v.disk.inode access = some (.directory entries (mode ||| 0o500)) := by
    rw [disk, Disk.inode_set_self]
  have widened : Shrinks Nothing u.disk v.disk :=
    disk ▸ .set_directory found (.inr rfl) fun _ => .inl rfl
  have restored : v.disk.set access (.directory entries mode) = u.disk := by
    rw [disk, Disk.set_set, Disk.set_same found]
  have later : Syncable system u.disk path access expected →
      Disturbed system u.calls (v.calls + 1) :=
    fun syncable => (why syncable).mono (Nat.le_refl _) (Nat.le_succ _)
  unfold failAndRestoreMode
  apply ends_attempt_setMode now
  · exact ⟨by rw [restored]; exact .refl _, Nat.le_succ_of_le calls, later⟩
  · exact fun _ _ => ⟨widened, Nat.le_succ_of_le calls, later⟩
  · exact fun _ => ⟨widened, Nat.le_succ_of_le calls, later⟩

theorem syncs_syncReadable (s : Machine) :
    Syncs system path access expected (syncReadable system path access expected description) s := by
  unfold syncReadable
  refine (looks_query _).does_bind (.refl _) ?_ ?_
  swap
  · intro syncable
    obtain ⟨⟨-, entries, mode, found⟩, -⟩ := syncable
    exact ⟨(entries, mode), Disk.directory_eq_ok.mpr ⟨found, by simp [permits]⟩⟩
  rintro ⟨entries, mode⟩ t disk opened
  have found := (Disk.directory_eq_ok.mp opened).1
  rw [← disk] at found
  dsimp only
  refine (looks_verifyPathIdentity _ _ _).does_bind (.refl _) ?_ fun syncable => ⟨(), syncable.1⟩
  intro _ u disk' isAt
  rw [← disk'] at isAt found
  clear! t s
  have widened : Shrinks Nothing u.disk (u.disk.set access (.directory entries (mode ||| 0o500))) :=
    .set_directory found (.inr rfl) fun _ => .inl rfl
  have restored : (u.disk.set access (.directory entries (mode ||| 0o500))).set access
      (.directory entries mode) = u.disk := by rw [Disk.set_set, Disk.set_same found]
  unfold Does
  rw [Effect.ends_bind]
  apply ends_update
  · intro later changed
    obtain ⟨entries', mode', found', rfl⟩ := Disk.setMode_eq_ok.mp changed
    rw [found] at found'
    cases found'
    have now : (u.disk.set access (.directory entries (mode ||| 0o500))).inode access =
      some (.directory entries (mode ||| 0o500)) := by simp
    have readable : permits (mode ||| 0o500) 0o400 = true := by
      rw [UInt32.or_comm]
      exact permits_or _ (by decide)
    apply ends_attempt_bind
    refine (looks_reopenDirectory path _).mono ?_ ?_
    · intro identity v holds
      obtain ⟨disk, calls, leads, -⟩ := holds
      have calls : u.calls ≤ v.calls := Nat.le_of_succ_le calls
      dsimp only at disk
      rw [← disk] at widened restored now
      apply ends_attempt_setMode now
      · rw [restored]
        exact (syncs_reopened (s := ⟨u.disk, v.calls + 1⟩) isAt leads).of_same rfl
          (Nat.le_succ_of_le calls)
      · intro text disturbed
        have disturbed : Disturbed system u.calls (v.calls + 1 + 1) :=
          disturbed.mono calls (Nat.le_succ _)
        have calls : u.calls ≤ v.calls + 1 + 1 := by omega
        dsimp only
        apply ends_attempt_setMode (s := ⟨v.disk, v.calls + 1⟩) now
        · exact ⟨by rw [restored]; exact .refl _, calls, fun _ => disturbed⟩
        · exact fun _ _ => ⟨widened, calls, fun _ => disturbed⟩
        · exact fun _ => ⟨widened, calls, fun _ => disturbed⟩
      · exact fun disturbed =>
          ⟨widened, Nat.le_succ_of_le calls, fun _ => disturbed.mono calls (Nat.le_refl _)⟩
    · intro stop v holds
      obtain ⟨disk, calls, why⟩ := holds
      have disturbed : Disturbed system u.calls v.calls :=
        (why ⟨access, isAt.1, _, _, now, readable⟩).mono (Nat.le_succ _) (Nat.le_refl _)
      cases stop with
      | error text =>
        exact ends_failAndRestoreMode found disk (Nat.le_of_succ_le calls) fun _ => disturbed
      | killed => exact ⟨disk ▸ widened, Nat.le_of_succ_le calls, fun _ => disturbed⟩
  · intro text failed
    rw [Disk.setMode_of_directory (mode ||| 0o500) found] at failed
    cases failed
  · exact fun stop disturbed => ⟨.refl _, Nat.le_succ _, fun _ => disturbed⟩

theorem syncs_syncRetainedDirectory (s : Machine) : Syncs system path access expected
    (syncRetainedDirectory system path access expected description) s := by
  unfold syncRetainedDirectory
  refine (looks_verifyPathIdentity _ _ _).does_bind (.refl _) ?_ fun syncable => ⟨(), syncable.1⟩
  intro _ t _ _
  refine (looks_verifyExpected _ _ _).does_bind (.refl _) ?_ fun syncable =>
    ⟨(), syncable.2, fun _ => syncable.1.inode_ne_none⟩
  intro _ u _ isExpected
  by_cases syncs : system.syncsAccess = true
  · rw [if_pos syncs]
    refine looks_syncAll.does_bind (.refl _) ?_ fun _ => ⟨(), trivial⟩
    intro _ v _ _
    exact (looks_verifyPathIdentity _ _ _).does (.refl _) (fun _ _ => rfl) fun _ =>
      ⟨fun isAt => ⟨isAt, isExpected.1⟩, fun syncable => syncable.1⟩
  · rw [if_neg syncs]
    exact syncs_syncReadable u

end Sync

end Duet.Recovery
