import Duet.Orchestrator.Sync
import Duet.StrongDigests

/-!
# What a migration saves

A snapshot without digests makes every strong synchronization hash the whole scope, until
a V2 snapshot is saved for it. A run saves when it applies a plan, and the plan of a
migration is empty exactly when no path of the scope needs anything.
-/

namespace Duet

open Lib

/-! ## Snapshots without digests -/

/-- The snapshot has to be migrated before a strong comparison. -/
def LoadedEntries.needsMigration (loaded : LoadedEntries) (scope : ScanScope) : Bool :=
  loaded.format = .legacyV1 || lacksDigests (selectedEntries scope loaded.entries)

/-- The snapshots of both sides are in the V2 format, with a digest for every file of the
scope, and the next strong comparison finds nothing to migrate. -/
structure StateMigrated (scope : ScanScope) (saved : Snapshots) : Prop where
  stored : ∀ side, ∃ loaded, saved side = some loaded ∧ loaded.format = .v2 ∧
    ∀ e ∈ loaded.entries, scope.selected e.path = true → e.isFile = true → e.digest.isSome = true
  next : ∀ side hash scanned context,
    oldAndChanges hash scope (saved side) scanned true = .ok context →
      context.migrationNeeded = false

section Needs

variable {hash : ContentHash} {scope : ScanScope} {loaded : LoadedEntries}
  {statefile : Option LoadedEntries} {scanned : Entries} {strong : Bool}
  {context : State.ScanContext}

theorem migrationNeeded_of_oldAndChanges
    (ok : oldAndChanges hash scope statefile scanned strong = .ok context) :
    context.migrationNeeded = (strong && (statefile.getD ⟨[], .v2⟩).needsMigration scope) := by
  obtain ⟨loaded, loads, ok⟩ := bind_eq_ok.mp ok
  rw [← (loadEntriesWithFormat_spec loads).1]
  dsimp only at ok
  split at ok
  · next needed =>
    obtain ⟨current, -, done⟩ := bind_eq_ok.mp ok
    cases done
    rfl
  · next settled =>
    obtain ⟨hashed, -, done⟩ := bind_eq_ok.mp ok
    cases done
    rfl

theorem needsMigration_eq_false (format : loaded.format = .v2)
    (digests : ∀ e ∈ loaded.entries, scope.selected e.path = true → e.isFile = true →
      e.digest.isSome = true) : loaded.needsMigration scope = false := by
  unfold LoadedEntries.needsMigration lacksDigests
  rw [format, Bool.or_eq_false_iff]
  refine ⟨rfl, List.any_eq_false.mpr ?_⟩
  intro e mem
  obtain ⟨inside, selected⟩ := List.mem_filter.mp mem
  cases file : e.isFile with
  | false => simp
  | true => simp [Option.isSome_iff_ne_none.mp (digests e inside selected file)]

/-- Snapshots that carry all digests are migrated. -/
theorem stateMigrated_of_digests {saved : Snapshots}
    (stored : ∀ side, ∃ loaded, saved side = some loaded ∧ loaded.format = .v2 ∧
      ∀ e ∈ loaded.entries, scope.selected e.path = true → e.isFile = true →
        e.digest.isSome = true) : StateMigrated scope saved := by
  refine ⟨stored, fun side hash scanned context report => ?_⟩
  obtain ⟨loaded, isSaved, format, digests⟩ := stored side
  rw [migrationNeeded_of_oldAndChanges report, isSaved, Bool.true_and]
  exact needsMigration_eq_false format digests

end Needs

/-! ## Paths that need nothing -/

/-- The digest of a scanned file: its hash where the snapshot has to be migrated, and else
the saved digest. -/
def SyncRun.currentDigest (run : SyncRun) (saved : Snapshots) (side : Side)
    (e : DirEntryWithMeta) : Option ContentDigest :=
  if ((saved side).getD ⟨[], .v2⟩).needsMigration run.scope then
    (run.hash side e.hashSource).toOption.map Prod.snd
  else (entryAt e.path (saved.entries side)).bind DirEntryWithMeta.digest

/-- The entry that a side has now, as a strong comparison sees it. -/
def SyncRun.currentEntry (run : SyncRun) (saved : Snapshots) (side : Side) (p : Path) :
    Option DirEntryWithMeta :=
  (entryAt p (run.scanned side)).map fun e => { e with digest := run.currentDigest saved side e }

/-- Neither side has the path any more, or both have kept the same entry there since their
snapshots. -/
def SyncRun.SettledAt (run : SyncRun) (saved : Snapshots) (p : Path) : Prop :=
  (∀ side, entryAt p (run.scanned side) = none) ∨
    (∀ side, changeOf (entryAt p (saved.entries side), entryAt p (run.scanned side)) = none) ∧
      equivalent (run.currentEntry saved .local p) (run.currentEntry saved .remote p) = true

section Settled

variable {l r l' r' : Option DirEntryWithMeta} {left right : Bool} {p : Path}

/-- A migration has nothing to do at a path where both sides have nothing, and where the
entries are equivalent and no side lists a change. -/
theorem migrationAction_eq_none : migrationAction left right l r = none ↔
    (l = none ∧ r = none) ∨ (left = false ∧ right = false ∧ equivalent l r = true) := by
  cases l with
  | none =>
    cases r with
    | none => cases left <;> cases right <;> simp [migrationAction, migrationChange, equivalent]
    | some r =>
      cases left <;> cases right <;>
        simp [migrationAction, migrationChange, equivalent, migrationConflict]
  | some l =>
    cases r with
    | none =>
      cases left <;> cases right <;>
        simp [migrationAction, migrationChange, equivalent, migrationConflict]
    | some r =>
      unfold migrationAction
      cases left <;> cases right <;> cases equivalent (some l) (some r) <;>
        simp [migrationChange, migrationConflict]

/-- File contents are compared where both entries are files. -/
theorem sameWithFileContents_congr {a b : DirEntryWithMeta} {x y : Bool}
    (files : a.isFile = true → b.isFile = true → x = y) :
    sameWithFileContents (.added a) (.added b) (fun _ _ => x) =
      sameWithFileContents (.added a) (.added b) (fun _ _ => y) := by
  simp only [sameWithFileContents]
  cases fileA : a.isFile with
  | false => rfl
  | true =>
    cases fileB : b.isFile with
    | true => rw [files fileA fileB]
    | false =>
      have other : (a.target == b.target && a.isDir == b.isDir) = false := by
        rw [Bool.and_eq_false_iff]
        by_contra same
        simp only [not_or, Bool.not_eq_false, beq_iff_eq] at same
        have files : a.isFile = b.isFile := by
          rw [DirEntryWithMeta.isFile, DirEntryWithMeta.isFile, DirEntryWithMeta.isSymlink,
            DirEntryWithMeta.isSymlink, same.1, same.2]
        rw [fileA, fileB] at files
        cases files
      rw [Bool.and_assoc _ (a.target == b.target), other]
      simp

/-- Only digests of files are compared. -/
theorem sameStrong_congr {a a' b b' : DirEntryWithMeta} (left : a.SameScan a')
    (right : b.SameScan b') (digestL : a.isFile = true → a.digest = a'.digest)
    (digestR : b.isFile = true → b.digest = b'.digest) :
    sameStrong (.added a) (.added b) = sameStrong (.added a') (.added b') := by
  show sameWithFileContents (.added a.withoutHashes) (.added b.withoutHashes) (fun _ _ => _) =
    sameWithFileContents (.added a'.withoutHashes) (.added b'.withoutHashes) (fun _ _ => _)
  rw [← show a.withoutHashes = a'.withoutHashes from left,
    ← show b.withoutHashes = b'.withoutHashes from right]
  apply sameWithFileContents_congr
  intro fileA fileB
  rw [digestL fileA, digestR fileB]

/-- The same entry for a strong comparison. -/
structure SameStrongEntry (e e' : DirEntryWithMeta) : Prop where
  scan : e.SameScan e'
  digest : e.isFile = true → e.digest = e'.digest

theorem equivalent_congr (left : Option.Rel SameStrongEntry l l')
    (right : Option.Rel SameStrongEntry r r') : equivalent l r = equivalent l' r' := by
  cases left with
  | none => cases right <;> rfl
  | some sameL =>
    cases right with
    | none => rfl
    | some sameR => exact sameStrong_congr sameL.scan sameR.scan sameL.digest sameR.digest

end Settled

section Report

variable {run : SyncRun} {saved : Snapshots} {side : Side} {report : State.ScanContext} {p : Path}

/-- What a path of the scope has in a report. -/
theorem SyncRun.reportAt (sorted : saved.Sorted) (scans : run.ScansSorted)
    (ok : run.report saved side = .ok report) (selected : run.scope.selected p = true) :
    (entryAt p report.current).isSome = (entryAt p (run.scanned side)).isSome ∧
      (lookup Change.path p report.changes).isSome =
        (changeOf (entryAt p (saved.entries side), entryAt p (run.scanned side))).isSome := by
  have compares := SyncRun.compares sorted scans ok
  have current := isSome_of_rel (compares.currentAt p)
  have change := isSome_of_rel (compares.changeAt p)
  rw [entryAt_selectedEntries (scans side), selected] at current change
  rw [entryAt_selectedEntries (sorted_getD (sorted side)), selected] at change
  exact ⟨current.symm, change.symm⟩

/-- An entry that has not changed is reported with the digest that it has now. -/
theorem SyncRun.reported_current (strong : run.strong = true) (sorted : saved.Sorted)
    (scans : run.ScansSorted) (ok : run.report saved side = .ok report)
    (selected : run.scope.selected p = true)
    (unchanged : (lookup Change.path p report.changes).isSome = false) :
    Option.Rel SameStrongEntry (run.currentEntry saved side p) (entryAt p report.current) := by
  have compares := SyncRun.compares sorted scans ok
  have current := compares.currentAt p
  rw [entryAt_selectedEntries (scans side), selected, if_pos rfl] at current
  have needed : report.migrationNeeded =
      ((saved side).getD ⟨[], .v2⟩).needsMigration run.scope := by
    have needed := migrationNeeded_of_oldAndChanges ok
    rwa [strong, Bool.true_and] at needed
  unfold SyncRun.currentEntry
  cases found : entryAt p report.current with
  | none =>
    rw [found] at current
    have absent : entryAt p (run.scanned side) = none := by simpa using isSome_of_rel current
    rw [absent]
    exact .none
  | some e =>
    rw [found] at current
    obtain ⟨scanned, isScanned, same⟩ := exists_of_rel_some current
    rw [isScanned]
    refine .some ⟨same, fun file => ?_⟩
    show run.currentDigest saved side scanned = e.digest
    unfold SyncRun.currentDigest
    cases migration : report.migrationNeeded with
    | true =>
      obtain ⟨checksum, digest, hashed, isDigest⟩ :=
        compares.migrated migration e (mem_of_lookup found) (same.isFile.trans file)
      have source : scanned.hashSource = e.hashSource := by
        have sources : scanned.withoutHashes.hashSource = e.withoutHashes.hashSource :=
          congrArg _ same
        exact sources
      rw [← needed, migration, if_pos rfl, source, hashed, isDigest]
      rfl
    | false =>
      have unlisted : lookup Change.path p report.changes = none := by simpa using unchanged
      obtain ⟨old, isOld, digest⟩ :=
        compares.saved_digest (sorted_getD (sorted side)) migration unlisted found
      have path : scanned.path = p := key_of_lookup isScanned
      have isSaved : entryAt p (saved.entries side) = some old := by
        rw [compares.allOld] at isOld
        exact isOld
      rw [← needed, migration, if_neg Bool.false_ne_true, path, isSaved, digest]
      rfl

/-- The plan of a migration is empty where every path of the scope is settled. -/
theorem SyncRun.plan_eq_nil {context : Side → State.ScanContext} (strong : run.strong = true)
    (sorted : saved.Sorted) (scans : run.ScansSorted)
    (reports : ∀ side, run.report saved side = .ok (context side)) :
    buildMigrationActions (context .local).changes (context .remote).changes
        (context .local).current (context .remote).current = [] ↔
      ∀ p, run.scope.selected p = true → run.SettledAt saved p := by
  have planned : buildMigrationActions (context .local).changes (context .remote).changes
      (context .local).current (context .remote).current = [] ↔
      ∀ p, migrationAction (lookup Change.path p (context .local).changes).isSome
        (lookup Change.path p (context .remote).changes).isSome
        (entryAt p (context .local).current) (entryAt p (context .remote).current) = none := by
    constructor
    · intro empty p
      rw [← lookup_buildMigrationActions, empty]
      rfl
    · intro nothing
      apply List.eq_nil_iff_forall_not_mem.mpr
      intro a mem
      have found := sorted_buildMigrationActions.lookup_of_mem mem
      rw [lookup_buildMigrationActions, nothing] at found
      cases found
  rw [planned]
  refine forall_congr' fun p => ?_
  rw [migrationAction_eq_none]
  cases selected : run.scope.selected p with
  | false =>
    have outside : ∀ side, entryAt p (context side).current = none := by
      intro side
      have within := (SyncRun.compares sorted scans (reports side)).currentAt p
      rw [entryAt_selectedEntries (scans side), selected] at within
      simpa using isSome_of_rel within
    simp [outside]
  | true =>
    have absent : ∀ side, entryAt p (context side).current = none ↔
        entryAt p (run.scanned side) = none := by
      intro side
      have same := (SyncRun.reportAt sorted scans (reports side) selected).1
      rw [← Option.isNone_iff_eq_none, ← Option.isNone_iff_eq_none, ← Option.isSome_eq_false_iff,
        ← Option.isSome_eq_false_iff, same]
    have unlisted : ∀ side, (lookup Change.path p (context side).changes).isSome = false ↔
        changeOf (entryAt p (saved.entries side), entryAt p (run.scanned side)) = none := by
      intro side
      rw [(SyncRun.reportAt sorted scans (reports side) selected).2, Option.isSome_eq_false_iff,
        Option.isNone_iff_eq_none]
    rw [absent, absent, unlisted .local, unlisted .remote]
    have sides : ∀ P : Side → Prop, (∀ side, P side) ↔ P .local ∧ P .remote :=
      fun P => ⟨fun all => ⟨all .local, all .remote⟩, fun both side => by
        cases side
        · exact both.1
        · exact both.2⟩
    unfold SyncRun.SettledAt
    rw [sides, sides, and_assoc]
    simp only [true_implies]
    refine or_congr Iff.rfl (and_congr_right fun left => and_congr_right fun right => ?_)
    rw [equivalent_congr
      (SyncRun.reported_current strong sorted scans (reports .local) selected
        ((unlisted .local).mpr left))
      (SyncRun.reported_current strong sorted scans (reports .remote) selected
        ((unlisted .remote).mpr right))]

end Report

/-! ## Digests in the merged manifests -/

section Merge

variable {P : DirEntryWithMeta → Prop} {before after current : Entries} {wave actions : Actions}
  {waves : List Actions} {ino : Path → UInt64} {scope : ScanScope} {e : DirEntryWithMeta}

/-- An entry that an action records is one of its own, up to the inode, or was there
before. -/
theorem recorded_of_mergeAction {a : Action} {index : Nat} {old : Option DirEntryWithMeta}
    (made : mergeAction ((a, (a.appliedChange.bind Change.newEntry).map (·.setIno (ino a.path))),
      index) old = .ok (some e)) :
    old = some e ∨ ∃ c ∈ a.changes, ∃ e' ∈ c.entries, e = e' ∨ e = e'.setIno (ino a.path) := by
  have ownNew : ∀ c ∈ a.changes, c.newEntry = some e →
      ∃ c ∈ a.changes, ∃ e' ∈ c.entries, e = e' ∨ e = e'.setIno (ino a.path) := by
    intro c inside isNew
    exact ⟨c, inside, e, Change.mem_entries.mpr (.inr isNew), .inl rfl⟩
  have ownResult : ∀ c ∈ a.changes, ∀ new, c.newEntry = some new → e = new.setIno (ino a.path) →
      ∃ c ∈ a.changes, ∃ e' ∈ c.entries, e = e' ∨ e = e'.setIno (ino a.path) := by
    intro c inside new isNew result
    exact ⟨c, inside, new, Change.mem_entries.mpr (.inr isNew), .inr result⟩
  cases a with
  | conflict lc rc => exact .inl (Except.ok.inj made)
  | remote c => exact .inr (ownNew c (by simp [Action.changes]) (Except.ok.inj made))
  | resolvedRemote pair c => exact .inr (ownNew c (by simp [Action.changes]) (Except.ok.inj made))
  | identical lc rc => exact .inr (ownNew lc (by simp [Action.changes]) (Except.ok.inj made))
  | «local» c | resolvedLocal pair c =>
    cases c with
    | removed old => cases made
    | added new =>
      cases made
      exact .inr (ownResult (.added new) (by simp [Action.changes]) new rfl rfl)
    | modified old new =>
      cases made
      exact .inr (ownResult (.modified old new) (by simp [Action.changes]) new rfl rfl)

/-- What holds of the old entries and of all entries of the plan holds of the merged ones. -/
theorem merged_forall (steady : ∀ e ino, P e → P (e.setIno ino)) (start : ∀ e ∈ before, P e)
    (plan : ∀ a ∈ wave, ∀ c ∈ a.changes, ∀ e ∈ c.entries, P e)
    (merges : mergeStagedManifest before wave (localResults ino wave) = .ok after) :
    ∀ e ∈ after, P e := by
  have lengths : (localResults ino wave).length = wave.length := by simp [localResults]
  unfold mergeStagedManifest at merges
  rw [if_neg (not_not.mpr lengths), zip_localResults] at merges
  intro e mem
  rcases mem_of_mergeUpdatesM_ok merges mem with kept | ⟨slot, inside, old, before, made⟩
  · exact start e kept
  · obtain ⟨a, isAction, same⟩ := List.mem_map.mp (List.fst_mem_of_mem_zipIdx inside)
    obtain ⟨pair, index⟩ := slot
    cases same
    rcases recorded_of_mergeAction made with kept | ⟨c, isChange, e', isEntry, rfl | rfl⟩
    · exact start e (before e kept)
    · exact plan a isAction c isChange e isEntry
    · exact steady e' _ (plan a isAction c isChange e' isEntry)

theorem committed_forall (steady : ∀ e ino, P e → P (e.setIno ino)) (start : ∀ e ∈ before, P e)
    (plan : ∀ wave ∈ waves, ∀ a ∈ wave, ∀ c ∈ a.changes, ∀ e ∈ c.entries, P e)
    (commits : commitWaves ino before waves = .ok after) : ∀ e ∈ after, P e := by
  induction waves generalizing before with
  | nil =>
    cases commits
    exact start
  | cons wave waves ih =>
    obtain ⟨merged, here, rest⟩ := foldlM_cons_eq_ok.mp commits
    have between := merged_forall steady start (plan wave List.mem_cons_self) here
    exact ih between (fun w mem => plan w (List.mem_cons_of_mem wave mem)) rest

theorem mem_replaceScope (mem : e ∈ replaceScope before scope current) :
    (e ∈ before ∧ scope.selected e.path = false) ∨ e ∈ current := by
  unfold replaceScope at mem
  rw [List.mem_mergeSort] at mem
  rcases List.mem_append.mp mem with kept | now
  · obtain ⟨inside, outside⟩ := List.mem_filter.mp kept
    exact .inl ⟨inside, by simpa using outside⟩
  · exact .inr now

/-- The baseline of a migration has the current entries of the scope. -/
theorem mem_baseline {context : State.ScanContext} {side : Side}
    (mem : e ∈ baseline scope true context side) :
    scope.selected e.path = false ∨ e ∈ context.current := by
  cases side with
  | «local» =>
    rcases mem_replaceScope mem with ⟨-, outside⟩ | now
    · exact .inl outside
    · exact .inr now
  | remote =>
    rcases mem_replaceScope mem with ⟨-, outside⟩ | now
    · exact .inl outside
    · exact .inr now

end Merge

/-! ## The saved snapshots -/

/-- If it is a file of the scope it has a digest. -/
def HasDigest (scope : ScanScope) (e : DirEntryWithMeta) : Prop :=
  scope.selected e.path = true → e.isFile = true → e.digest.isSome = true

section Saves

variable {run : SyncRun} {saved saved' : Snapshots} {context : Side → State.ScanContext}
  {decision : SyncDecision} {active : Actions} {waves : Side → List Actions}
  {after : Side → Entries}

/-- The decision of a migration, about the plan from the reports of the two sides. -/
theorem SyncRun.decided (strong : run.strong = true) (wet : run.dryRun = false)
    (decides : run.decide context = .ok decision) :
    Decided true run.answer (context .local) (context .remote) decision := by
  have received : receiveChanges run.scope true (context .remote) = context .remote := by
    unfold receiveChanges
    rw [Bool.or_true, if_pos rfl]
  unfold SyncRun.decide at decides
  rw [strong, wet, received] at decides
  exact decided_of_decideSync decides

/-- What the waves of a migration merge has digests for the files of the scope. -/
theorem SyncRun.merged_digests (strong : run.strong = true) (sorted : saved.Sorted)
    (scans : ∀ side, Scanned (run.scanned side))
    (reports : ∀ side, run.report saved side = .ok (context side))
    (migration : run.migration context = true) (valid : validateStrongActions active = .ok ())
    (part : ∀ side, (waves side).flatten <+: active)
    (commits : ∀ side, commitWaves (run.ino side)
      (baseline run.scope (run.migration context) (context side) side)
      ((waves side).map fun wave => sideActions run.strong wave side) = .ok (after side))
    (side : Side) : ∀ e ∈ after side, HasDigest run.scope e := by
  have scansSorted : run.ScansSorted := fun side => (scans side).sorted
  have current : ∀ e ∈ (context side).current, StrongEntry e := by
    have compares := SyncRun.compares sorted scansSorted (reports side)
    rw [strong] at compares
    exact compares.strong_current (scans side)
  have start : ∀ e ∈ baseline run.scope (run.migration context) (context side) side,
      HasDigest run.scope e := by
    intro e mem selected file
    rw [migration] at mem
    rcases mem_baseline mem with outside | now
    · rw [outside] at selected
      cases selected
    · exact (current e now).digest file
  have steady : ∀ e ino, HasDigest run.scope e → HasDigest run.scope (e.setIno ino) :=
    fun _ _ has => has
  have strongEntries := validateStrongActions_eq_ok.mp valid
  apply committed_forall steady start _ (commits side)
  intro wave mem a inWave c inside e entry _ file
  obtain ⟨part', isWave, rfl⟩ := List.mem_map.mp mem
  have inActive : ∀ b ∈ part', b ∈ active := fun b inPart =>
    (part side).subset (List.mem_flatten.mpr ⟨part', isWave, inPart⟩)
  rw [strong] at inWave
  cases side with
  | «local» => exact (strongEntries a (inActive a inWave) c inside e entry).digest file
  | remote =>
    obtain ⟨b, inPart, rfl⟩ := List.mem_map.mp inWave
    exact (strongEntries b (inActive b inPart) c (Action.changes_of_flip inside) e entry).digest file

/-- A plan that is applied to its end saves migrated snapshots. -/
theorem SyncRun.saves_migrated (strong : run.strong = true) (nonempty : active ≠ [])
    (complete : ∀ side, (waves side).flatten = active)
    (digests : ∀ side, ∀ e ∈ after side, HasDigest run.scope e) :
    StateMigrated run.scope (run.saves saved waves after) := by
  apply stateMigrated_of_digests
  intro side
  have some : waves side ≠ [] := by
    intro none
    have whole := complete side
    rw [none] at whole
    exact nonempty whole.symm
  refine ⟨_, if_neg some, ?_, ?_⟩
  · rw [strong]
    rfl
  · rw [strong]
    exact digests side

/-- The snapshots before a run that has to migrate are not migrated. -/
theorem SyncRun.not_migrated (strong : run.strong = true)
    (needed : ∃ side report, run.report saved side = .ok report ∧ report.migrationNeeded = true) :
    ¬ StateMigrated run.scope saved := by
  rintro migrated
  obtain ⟨side, report, isReport, needed⟩ := needed
  unfold SyncRun.report at isReport
  rw [strong] at isReport
  rw [migrated.next side _ _ report isReport] at needed
  cases needed

end Saves

/-- A successful strong run that has to migrate leaves migrated snapshots on both sides
exactly when some path of the scope was not settled: with an empty plan it reports success
and saves nothing. -/
theorem migrationSaves_iff {run : SyncRun} {saved saved' : Snapshots}
    (strong : run.strong = true) (wet : run.dryRun = false) (sorted : saved.Sorted)
    (scans : ∀ side, Scanned (run.scanned side))
    (needed : ∃ side report, run.report saved side = .ok report ∧ report.migrationNeeded = true)
    (sync : Syncs run saved (.ok .success) saved') :
    StateMigrated run.scope saved' ↔
      ∃ p, run.scope.selected p = true ∧ ¬ run.SettledAt saved p := by
  have scansSorted : run.ScansSorted := fun side => (scans side).sorted
  have migrates : ∀ context : Side → State.ScanContext,
      (∀ side, run.report saved side = .ok (context side)) →
      ((context .local).migrationNeeded || (context .remote).migrationNeeded) = true := by
    intro context reports
    obtain ⟨side, report, isReport, isNeeded⟩ := needed
    cases isReport.symm.trans (reports side)
    cases side with
    | «local» => rw [isNeeded, Bool.true_or]
    | remote => rw [isNeeded, Bool.or_true]
  have planned : ∀ context : Side → State.ScanContext,
      (∀ side, run.report saved side = .ok (context side)) →
      (plannedActions true (context .local) (context .remote) = [] ↔
        ∀ p, run.scope.selected p = true → run.SettledAt saved p) := by
    intro context reports
    unfold plannedActions
    rw [migrates context reports, Bool.true_and, if_pos rfl]
    exact SyncRun.plan_eq_nil strong sorted scansSorted reports
  cases sync with
  | stopped unsuccessful => exact absurd rfl unsuccessful
  | @finished context _ reports decision =>
    cases SyncRun.decided strong wet decision with
    | refused unsuccessful => exact absurd rfl unsuccessful
    | nothing settled =>
      refine iff_of_false (SyncRun.not_migrated strong needed) ?_
      rintro ⟨p, selected, unsettled⟩
      exact unsettled ((planned context reports).mp settled p selected)
  | @applied context active waves after _ reports decision part complete commits =>
    cases SyncRun.decided strong wet decision with
    | @plan resolved nonempty resolves settles valid =>
      have migration : run.migration context = true := by
        unfold SyncRun.migration
        rw [strong, migrates context reports, Bool.and_self]
      have whole : (filterUnresolvedConflictDependencies resolved).1 = resolved :=
        active_of_resolved (settles (by rw [migrates context reports, Bool.true_and]))
      rw [whole] at part complete
      have remains : resolved ≠ [] := by
        rintro rfl
        exact nonempty (List.length_eq_zero_iff.mp
          (forall₂_of_mapM_some resolves).length_eq)
      have digests := SyncRun.merged_digests strong sorted scans reports migration (valid rfl) part
        commits
      refine iff_of_true (SyncRun.saves_migrated strong remains (complete rfl) digests) ?_
      by_contra settled
      apply nonempty
      apply (planned context reports).mpr
      intro p selected
      by_contra unsettled
      exact settled ⟨p, selected, unsettled⟩

/-- Both sides have a V1 snapshot of the same file, which has not changed since: the run has
nothing to do, and both snapshots stay as they are. -/
theorem migrationSaves_nothing :
    let file : DirEntryWithMeta := ⟨[.normal [97]], 1, 0, 7, 0o100644, none, false, 0, none⟩
    let saved : Snapshots := fun _ => some ⟨[file], .legacyV1⟩
    let run : SyncRun :=
      { scope := ⟨[], []⟩
        strong := true
        dryRun := false
        answer := ⟨.proceed, fun _ => none⟩
        hash := fun _ _ => .ok (5, ⟨Vector.replicate 32 1⟩)
        scanned := fun _ => [file]
        ino := fun _ _ => 7 }
    saved.Sorted ∧ (∀ side, Scanned (run.scanned side)) ∧
      (∀ side, ∃ report, run.report saved side = .ok report ∧ report.migrationNeeded = true) ∧
      Syncs run saved (.ok .success) saved ∧ ¬ StateMigrated run.scope saved := by
  intro file saved run
  let hashed : DirEntryWithMeta := { file with checksum := 5, digest := some ⟨.replicate 32 1⟩ }
  let report : State.ScanContext := ⟨[file], [], [hashed], true⟩
  have sorted : saved.Sorted := by
    intro side loaded isLoaded
    cases isLoaded
    decide
  have scan : Scanned [file] := ⟨by decide, by simp [CanonicalPath, file, Component.isNormal]⟩
  have scans : ∀ side, Scanned (run.scanned side) := fun _ => scan
  have reports : ∀ side, run.report saved side = .ok report := fun _ => rfl
  have paths : migrationPaths [] [] [hashed] [hashed] = [file.path] := by
    simp [migrationPaths, hashed]
  have plan : plannedActions true report report = [] := by
    show (migrationPaths [] [] [hashed] [hashed]).filterMap _ = []
    rw [paths]
    rfl
  have decision : run.decide (fun _ => report) = .ok (.finish .success) := by
    have received : receiveChanges run.scope true report = report := rfl
    unfold SyncRun.decide decideSync
    rw [received, plan]
    rfl
  have needed : ∀ side, ∃ r, run.report saved side = .ok r ∧ r.migrationNeeded = true :=
    fun side => ⟨report, reports side, rfl⟩
  exact ⟨sorted, scans, needed, .finished reports decision,
    SyncRun.not_migrated rfl ⟨.local, needed .local⟩⟩

/-- Both sides have an empty V1 snapshot, and the local side has a file to send. -/
theorem migrationSaves_iff_added :
    let file : DirEntryWithMeta := ⟨[.normal [97]], 1, 0, 7, 0o100644, none, false, 0, none⟩
    let saved : Snapshots := fun _ => some ⟨[], .legacyV1⟩
    let run : SyncRun :=
      { scope := ⟨[], []⟩
        strong := true
        dryRun := false
        answer := ⟨.proceed, fun _ => none⟩
        hash := fun _ _ => .ok (5, ⟨Vector.replicate 32 1⟩)
        scanned := bySide [file] []
        ino := fun _ _ => 7 }
    ∃ saved', Syncs run saved (.ok .success) saved' ∧ StateMigrated run.scope saved' := by
  intro file saved run
  let hashed : DirEntryWithMeta := { file with checksum := 5, digest := some ⟨.replicate 32 1⟩ }
  let context : Side → State.ScanContext :=
    bySide ⟨[], [.added file], [hashed], true⟩ ⟨[], [], [], true⟩
  have sorted : saved.Sorted := by
    intro side loaded isLoaded
    cases isLoaded
    decide
  have scans : ∀ side, Scanned (run.scanned side) := by
    intro side
    cases side with
    | «local» => exact ⟨by decide, by simp [CanonicalPath, run, bySide, file, Component.isNormal]⟩
    | remote => exact ⟨.nil, by simp [run, bySide]⟩
  have reports : ∀ side, run.report saved side = .ok (context side) := by
    intro side
    cases side <;> rfl
  have paths : migrationPaths [.added file] [] [hashed] [] = [file.path] := by
    simp [migrationPaths, hashed, Change.path]
  have plan : plannedActions true (context .local) (context .remote) = [.remote (.added hashed)] := by
    show (migrationPaths [.added file] [] [hashed] []).filterMap _ = _
    rw [paths]
    rfl
  have decision : run.decide context = .ok (.apply [.remote (.added hashed)]) := by
    have received : receiveChanges run.scope true (context .remote) = context .remote := rfl
    unfold SyncRun.decide decideSync
    rw [received, plan]
    rfl
  have commits : ∀ side, commitWaves (run.ino side)
      (baseline run.scope (run.migration context) (context side) side)
      ([[.remote (.added hashed)]].map fun wave => sideActions run.strong wave side) =
        .ok [hashed] := by
    intro side
    cases side with
    | «local» =>
      have base : baseline run.scope (run.migration context) (context .local) .local = [hashed] := by
        simp [baseline, run, context, bySide, SyncRun.migration, replaceScope]
      rw [base]
      rfl
    | remote =>
      have base : baseline run.scope (run.migration context) (context .remote) .remote = [] := by
        simp [baseline, run, context, bySide, SyncRun.migration, replaceScope]
      rw [base]
      rfl
  have sync : Syncs run saved (.ok .success)
      (run.saves saved (fun _ => [[.remote (.added hashed)]]) fun _ => [hashed]) :=
    .applied reports decision (fun _ => List.prefix_rfl) (fun _ _ => rfl) commits
  have unsettled : ¬ run.SettledAt saved file.path := by
    rintro (absent | ⟨unchanged, -⟩)
    · cases absent .local
    · cases unchanged .local
  exact ⟨_, sync, (migrationSaves_iff rfl rfl sorted scans ⟨.local, _, reports .local, rfl⟩
    sync).mpr ⟨file.path, by decide, unsettled⟩⟩

end Duet
