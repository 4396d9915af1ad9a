import Duet.State.Changes

/-!
# What a comparison reports

`oldAndChanges` reads two sorted lists through each other several times. `Compares` says
what comes out at one path: the change between the two entries there, whose new entry may
have been hashed, and a current entry that is the scanned one up to its content hashes.
-/

namespace Duet

open Lib

/-- What `collect_scan` returns: the sent entries in path order, with canonical paths. -/
structure Scanned (scanned : Entries) : Prop where
  sorted : SortedEntries scanned
  canonical : ∀ e ∈ scanned, CanonicalPath e.path

namespace DirEntryWithMeta

/-- The part of an entry that a scan reads. -/
def withoutHashes (e : DirEntryWithMeta) : DirEntryWithMeta :=
  { e with checksum := 0, digest := none }

/-- The same scanned entry, up to its content hashes. -/
def SameScan (e e' : DirEntryWithMeta) : Prop := e.withoutHashes = e'.withoutHashes

namespace SameScan

variable {e e' e'' : DirEntryWithMeta}

theorem refl (e : DirEntryWithMeta) : SameScan e e := rfl

theorem trans (h : SameScan e e') (h' : SameScan e' e'') : SameScan e e'' := Eq.trans h h'

theorem path (h : SameScan e e') : e'.path = e.path := (congrArg DirEntryWithMeta.path h).symm

theorem isFile (h : SameScan e e') : e'.isFile = e.isFile :=
  (congrArg DirEntryWithMeta.isFile h).symm

end SameScan

theorem inheritContentHashes_sameScan (e old : DirEntryWithMeta) :
    SameScan e (e.inheritContentHashes old) := rfl

/-- Hashing changes nothing but the hashes, and gives every file a digest. -/
theorem computeContentHashes_spec {hash : ContentHash} {e e' : DirEntryWithMeta}
    (ok : e.computeContentHashes hash = .ok e') :
    SameScan e e' ∧ (e'.isFile = true → ∃ checksum digest,
      hash e'.hashSource = .ok (checksum, digest) ∧ e'.digest = some digest) := by
  unfold computeContentHashes at ok
  split at ok
  · next notFile =>
    cases ok
    refine ⟨.refl e, fun file => ?_⟩
    rw [file] at notFile
    cases notFile
  · obtain ⟨⟨checksum, digest⟩, hashed, ok⟩ := bind_eq_ok.mp ok
    cases ok
    exact ⟨rfl, fun _ => ⟨checksum, digest, hashed, rfl⟩⟩

theorem isSome_digest_of_computed {hash : ContentHash} {e e' : DirEntryWithMeta}
    (ok : e.computeContentHashes hash = .ok e') (file : e'.isFile = true) :
    e'.digest.isSome := by
  obtain ⟨checksum, digest, -, isDigest⟩ := (computeContentHashes_spec ok).2 file
  rw [isDigest]
  rfl

end DirEntryWithMeta

open DirEntryWithMeta (SameScan)

/-- The same change, up to the hashes of its new entry. -/
structure Change.SameScan (c c' : Change) : Prop where
  old : c.oldEntry = c'.oldEntry
  new : Option.Rel DirEntryWithMeta.SameScan c.newEntry c'.newEntry

theorem Change.SameScan.refl (c : Change) : c.SameScan c := by
  refine ⟨rfl, ?_⟩
  cases c.newEntry with
  | none => exact .none
  | some e => exact .some (.refl e)

theorem Change.computeContentHashes_spec {hash : ContentHash} {c c' : Change}
    (ok : c.computeContentHashes hash = .ok c') :
    c.SameScan c' ∧ c'.path = c.path ∧
      ∀ e ∈ c'.newEntry, e.isFile = true → e.digest.isSome := by
  cases c with
  | removed old =>
    cases ok
    exact ⟨.refl _, rfl, by rintro e ⟨⟩⟩
  | added new =>
    obtain ⟨new', hashed, ok⟩ := bind_eq_ok.mp ok
    cases ok
    have same := (DirEntryWithMeta.computeContentHashes_spec hashed).1
    refine ⟨⟨rfl, .some same⟩, same.path, ?_⟩
    rintro e ⟨⟩
    exact DirEntryWithMeta.isSome_digest_of_computed hashed
  | modified old new =>
    obtain ⟨new', hashed, ok⟩ := bind_eq_ok.mp ok
    cases ok
    have same := (DirEntryWithMeta.computeContentHashes_spec hashed).1
    refine ⟨⟨rfl, .some same⟩, same.path, ?_⟩
    rintro e ⟨⟩
    exact DirEntryWithMeta.isSome_digest_of_computed hashed

/-! ## The scope -/

section Scope

variable {scope : ScanScope} {entries : Entries} {p : Path}

theorem sorted_selectedEntries (sorted : SortedEntries entries) :
    SortedEntries (selectedEntries scope entries) :=
  sorted.sublist List.filter_sublist

/-- A path of the scope is looked up in the whole list, and nothing else is found. -/
theorem entryAt_selectedEntries (sorted : SortedEntries entries) :
    entryAt p (selectedEntries scope entries) =
      if scope.selected p then entryAt p entries else none := by
  unfold entryAt selectedEntries
  rw [sorted.lookup_filter]
  cases found : lookup DirEntryWithMeta.path p entries with
  | none => simp
  | some e => simp [Option.filter, key_of_lookup found]

end Scope

/-! ## The replaced scope -/

section Replace

variable {scope : ScanScope} {entries current : Entries} {p : Path}

/-- A replaced baseline has the current entries of the scope and keeps all others. -/
theorem replaceScope_spec (sorted : SortedEntries entries) (sortedC : SortedEntries current)
    (within : ∀ e ∈ current, scope.selected e.path = true) :
    SortedEntries (replaceScope entries scope current) ∧
      ∀ p, entryAt p (replaceScope entries scope current) =
        if scope.selected p then entryAt p current else entryAt p entries := by
  have sortedOut : SortedEntries (entries.filter fun entry => !scope.selected entry.path) :=
    sorted.sublist List.filter_sublist
  have nodup : ((entries.filter (fun entry => !scope.selected entry.path) ++ current).map
      DirEntryWithMeta.path).Nodup := by
    rw [List.map_append, List.nodup_append]
    refine ⟨sortedOut.nodup_keys, sortedC.nodup_keys, ?_⟩
    rintro path left path' right rfl
    obtain ⟨e, mem, rfl⟩ := List.mem_map.mp left
    obtain ⟨e', mem', same⟩ := List.mem_map.mp right
    have outside := (List.mem_filter.mp mem).2
    rw [← same, within e' mem'] at outside
    cases outside
  refine ⟨sortedBy_mergeSort nodup, fun p => ?_⟩
  unfold replaceScope entryAt
  rw [← lookup_of_perm (List.mergeSort_perm _ _).symm nodup, lookup_append, sorted.lookup_filter]
  cases selected : scope.selected p with
  | false =>
    have absent : lookup DirEntryWithMeta.path p current = none := by
      rw [lookup_eq_none_iff]
      rintro e mem rfl
      rw [within e mem] at selected
      cases selected
    rw [absent, Option.or_none]
    cases found : lookup DirEntryWithMeta.path p entries with
    | none => simp
    | some e => simp [Option.filter, key_of_lookup found, selected]
  | true =>
    cases found : lookup DirEntryWithMeta.path p entries with
    | none => simp
    | some e => simp [Option.filter, key_of_lookup found, selected]

end Replace

/-! ## Retained changes -/

section Retain

variable {current : Entries} {changes : List Change} {p : Path}

theorem retainChange_sorted (sorted : SortedEntries current) (c : Change) :
    SortedEntries (retainChange current c) := by
  unfold retainChange
  split
  · apply sorted.map
    intro e mem
    split
    · next same => exact same.symm
    · rfl
  · exact sorted

theorem entryAt_retainChange (sorted : SortedEntries current) (c : Change) :
    entryAt p (retainChange current c) =
      (entryAt p current).map fun e => if c.path = p then c.newEntry.getD e else e := by
  unfold retainChange
  cases isNew : c.newEntry with
  | none => simp
  | some new =>
    have path : new.path = c.path := Change.path_of_newEntry isNew
    have keyed : ∀ e ∈ current, (if e.path = new.path then new else e).path = e.path := by
      intro e mem
      split
      · next same => exact same.symm
      · rfl
    dsimp only
    unfold entryAt
    rw [sorted.lookup_map keyed]
    cases found : lookup DirEntryWithMeta.path p current with
    | none => rfl
    | some e =>
      rw [Option.map_some, Option.map_some, key_of_lookup found, path]
      by_cases here : c.path = p
      · simp [here]
      · simp [here, Ne.symm here]

theorem foldl_retainChange_sorted (sorted : SortedEntries current) :
    SortedEntries (changes.foldl retainChange current) := by
  induction changes generalizing current with
  | nil => exact sorted
  | cons c rest ih => exact ih (retainChange_sorted sorted c)

/-- The retained manifest at one path: the new entry of the change there, if the path is
still present. -/
theorem entryAt_foldl_retainChange (sorted : SortedEntries current)
    (sortedC : SortedBy Change.path changes) :
    entryAt p (changes.foldl retainChange current) = (entryAt p current).map fun e =>
      ((lookup Change.path p changes).bind Change.newEntry).getD e := by
  induction changes generalizing current with
  | nil => simp
  | cons c rest ih =>
    rw [List.foldl_cons, ih (retainChange_sorted sorted c) sortedC.tail,
      entryAt_retainChange sorted, Option.map_map]
    congr 1
    funext e
    by_cases here : c.path = p
    · have only : lookup Change.path p rest = none :=
        lookup_eq_none_of_lt fun a mem => here ▸ sortedC.head_lt a mem
      simp [lookup_cons, here, only]
    · simp [lookup_cons, here]

/-- Where the changes describe the manifest, a changed path has the new entry of its
change. -/
theorem entryAt_retained (sorted : SortedEntries current) (sortedC : SortedBy Change.path changes)
    (describes : ∀ c ∈ lookup Change.path p changes,
      c.newEntry.isSome = (entryAt p current).isSome) :
    entryAt p (changes.foldl retainChange current) =
      (lookup Change.path p changes).elim (entryAt p current) Change.newEntry := by
  rw [entryAt_foldl_retainChange sorted sortedC]
  cases found : lookup Change.path p changes with
  | none => simp
  | some c =>
    have present := describes c found
    cases isNew : c.newEntry with
    | none =>
      rw [isNew] at present
      have absent : entryAt p current = none := by simpa using present.symm
      rw [absent]
      exact isNew.symm
    | some new =>
      rw [isNew] at present
      obtain ⟨e, isEntry⟩ : ∃ e, entryAt p current = some e :=
        Option.isSome_iff_exists.mp present.symm
      simp [isEntry, isNew]

end Retain

/-! ## The comparison -/

/-- What the comparison of a snapshot with a scan of its scope gives. -/
structure Compares (hash : ContentHash) (scope : ScanScope) (loaded : LoadedEntries) (scanned : Entries)
    (strong : Bool) (context : State.ScanContext) : Prop where
  allOld : context.allOld = loaded.entries
  migrationNeeded : context.migrationNeeded = (strong &&
    (loaded.format = .legacyV1 || lacksDigests (selectedEntries scope loaded.entries)))
  sortedChanges : SortedBy Change.path context.changes
  sortedCurrent : SortedEntries context.current
  changeAt : ∀ p, Option.Rel Change.SameScan
    (changeOf (entryAt p (selectedEntries scope loaded.entries),
      entryAt p (selectedEntries scope scanned)))
    (lookup Change.path p context.changes)
  currentAt : ∀ p, Option.Rel SameScan (entryAt p (selectedEntries scope scanned))
    (entryAt p context.current)
  migrated : context.migrationNeeded = true → ∀ e ∈ context.current, e.isFile = true →
    ∃ checksum digest, hash e.hashSource = .ok (checksum, digest) ∧ e.digest = some digest
  hashed : context.migrationNeeded = false →
    ∀ c ∈ context.changes, ∀ e ∈ c.newEntry, e.isFile = true → e.digest.isSome
  retained : context.migrationNeeded = false →
    ∀ c ∈ context.changes, ∀ e ∈ c.newEntry, entryAt c.path context.current = some e
  inherited : context.migrationNeeded = false →
    ∀ p, lookup Change.path p context.changes = none → ∀ e ∈ entryAt p context.current,
      ∃ old ∈ entryAt p (selectedEntries scope loaded.entries), old.same e = true ∧
        e.checksum = old.checksum ∧ e.digest = old.digest

section Compare

variable {hash : ContentHash} {scope : ScanScope} {loaded : LoadedEntries} {old scanned : Entries}
  {strong : Bool} {context : State.ScanContext} {p : Path}

/-- Scan sameness does not look at content hashes. -/
theorem DirEntryWithMeta.SameScan.same_eq {e e' : DirEntryWithMeta} (h : SameScan e e')
    (old : DirEntryWithMeta) : old.same e = old.same e' := by
  have scans : old.same e.withoutHashes = old.same e'.withoutHashes := congrArg old.same h
  exact scans

theorem inheritUnchanged_sameScan (changes : List Change) (old : Entries)
    (e : DirEntryWithMeta) : SameScan e (inheritUnchanged changes old e) := by
  unfold inheritUnchanged
  split
  · rfl
  · split <;> rfl

theorem sorted_inheritUnchanged (changes : List Change) (sorted : SortedEntries scanned) :
    SortedEntries (scanned.map (inheritUnchanged changes old)) :=
  sorted.map fun e _ => (inheritUnchanged_sameScan changes old e).path

theorem entryAt_inheritUnchanged (changes : List Change) (sorted : SortedEntries scanned) :
    entryAt p (scanned.map (inheritUnchanged changes old)) =
      (entryAt p scanned).map (inheritUnchanged changes old) :=
  sorted.lookup_map fun e _ => (inheritUnchanged_sameScan changes old e).path

theorem currentAt_inheritUnchanged (changes : List Change) (sorted : SortedEntries scanned)
    (p : Path) : Option.Rel SameScan (entryAt p scanned)
      (entryAt p (scanned.map (inheritUnchanged changes old))) := by
  rw [entryAt_inheritUnchanged changes sorted]
  cases entryAt p scanned with
  | none => exact .none
  | some e => exact .some (inheritUnchanged_sameScan changes old e)

/-- The rest of the comparison when the snapshot has to be migrated. -/
theorem compares_of_hashManifest {current : Entries}
    (sortedOld : SortedEntries loaded.entries) (sortedScan : SortedEntries scanned)
    (needed : (strong && (loaded.format = .legacyV1 ||
      lacksDigests (selectedEntries scope loaded.entries))) = true)
    (hashed : hashManifest hash ((selectedEntries scope scanned).map (inheritUnchanged
      (changes (selectedEntries scope loaded.entries) (selectedEntries scope scanned))
      (selectedEntries scope loaded.entries))) = .ok current) :
    Compares hash scope loaded scanned strong
      ⟨loaded.entries,
        changes (selectedEntries scope loaded.entries) (selectedEntries scope scanned),
        current, true⟩ := by
  have sortedOld' := @sorted_selectedEntries scope _ sortedOld
  have sortedScan' := @sorted_selectedEntries scope _ sortedScan
  have related := forall₂_of_mapM_ok hashed
  have spec := fun e e' (ok : DirEntryWithMeta.computeContentHashes hash e = .ok e') =>
    DirEntryWithMeta.computeContentHashes_spec ok
  refine ⟨rfl, needed.symm, sortedBy_changes sortedOld' sortedScan', ?_, ?_, ?_, ?_, nofun, nofun,
    nofun⟩
  · exact (sorted_inheritUnchanged _ sortedScan').of_forall₂ related
      fun e e' ok => (spec e e' ok).1.path
  · intro p
    rw [lookup_changes sortedOld' sortedScan']
    cases changeOf _ with
    | none => exact .none
    | some c => exact .some (.refl c)
  · intro p
    have before := @currentAt_inheritUnchanged (selectedEntries scope loaded.entries) _
      (changes (selectedEntries scope loaded.entries) (selectedEntries scope scanned)) sortedScan' p
    have after := rel_lookup related (fun e e' ok => (spec e e' ok).1.path) p
    exact rel_trans (fun e e' e'' same ok => same.trans (spec e' e'' ok).1) before after
  · intro _ e mem
    obtain ⟨before, -, ok⟩ := exists_of_mem_right related mem
    exact (spec before e ok).2

/-- The rest of the comparison when only the changes are hashed. -/
theorem compares_of_hashChanges {hashed : List Change}
    (sortedOld : SortedEntries loaded.entries) (sortedScan : SortedEntries scanned)
    (settled : (strong && (loaded.format = .legacyV1 ||
      lacksDigests (selectedEntries scope loaded.entries))) = false)
    (ok : hashChanges hash
      (changes (selectedEntries scope loaded.entries) (selectedEntries scope scanned)) =
        .ok hashed) :
    Compares hash scope loaded scanned strong
      ⟨loaded.entries, hashed, hashed.foldl retainChange ((selectedEntries scope scanned).map
        (inheritUnchanged
          (changes (selectedEntries scope loaded.entries) (selectedEntries scope scanned))
          (selectedEntries scope loaded.entries))), false⟩ := by
  have sortedOld' := @sorted_selectedEntries scope _ sortedOld
  have sortedScan' := @sorted_selectedEntries scope _ sortedScan
  have related := forall₂_of_mapM_ok ok
  have spec := fun c c' (done : Change.computeContentHashes hash c = .ok c') =>
    Change.computeContentHashes_spec done
  have keyed := fun c c' done => (spec c c' done).2.1
  have sortedHashed : SortedBy Change.path hashed :=
    (sortedBy_changes sortedOld' sortedScan').of_forall₂ related keyed
  have changeAt : ∀ p, Option.Rel Change.SameScan
      (changeOf (entryAt p (selectedEntries scope loaded.entries),
        entryAt p (selectedEntries scope scanned))) (lookup Change.path p hashed) := by
    intro p
    have rel := rel_lookup related keyed p
    rw [lookup_changes sortedOld' sortedScan'] at rel
    exact rel_mono (fun c c' done => (spec c c' done).1) rel
  let before := changes (selectedEntries scope loaded.entries) (selectedEntries scope scanned)
  let inherited := (selectedEntries scope scanned).map
    (inheritUnchanged before (selectedEntries scope loaded.entries))
  have sortedInherited : SortedEntries inherited := sorted_inheritUnchanged before sortedScan'
  have inheritedAt : ∀ p, Option.Rel SameScan (entryAt p (selectedEntries scope scanned))
      (entryAt p inherited) := currentAt_inheritUnchanged before sortedScan'
  have newAt : ∀ p, ∀ c ∈ lookup Change.path p hashed,
      Option.Rel SameScan (entryAt p (selectedEntries scope scanned)) c.newEntry := by
    intro p c found
    obtain ⟨c₀, isChange, same⟩ := exists_of_rel_some (found ▸ changeAt p)
    rw [← newEntry_of_changeOf isChange]
    exact same.new
  have finalAt : ∀ p, entryAt p (hashed.foldl retainChange inherited) =
      (lookup Change.path p hashed).elim (entryAt p inherited) Change.newEntry := by
    intro p
    apply entryAt_retained sortedInherited sortedHashed
    intro c found
    rw [← isSome_of_rel (newAt p c found), ← isSome_of_rel (inheritedAt p)]
  refine ⟨rfl, settled.symm, sortedHashed, foldl_retainChange_sorted sortedInherited, changeAt,
    ?_, nofun, ?_, ?_, ?_⟩
  · intro p
    rw [finalAt]
    cases found : lookup Change.path p hashed with
    | none => exact inheritedAt p
    | some c => exact newAt p c found
  · intro _ c mem
    obtain ⟨c₀, -, done⟩ := exists_of_mem_right related mem
    exact (spec c₀ c done).2.2
  · intro _ c mem e isNew
    rw [finalAt, sortedHashed.lookup_of_mem mem]
    exact isNew
  · intro _ p unchanged e found
    rw [finalAt, unchanged, Option.elim_none, entryAt_inheritUnchanged before sortedScan'] at found
    obtain ⟨e₀, isEntry, rfl⟩ := Option.map_eq_some_iff.mp found
    have same := changeAt p
    rw [unchanged] at same
    have nothing : changeOf (entryAt p (selectedEntries scope loaded.entries),
        entryAt p (selectedEntries scope scanned)) = none := by
      simpa using isSome_of_rel same
    have saved := same_of_changeOf_eq_none nothing
    rw [isEntry] at saved
    obtain ⟨old, isOld, sameOld⟩ := exists_of_rel_some saved
    have path : e₀.path = p := key_of_lookup isEntry
    have unchangedBefore : lookup Change.path p before = none := by
      rw [lookup_changes sortedOld' sortedScan', nothing]
    have inherits : inheritUnchanged before (selectedEntries scope loaded.entries) e₀ =
        e₀.inheritContentHashes old := by
      simp only [inheritUnchanged, path, unchangedBefore, isOld]
    rw [inherits]
    exact ⟨old, isOld, sameOld, rfl, rfl⟩

theorem loadEntriesWithFormat_spec {statefile : Option LoadedEntries}
    (ok : loadEntriesWithFormat statefile = .ok loaded) :
    loaded = statefile.getD ⟨[], .v2⟩ ∧ ∀ e ∈ loaded.entries, CanonicalPath e.path := by
  cases statefile with
  | none =>
    cases ok
    exact ⟨rfl, by simp⟩
  | some file =>
    dsimp only [loadEntriesWithFormat] at ok
    split at ok
    · next valid =>
      cases ok
      exact ⟨rfl, validateEntries_eq_ok.mp valid⟩
    · cases ok

/-- A side without a snapshot compares with an empty one. -/
theorem sorted_getD {statefile : Option LoadedEntries}
    (sorted : ∀ loaded ∈ statefile, SortedEntries loaded.entries) :
    SortedEntries (statefile.getD ⟨[], .v2⟩).entries := by
  cases statefile with
  | none => exact .nil
  | some file => exact sorted file rfl

/-- A successful comparison reports what `Compares` says. -/
theorem oldAndChanges_compares {statefile : Option LoadedEntries}
    (sortedOld : ∀ loaded ∈ statefile, SortedEntries loaded.entries)
    (sortedScan : SortedEntries scanned)
    (ok : oldAndChanges hash scope statefile scanned strong = .ok context) :
    Compares hash scope (statefile.getD ⟨[], .v2⟩) scanned strong context ∧
      ∀ e ∈ context.allOld, CanonicalPath e.path := by
  obtain ⟨loaded, loads, ok⟩ := bind_eq_ok.mp ok
  obtain ⟨isLoaded, canonical⟩ := loadEntriesWithFormat_spec loads
  have sortedOld : SortedEntries loaded.entries := isLoaded ▸ sorted_getD sortedOld
  rw [← isLoaded]
  dsimp only at ok
  split at ok
  · next needed =>
    obtain ⟨current, hashed, ok⟩ := bind_eq_ok.mp ok
    cases ok
    rw [needed]
    exact ⟨compares_of_hashManifest sortedOld sortedScan needed hashed, canonical⟩
  · next settled =>
    obtain ⟨hashed, hashes, done⟩ := bind_eq_ok.mp ok
    cases done
    have settled := Bool.eq_false_of_not_eq_true settled
    rw [settled]
    exact ⟨compares_of_hashChanges sortedOld sortedScan settled hashes, canonical⟩

end Compare

end Duet
