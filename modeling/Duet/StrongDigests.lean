import Duet.Orchestrator.Migration
import Duet.State.Scanned

/-!
# Strong plans carry digests

Digests come from the snapshot, from the hashed changes and from the hashed manifest.
`strongPlan_validates` says that they reach every file of a strong plan, whichever of the
two sides has to migrate, and `oldAndChanges_agrees` that without a migration the changes
and the current entries that are reported agree with each other and with the snapshot.
-/

namespace Duet

open Lib

/-! ## The entries of an action -/

section Entries

variable {a a' : Action} {c lc rc : Change} {e : DirEntryWithMeta}

theorem Change.mem_entries : e ∈ c.entries ↔ c.oldEntry = some e ∨ c.newEntry = some e := by
  cases c <;> simp [Change.entries, Change.oldEntry, Change.newEntry, eq_comm]

theorem entries_of_resolveToLocal (resolves : resolveToLocal lc rc = some c)
    (mem : e ∈ c.entries) : e ∈ lc.entries ∨ e ∈ rc.entries := by
  cases lc <;> cases rc <;> cases resolves <;> simp only [Change.entries, List.mem_cons] at mem ⊢ <;>
    tauto

theorem entries_of_resolveToRemote (resolves : resolveToRemote lc rc = some c)
    (mem : e ∈ c.entries) : e ∈ lc.entries ∨ e ∈ rc.entries := by
  cases lc <;> cases rc <;> cases resolves <;> simp only [Change.entries, List.mem_cons] at mem ⊢ <;>
    tauto

/-- Resolving a conflict brings in no new entries. -/
theorem entries_of_resolveChosen {choice : Path → Option Resolution}
    (resolves : resolveChosen choice a = some a') (mem : c ∈ a'.changes) (inside : e ∈ c.entries) :
    ∃ c₀ ∈ a.changes, e ∈ c₀.entries := by
  rcases resolveChosen_cases resolves with rfl | ⟨lc, rc, rfl, resolved⟩
  · exact ⟨c, mem, inside⟩
  · rcases resolved with ⟨cl, toLocal, rfl⟩ | ⟨cr, toRemote, rfl⟩
    · simp only [Action.changes, List.mem_cons, List.not_mem_nil, or_false] at mem
      rcases mem with rfl | rfl | rfl
      · exact ⟨_, List.mem_cons_self, inside⟩
      · exact ⟨_, List.mem_cons_of_mem _ List.mem_cons_self, inside⟩
      · rcases entries_of_resolveToLocal toLocal inside with left | right
        · exact ⟨_, List.mem_cons_self, left⟩
        · exact ⟨_, List.mem_cons_of_mem _ List.mem_cons_self, right⟩
    · simp only [Action.changes, List.mem_cons, List.not_mem_nil, or_false] at mem
      rcases mem with rfl | rfl | rfl
      · exact ⟨_, List.mem_cons_self, inside⟩
      · exact ⟨_, List.mem_cons_of_mem _ List.mem_cons_self, inside⟩
      · rcases entries_of_resolveToRemote toRemote inside with left | right
        · exact ⟨_, List.mem_cons_self, left⟩
        · exact ⟨_, List.mem_cons_of_mem _ List.mem_cons_self, right⟩

/-- The changes of a plan are those of the two sides. -/
theorem changes_of_buildActions {strong : Bool} {lcs rcs : List Change}
    (sortedL : SortedBy Change.path lcs) (sortedR : SortedBy Change.path rcs)
    (mem : a ∈ buildActions lcs rcs strong) (inside : c ∈ a.changes) : c ∈ lcs ∨ c ∈ rcs := by
  have planned := planned_of_mem_buildActions sortedL sortedR mem
  generalize left : lookup Change.path a.path lcs = lc at planned
  generalize right : lookup Change.path a.path rcs = rc at planned
  cases planned with
  | remote lc =>
    cases List.mem_singleton.mp inside
    exact .inl (mem_of_lookup left)
  | «local» rc =>
    cases List.mem_singleton.mp inside
    exact .inr (mem_of_lookup right)
  | identical lc rc same | conflict lc rc differ =>
    rcases List.mem_cons.mp inside with rfl | inside
    · exact .inl (mem_of_lookup left)
    · cases List.mem_singleton.mp inside
      exact .inr (mem_of_lookup right)

theorem entries_of_migrationChange {old new : Option DirEntryWithMeta}
    (made : migrationChange old new = some c) (entry : e ∈ c.entries) :
    old = some e ∨ new = some e := by
  obtain ⟨isOld, isNew⟩ := migrationChange_spec made
  rwa [Change.mem_entries, isOld, isNew] at entry

theorem entries_of_migrationConflict {l r : Option DirEntryWithMeta}
    (made : migrationConflict l r = some a) (inside : c ∈ a.changes) (entry : e ∈ c.entries) :
    l = some e ∨ r = some e := by
  unfold migrationConflict at made
  split at made <;> cases made <;> rcases List.mem_cons.mp inside with rfl | inside <;>
    (try cases List.mem_singleton.mp inside) <;> rw [Change.mem_entries] at entry <;>
    rcases entry with old | new <;> simp_all [Change.oldEntry, Change.newEntry]

/-- The entries of a migration action are the two current entries of its path. -/
theorem entries_of_migrationAction {left right : Bool} {l r : Option DirEntryWithMeta}
    (made : migrationAction left right l r = some a) (inside : c ∈ a.changes)
    (entry : e ∈ c.entries) : l = some e ∨ r = some e := by
  unfold migrationAction at made
  split at made
  · obtain ⟨change, isChange, rfl⟩ := Option.map_eq_some_iff.mp made
    cases List.mem_singleton.mp inside
    exact (entries_of_migrationChange isChange entry).symm
  · obtain ⟨change, isChange, rfl⟩ := Option.map_eq_some_iff.mp made
    cases List.mem_singleton.mp inside
    exact entries_of_migrationChange isChange entry
  · split at made
    · cases made
      rcases List.mem_cons.mp inside with rfl | inside
      · cases List.mem_singleton.mp entry
        exact .inl rfl
      · cases List.mem_singleton.mp inside
        cases List.mem_singleton.mp entry
        exact .inr rfl
    · cases made
  · exact entries_of_migrationConflict made inside entry
  · exact entries_of_migrationConflict made inside entry
  · cases made

theorem entries_of_buildMigrationActions {lcs rcs : List Change} {currentL currentR : Entries}
    (mem : a ∈ buildMigrationActions lcs rcs currentL currentR) (inside : c ∈ a.changes)
    (entry : e ∈ c.entries) : e ∈ currentL ∨ e ∈ currentR := by
  have found := sorted_buildMigrationActions.lookup_of_mem mem
  rw [lookup_buildMigrationActions] at found
  rcases entries_of_migrationAction found inside entry with left | right
  · exact .inl (mem_of_lookup left)
  · exact .inr (mem_of_lookup right)

end Entries

/-! ## The digests of a comparison -/

section Digests

variable {hash : ContentHash} {scope : ScanScope} {loaded : LoadedEntries} {scanned : Entries}
  {strong : Bool} {context : State.ScanContext} {p : Path} {c : Change} {e : DirEntryWithMeta}

theorem isFile_of_same {old e : DirEntryWithMeta} (same : old.same e = true) :
    old.isFile = e.isFile := by
  simp only [DirEntryWithMeta.same, Bool.and_eq_true, beq_iff_eq] at same
  rcases same with ⟨⟨⟨-, target⟩, isDir⟩, -⟩
  simp [DirEntryWithMeta.isFile, DirEntryWithMeta.isSymlink, target, isDir]

/-- The reported change of a path is the one between the snapshot and the scan. -/
theorem Compares.changeOf_of_lookup (h : Compares hash scope loaded scanned strong context)
    (found : lookup Change.path p context.changes = some c) :
    c.oldEntry = entryAt p (selectedEntries scope loaded.entries) ∧
      Option.Rel DirEntryWithMeta.SameScan (entryAt p (selectedEntries scope scanned))
        c.newEntry := by
  obtain ⟨c₀, isChange, same⟩ := exists_of_rel_some (found ▸ h.changeAt p)
  rw [← newEntry_of_changeOf isChange, ← oldEntry_of_changeOf isChange]
  exact ⟨same.old.symm, same.new⟩

/-- A change leaves something at its path exactly when the current manifest has the path. -/
theorem Compares.isSome_newEntry (h : Compares hash scope loaded scanned strong context)
    (found : lookup Change.path p context.changes = some c) :
    c.newEntry.isSome = (entryAt p context.current).isSome := by
  rw [← isSome_of_rel (h.changeOf_of_lookup found).2, isSome_of_rel (h.currentAt p)]

/-- The current entries were scanned. -/
theorem Compares.canonical_current (h : Compares hash scope loaded scanned strong context)
    (scans : Scanned scanned) (mem : e ∈ context.current) : CanonicalPath e.path := by
  have here := h.currentAt e.path
  have found : entryAt e.path context.current = some e := h.sortedCurrent.lookup_of_mem mem
  rw [found] at here
  obtain ⟨e₀, isEntry, same⟩ := exists_of_rel_some here
  rw [same.path]
  exact scans.canonical e₀ (List.mem_filter.mp (mem_of_lookup isEntry)).1

/-- Without a migration the files of the restricted snapshot carry digests. -/
theorem Compares.digest_of_saved (h : Compares hash scope loaded scanned true context)
    (settled : context.migrationNeeded = false)
    (mem : e ∈ selectedEntries scope loaded.entries) (file : e.isFile = true) :
    e.digest.isSome := by
  have needed := h.migrationNeeded
  rw [settled, Bool.true_and, eq_comm, Bool.or_eq_false_iff] at needed
  have digest := List.any_eq_false.mp needed.2 e mem
  cases isDigest : e.digest with
  | none => simp [file, isDigest] at digest
  | some d => rfl

/-- An unchanged entry has the digest that the snapshot has for it. -/
theorem Compares.saved_digest (h : Compares hash scope loaded scanned strong context)
    (sorted : SortedEntries loaded.entries) (settled : context.migrationNeeded = false)
    (unchanged : lookup Change.path p context.changes = none)
    (here : entryAt p context.current = some e) :
    ∃ old, entryAt p context.allOld = some old ∧ e.digest = old.digest := by
  obtain ⟨old, isOld, -, -, digest⟩ := h.inherited settled p unchanged e here
  have saved : entryAt p (selectedEntries scope loaded.entries) = some old := isOld
  rw [entryAt_selectedEntries sorted] at saved
  split at saved
  · exact ⟨old, h.allOld ▸ saved, digest⟩
  · cases saved

/-- The current entries of a strong comparison are strong, migration or not. -/
theorem Compares.strong_current (h : Compares hash scope loaded scanned true context)
    (scans : Scanned scanned) : ∀ e ∈ context.current, StrongEntry e := by
  intro e mem
  refine ⟨h.canonical_current scans mem, fun file => ?_⟩
  have here : entryAt e.path context.current = some e := h.sortedCurrent.lookup_of_mem mem
  cases migration : context.migrationNeeded with
  | true =>
    obtain ⟨checksum, digest, -, isDigest⟩ := h.migrated migration e mem file
    rw [isDigest]
    rfl
  | false =>
    cases found : lookup Change.path e.path context.changes with
    | none =>
      obtain ⟨old, isOld, same, -, digest⟩ := h.inherited migration e.path found e here
      rw [digest]
      exact h.digest_of_saved migration (mem_of_lookup isOld) ((isFile_of_same same).trans file)
    | some c =>
      have present := h.isSome_newEntry found
      rw [here] at present
      obtain ⟨new, isNew⟩ := Option.isSome_iff_exists.mp present
      have retained := h.retained migration c (mem_of_lookup found) new isNew
      rw [key_of_lookup found, here] at retained
      cases retained
      exact h.hashed migration c (mem_of_lookup found) e isNew file

/-- The changes of a strong comparison without a migration are strong. -/
theorem Compares.strong_changes (h : Compares hash scope loaded scanned true context)
    (scans : Scanned scanned) (canonical : ∀ e ∈ loaded.entries, CanonicalPath e.path)
    (settled : context.migrationNeeded = false) :
    ∀ c ∈ context.changes, ∀ e ∈ c.entries, StrongEntry e := by
  intro c mem e inside
  have found := h.sortedChanges.lookup_of_mem mem
  rcases Change.mem_entries.mp inside with isOld | isNew
  · have saved : entryAt c.path (selectedEntries scope loaded.entries) = some e := by
      rw [← (h.changeOf_of_lookup found).1, isOld]
    have inScope := mem_of_lookup saved
    exact ⟨canonical e (List.mem_filter.mp inScope).1, h.digest_of_saved settled inScope⟩
  · have current := h.retained settled c mem e isNew
    exact h.strong_current scans e (mem_of_lookup current)

end Digests

/-- Strong plans always carry digests: whatever the snapshots of the two sides were, the plan
of a strong synchronization passes the check of strong actions, before and after some of its
conflicts were resolved. A side that does not migrate reports changes that agree with its
current entries, and the digests of the snapshot for its unchanged files. -/
theorem strongPlan_validates {hashL hashR : ContentHash} {scope : ScanScope}
    {savedL savedR : Option LoadedEntries} {scannedL scannedR : Entries}
    {contextL contextR : State.ScanContext}
    (sortedL : ∀ loaded ∈ savedL, SortedEntries loaded.entries)
    (sortedR : ∀ loaded ∈ savedR, SortedEntries loaded.entries)
    (scansL : Scanned scannedL) (scansR : Scanned scannedR)
    (okL : oldAndChanges hashL scope savedL scannedL true = .ok contextL)
    (okR : oldAndChanges hashR scope savedR scannedR true = .ok contextR) :
    (∀ choice resolved,
      resolveConflicts choice (plannedActions true contextL contextR) = some resolved →
        validateStrongActions resolved = .ok ()) ∧
      ∀ context ∈ [contextL, contextR], context.migrationNeeded = false →
        (∀ c ∈ context.changes, ∀ e, c.newEntry = some e →
          entryAt c.path context.current = some e) ∧
        ∀ p, lookup Change.path p context.changes = none →
          ∀ e, entryAt p context.current = some e →
            ∃ old, entryAt p context.allOld = some old ∧ e.digest = old.digest := by
  obtain ⟨comparesL, canonicalL⟩ := oldAndChanges_compares sortedL scansL.sorted okL
  obtain ⟨comparesR, canonicalR⟩ := oldAndChanges_compares sortedR scansR.sorted okR
  constructor
  · intro choice resolved resolves
    apply validateStrongActions_eq_ok.mpr
    intro a mem c inside e entry
    obtain ⟨b, inPlan, chosen⟩ := exists_of_mem_right (forall₂_of_mapM_some resolves) mem
    obtain ⟨c₀, planned, entry₀⟩ := entries_of_resolveChosen chosen inside entry
    unfold plannedActions at inPlan
    rw [Bool.true_and] at inPlan
    split at inPlan
    · rcases entries_of_buildMigrationActions inPlan planned entry₀ with left | right
      · exact comparesL.strong_current scansL e left
      · exact comparesR.strong_current scansR e right
    · next settled =>
      have settled : contextL.migrationNeeded = false ∧ contextR.migrationNeeded = false := by
        simpa using settled
      rw [comparesL.allOld] at canonicalL
      rw [comparesR.allOld] at canonicalR
      rcases changes_of_buildActions comparesL.sortedChanges comparesR.sortedChanges inPlan
        planned with left | right
      · exact comparesL.strong_changes scansL canonicalL settled.1 c₀ left e entry₀
      · exact comparesR.strong_changes scansR canonicalR settled.2 c₀ right e entry₀
  · intro context mem settled
    simp only [List.mem_cons, List.not_mem_nil, or_false] at mem
    rcases mem with rfl | rfl
    · exact ⟨comparesL.retained settled, fun p unchanged e here =>
        comparesL.saved_digest (sorted_getD sortedL) settled unchanged here⟩
    · exact ⟨comparesR.retained settled, fun p unchanged e here =>
        comparesR.saved_digest (sorted_getD sortedR) settled unchanged here⟩

/-- The local side migrates a file of its V1 snapshot, and the remote side has no snapshot. -/
theorem strongPlan_validates_oneMigrates :
    let file : DirEntryWithMeta := ⟨[.normal [97]], 1, 0, 7, 0o100644, none, false, 0, none⟩
    let hash : ContentHash := fun _ => .ok (5, ⟨Vector.replicate 32 1⟩)
    let scope : ScanScope := ⟨[], []⟩
    ∃ contextL contextR,
      oldAndChanges hash scope (some ⟨[file], .legacyV1⟩) [file] true = .ok contextL ∧
      oldAndChanges hash scope none [file] true = .ok contextR ∧
      contextL.migrationNeeded = true ∧ contextR.migrationNeeded = false ∧
      validateStrongActions (plannedActions true contextL contextR) = .ok () := by
  intro file hash scope
  let hashed : DirEntryWithMeta := { file with checksum := 5, digest := some ⟨.replicate 32 1⟩ }
  have scans : Scanned [file] := ⟨by decide, by simp [CanonicalPath, file, Component.isNormal]⟩
  have okL : oldAndChanges hash scope (some ⟨[file], .legacyV1⟩) [file] true =
      .ok ⟨[file], [], [hashed], true⟩ := rfl
  have okR : oldAndChanges hash scope none [file] true =
      .ok ⟨[], [.added hashed], [hashed], false⟩ := rfl
  have valid := strongPlan_validates (by simpa using scans.sorted) (by simp) scans scans okL okR
  exact ⟨_, _, okL, okR, rfl, rfl, valid.1 _ _ (resolveConflicts_unchosen _)⟩

end Duet
