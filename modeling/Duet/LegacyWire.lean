import Duet.Legacy
import Duet.Orchestrator.Migration
import Duet.Sync.DetailKind

/-!
# Details over the legacy wire

A client without a strong peer sends its actions in their legacy form, so that the server
holds them without digests. Both sides then decide on their own which actions come with
file contents. `legacyWire_inStep_iff` says for which plans they decide alike: the two ends
part exactly at a file whose digests and whose scan identity disagree about its contents.
-/

namespace Duet

open Lib

/-! ## Detail kinds over the wire -/

def SourceDetailKind.kind : SourceDetailKind → ApplyDetailKind
  | .file _ => .file
  | .diff _ => .diff

/-- The kind of the detail that a side serves for an action. -/
def servedDetailKind (action : Action) : Option ApplyDetailKind :=
  (sourceDetailKind action).map SourceDetailKind.kind

/-- A change as it arrives on the other side. -/
def Change.wired (c : Change) : Change := c.toLegacy.toChange

/-- An action as the server holds it. -/
def Action.wired (a : Action) : Action := a.flip.toLegacy.toAction

/-- The contents of a file that both ends see alike: comparing digests says the same as
comparing what the scan has read. -/
def ContentsAgree (e₁ e₂ : DirEntryWithMeta) : Prop :=
  ∀ d₁ d₂, e₁.digest = some d₁ → e₂.digest = some d₂ →
    (e₁.size = e₂.size ∧ d₁ = d₂ ↔ e₁.sameScanIdentity e₂ = true)

section Kinds

variable {a : Action} {c : Change} {e₁ e₂ : DirEntryWithMeta}

theorem servedDetailKind_eq (a : Action) :
    servedDetailKind a = a.sentChange.bind applyDetailKindForChange := by
  have served : ∀ c, servedDetailKind (.remote c) = applyDetailKindForChange c := by
    intro c
    cases c with
    | removed e => rfl
    | added e =>
      unfold servedDetailKind sourceDetailKind applyDetailKindForChange
      dsimp only
      split <;> rfl
    | modified e1 e2 =>
      unfold servedDetailKind sourceDetailKind applyDetailKindForChange
      dsimp only
      split
      · rfl
      · split <;> rfl
  cases a with
  | remote c | resolvedRemote pair c => exact served c
  | _ => rfl

theorem applyDetailKind_eq (a : Action) :
    applyDetailKind a = a.appliedChange.bind applyDetailKindForChange := by
  cases a <;> rfl

theorem appliedChange_wired (a : Action) :
    a.wired.appliedChange = a.sentChange.map Change.wired := by
  cases a <;> rfl

theorem sentChange_wired (a : Action) :
    a.wired.sentChange = a.appliedChange.map Change.wired := by
  cases a <;> rfl

theorem sameContents_eq_iff :
    e₁.isFile = true → e₂.isFile = true →
      (e₁.sameContents e₂ = e₁.sameScanIdentity e₂ ↔ ContentsAgree e₁ e₂) := by
  intro file₁ file₂
  unfold ContentsAgree
  cases isDigest₁ : e₁.digest with
  | none =>
    have scans := @sameContents_of_digest_eq_none e₁ e₂ (.inl isDigest₁)
    simp [scans]
  | some d₁ =>
    cases isDigest₂ : e₂.digest with
    | none =>
      have scans := @sameContents_of_digest_eq_none e₁ e₂ (.inr isDigest₂)
      simp [scans]
    | some d₂ =>
      have digests : e₁.sameContents e₂ = (e₁.size == e₂.size && d₁ == d₂) := by
        simp [DirEntryWithMeta.sameContents, file₁, file₂, isDigest₁, isDigest₂]
      rw [digests, Bool.eq_iff_iff]
      simp

/-- The kind of a change survives the wire unless its digests contradict the scan. -/
theorem wired_kind_iff :
    applyDetailKindForChange c.wired = applyDetailKindForChange c ↔
      ∀ e₁ e₂, c = .modified e₁ e₂ → e₁.isFile = true → e₂.isFile = true →
        ContentsAgree e₁ e₂ := by
  cases c with
  | added e | removed e => exact ⟨fun _ => by rintro _ _ ⟨⟩, fun _ => rfl⟩
  | modified e₁ e₂ =>
    have scans : e₁.withoutDigest.sameContents e₂.withoutDigest = e₁.sameScanIdentity e₂ :=
      sameContents_of_digest_eq_none (.inl rfl)
    have wired : applyDetailKindForChange (Change.modified e₁ e₂).wired =
        if e₁.isFile && e₂.isFile && !e₁.sameScanIdentity e₂ then some .diff
        else if !e₁.isFile && e₂.isFile then some .file else none := by
      rw [← scans]
      rfl
    rw [wired, applyDetailKindForChange]
    by_cases files : e₁.isFile = true ∧ e₂.isFile = true
    · obtain ⟨file₁, file₂⟩ := files
      have single : (∀ e e' : DirEntryWithMeta, Change.modified e₁ e₂ = .modified e e' →
          e.isFile = true → e'.isFile = true → ContentsAgree e e') ↔ ContentsAgree e₁ e₂ :=
        ⟨fun all => all e₁ e₂ rfl file₁ file₂, by rintro agree e e' ⟨⟩ - -; exact agree⟩
      rw [single, ← sameContents_eq_iff file₁ file₂, file₁, file₂]
      cases e₁.sameContents e₂ <;> cases e₁.sameScanIdentity e₂ <;> simp
    · have notBoth : (e₁.isFile && e₂.isFile) = false := by simpa using files
      constructor
      · rintro - e e' ⟨⟩ file file'
        exact absurd ⟨file, file'⟩ files
      · intro _
        rw [notBoth]
        rfl

/-- A change that brings in an entry of the wire keeps its kind. -/
theorem wired_kind_of_no_digest
    (received : ∀ e₁ e₂, c = .modified e₁ e₂ → e₁.digest = none ∨ e₂.digest = none) :
    applyDetailKindForChange c.wired = applyDetailKindForChange c := by
  apply wired_kind_iff.mpr
  rintro e₁ e₂ rfl - - d₁ d₂ isDigest₁ isDigest₂
  rcases received e₁ e₂ rfl with missing | missing
  · rw [missing] at isDigest₁
    cases isDigest₁
  · rw [missing] at isDigest₂
    cases isDigest₂

end Kinds

/-! ## The plans of a client -/

/-- What a client without a strong peer plans: the changes that it reports itself, those
that it received over the wire, and whatever choices are made for conflicts. The actions
that are carried out are part of the resolved plan. -/
structure LegacyPlan (A : Actions) (hash : ContentHash) (scope : ScanScope)
    (statefile : Option LoadedEntries) (scanned : Entries) (context : State.ScanContext)
    (received : List LegacyChange) (choice : Path → Option Resolution) (P : Actions) : Prop where
  reported : oldAndChanges hash scope statefile scanned false = .ok context
  resolved : resolveConflicts choice
    (buildActions context.changes (received.map LegacyChange.toChange) false) = some P
  part : A.Sublist P

/-- Both ends derive the same details from their forms of one action list: what the client
serves is what the server expects, and the other way round, index by index. -/
def InStep (A B : Actions) : Prop :=
  A.map servedDetailKind = B.map applyDetailKind ∧ A.map applyDetailKind = B.map servedDetailKind

section Plans

variable {A P : Actions} {hash : ContentHash} {scope : ScanScope}
  {statefile : Option LoadedEntries} {scanned : Entries} {context : State.ScanContext}
  {received : List LegacyChange} {choice : Path → Option Resolution} {a : Action}

theorem inStep_wired_iff : InStep A (fromLegacy (toLegacy (reverse A))) ↔
    ∀ a ∈ A, (∀ c, a.sentChange = some c →
        applyDetailKindForChange c.wired = applyDetailKindForChange c) ∧
      ∀ c, a.appliedChange = some c →
        applyDetailKindForChange c.wired = applyDetailKindForChange c := by
  have wired : fromLegacy (toLegacy (reverse A)) = A.map Action.wired := by
    simp [fromLegacy, toLegacy, reverse, Action.wired, Function.comp_def]
  have perChange : ∀ change : Option Change,
      change.bind applyDetailKindForChange =
          (change.map Change.wired).bind applyDetailKindForChange ↔
        ∀ c, change = some c →
          applyDetailKindForChange c.wired = applyDetailKindForChange c := by
    intro change
    cases change with
    | none => simp
    | some c => simp [eq_comm]
  unfold InStep
  rw [wired, List.map_map, List.map_map, List.map_inj_left, List.map_inj_left, ← forall₂_and]
  refine forall₂_congr fun a _ => ?_
  rw [Function.comp_apply, Function.comp_apply, servedDetailKind_eq, servedDetailKind_eq,
    applyDetailKind_eq, applyDetailKind_eq, appliedChange_wired, sentChange_wired, perChange,
    perChange]

/-- A conflict that is resolved by a modification has one entry of the other side in it. -/
theorem newEntry_of_resolveToLocal {lc rc : Change} {e₁ e₂ : DirEntryWithMeta}
    (resolves : resolveToLocal lc rc = some (.modified e₁ e₂)) : rc.newEntry = some e₂ := by
  cases lc <;> cases rc <;> cases resolves <;> rfl

theorem newEntry_of_resolveToRemote {lc rc : Change} {e₁ e₂ : DirEntryWithMeta}
    (resolves : resolveToRemote lc rc = some (.modified e₁ e₂)) : rc.newEntry = some e₁ := by
  cases lc <;> cases rc <;> cases resolves <;> rfl

/-- A change that was received has no digests, and one that resolves a conflict with such a
change takes an entry from it. -/
theorem received_of_mem_buildActions {lcs : List Change} {b : Action}
    (mem : b ∈ buildActions lcs (received.map LegacyChange.toChange) false)
    (chosen : resolveChosen choice b = some a) (notRemote : ∀ c, a ≠ .remote c) :
    ∀ c, a.sentChange = some c ∨ a.appliedChange = some c →
      ∀ e₁ e₂, c = .modified e₁ e₂ → e₁.digest = none ∨ e₂.digest = none := by
  obtain ⟨⟨lc, rc⟩, matched, created⟩ := List.mem_filterMap.mp mem
  have fromWire : ∀ c, rc = some c → ∃ wire : LegacyChange, c = wire.toChange := by
    rintro c rfl
    obtain ⟨wire, -, isWire⟩ := List.mem_map.mp ((mem_of_mem_matchSorted matched).2 c rfl)
    exact ⟨wire, isWire.symm⟩
  have planned : Planned false lc rc b := planned_of_createFor created
  cases planned with
  | remote lc =>
    cases chosen
    exact absurd rfl (notRemote lc)
  | «local» rc =>
    cases chosen
    obtain ⟨wire, rfl⟩ := fromWire rc rfl
    rintro c (sent | applied) e₁ e₂ rfl
    · cases sent
    · have isChange : wire.toChange = .modified e₁ e₂ := Option.some_inj.mp applied
      exact .inl (digest_of_toChange (.inl (congrArg Change.oldEntry isChange)))
  | identical lc rc same =>
    cases chosen
    rintro c (sent | applied)
    · cases sent
    · cases applied
  | conflict lc rc differ =>
    obtain ⟨wire, rfl⟩ := fromWire rc rfl
    rcases resolveChosen_cases chosen with rfl | ⟨lc', rc', same, resolved⟩
    · rintro c (sent | applied)
      · cases sent
      · cases applied
    · cases same
      rcases resolved with ⟨cl, toLocal, rfl⟩ | ⟨cr, toRemote, rfl⟩
      · rintro c (sent | applied) e₁ e₂ rfl
        · cases sent
        · cases applied
          exact .inr (digest_of_toChange (.inr (newEntry_of_resolveToLocal toLocal)))
      · rintro c (sent | applied) e₁ e₂ rfl
        · cases sent
          exact .inl (digest_of_toChange (.inr (newEntry_of_resolveToRemote toRemote)))
        · cases applied

end Plans

/-- For which plans the legacy wire form keeps both ends in step: exactly those where every
modified file that the client sends on its own has contents that digests and scan identity
judge alike. All other actions have an entry without a digest, and both ends compare scan
identities for them. -/
theorem legacyWire_inStep_iff {A P : Actions} {hash : ContentHash} {scope : ScanScope}
    {statefile : Option LoadedEntries} {scanned : Entries} {context : State.ScanContext}
    {received : List LegacyChange} {choice : Path → Option Resolution}
    (h : LegacyPlan A hash scope statefile scanned context received choice P) :
    InStep A (fromLegacy (toLegacy (reverse A))) ↔
      ∀ e₁ e₂, Action.remote (.modified e₁ e₂) ∈ A → e₁.isFile = true → e₂.isFile = true →
        ContentsAgree e₁ e₂ := by
  rw [inStep_wired_iff]
  constructor
  · intro kinds e₁ e₂ mem
    exact wired_kind_iff.mp ((kinds _ mem).1 _ rfl) e₁ e₂ rfl
  · intro agree a mem
    obtain ⟨b, planned, chosen⟩ :=
      exists_of_mem_right (forall₂_of_mapM_some h.resolved) (h.part.subset mem)
    by_cases isRemote : ∃ c, a = .remote c
    · obtain ⟨c, rfl⟩ := isRemote
      refine ⟨?_, by rintro c' ⟨⟩⟩
      rintro c' ⟨⟩
      apply wired_kind_iff.mpr
      rintro e₁ e₂ rfl
      exact agree e₁ e₂ mem
    · have received := received_of_mem_buildActions planned chosen fun c isChange =>
        isRemote ⟨c, isChange⟩
      exact ⟨fun c sent => wired_kind_of_no_digest (received c (.inl sent)),
        fun c applied => wired_kind_of_no_digest (received c (.inr applied))⟩

/-- A file of a V2 snapshot that was edited: both ends expect its diff. -/
theorem legacyWire_inStep_iff_edited :
    let saved : DirEntryWithMeta :=
      ⟨[.normal [97]], 1, 0, 7, 0o100644, none, false, 5, some ⟨.replicate 32 1⟩⟩
    let scanned : DirEntryWithMeta := { saved with size := 2, checksum := 0, digest := none }
    let hash : ContentHash := fun _ => .ok (6, ⟨.replicate 32 2⟩)
    ∃ A context, LegacyPlan A hash ⟨[], []⟩ (some ⟨[saved], .v2⟩) [scanned] context []
      (fun _ => none) A ∧ A.length = 1 ∧ InStep A (fromLegacy (toLegacy (reverse A))) := by
  intro saved scanned hash
  let edited : DirEntryWithMeta :=
    { scanned with checksum := 6, digest := some ⟨.replicate 32 2⟩ }
  have plan : LegacyPlan [.remote (.modified saved edited)] hash ⟨[], []⟩
      (some ⟨[saved], .v2⟩) [scanned] ⟨[saved], [.modified saved edited], [edited], false⟩ []
      (fun _ => none) [.remote (.modified saved edited)] := ⟨rfl, rfl, List.Sublist.refl _⟩
  refine ⟨_, _, plan, rfl, (legacyWire_inStep_iff plan).mpr ?_⟩
  intro e₁ e₂ mem file₁ file₂
  cases List.mem_singleton.mp mem
  rintro d₁ d₂ ⟨⟩ ⟨⟩
  decide

/-- A file of a V2 snapshot that was touched but not edited: the client sees equal digests and
serves nothing, and the server sees another mtime and expects a diff. -/
theorem legacyWire_touchedFile :
    let saved : DirEntryWithMeta :=
      ⟨[.normal [97]], 1, 0, 7, 0o100644, none, false, 5, some ⟨.replicate 32 1⟩⟩
    let scanned : DirEntryWithMeta := { saved with mtime := 1, checksum := 0, digest := none }
    let hash : ContentHash := fun _ => .ok (5, ⟨.replicate 32 1⟩)
    ∃ A context, LegacyPlan A hash ⟨[], []⟩ (some ⟨[saved], .v2⟩) [scanned] context []
      (fun _ => none) A ∧ A.map servedDetailKind = [none] ∧
      (fromLegacy (toLegacy (reverse A))).map applyDetailKind = [some .diff] ∧
      ¬ InStep A (fromLegacy (toLegacy (reverse A))) := by
  intro saved scanned hash
  let touched : DirEntryWithMeta :=
    { scanned with checksum := 5, digest := some ⟨.replicate 32 1⟩ }
  have plan : LegacyPlan [.remote (.modified saved touched)] hash ⟨[], []⟩
      (some ⟨[saved], .v2⟩) [scanned] ⟨[saved], [.modified saved touched], [touched], false⟩ []
      (fun _ => none) [.remote (.modified saved touched)] := ⟨rfl, rfl, List.Sublist.refl _⟩
  have served : ([.remote (.modified saved touched)] : Actions).map servedDetailKind = [none] := by
    decide
  have expected : (fromLegacy (toLegacy (reverse [.remote (.modified saved touched)]))).map
      applyDetailKind = [some .diff] := by decide
  refine ⟨_, _, plan, served, expected, fun inStep => ?_⟩
  have same := inStep.1
  rw [served, expected] at same
  cases same

end Duet
