import Duet.CommitRun
import Duet.PlanStructure

/-!
# The commits of both sides

The two sides of a synchronization commit the two directions of one plan, each on its own
tree. `commits_agree` joins what a commit leaves on disk with what the plan makes of the two
manifests: when both commits return, the manifests agree again, and each says what is on the
disk of its side at every path of the plan. What a plan asks of the tree follows when the tree
that it leads to is closed. On each side the assumptions are those of a single commit
(`PreparedSide`).
-/

namespace Duet.Commit

open Lib

/-! ## Plans that lead to closed trees -/

section Closed

variable {current : Entries} {ino : Path → UInt64} {actions : Actions} {tree : DirectoryTree}
  {kernel : Kernel} {hashes : Detail.ContentHashes} {prepared : Prepared} {s t : State}
  {p q : Path} {entries : Entries}

/-- What a plan leaves at the path of a change. -/
theorem entryAt_applied (sorted : SortedEntries current) (sortedA : SortedBy Action.path actions)
    {a : Action} (mem : a ∈ actions) {c : Change} (applied : a.appliedChange = some c) :
    entryAt a.path (appliedTree ino current actions) =
      c.newEntry.map (·.setIno (ino a.path)) := by
  rw [entryAt_appliedTree sorted sortedA, sortedA.lookup_of_mem mem, Option.elim_some]
  unfold Duet.carryOut
  rw [applied]

/-- In a closed tree everything above an entry is there. -/
theorem present_above {shapes : Path → Option Bool} (closed : Shape.Closed shapes)
    (present : shapes p ≠ none) (above : q <+: p) (nonempty : q ≠ []) : shapes q ≠ none := by
  obtain ⟨rest, rfl⟩ := above
  induction rest using List.reverseRecOn with
  | nil => rwa [List.append_nil] at present
  | append_singleton rest last ih =>
    refine ih fun absent => ?_
    rw [← List.append_assoc] at present
    have parent := closed (q ++ rest ++ [last])
    rw [List.dropLast_concat] at parent
    rw [parent (fun empty => nonempty (List.append_eq_nil_iff.mp empty).1) present] at absent
    cases absent

/-- The directory of a new entry is one of the current ones, or a change leaves it. -/
theorem rooted_of_closed (sorted : SortedEntries current)
    (sortedA : SortedBy Action.path actions)
    (closed : Shape.Closed (shapeAt (appliedTree ino current actions)))
    (directories : ∀ e ∈ current, e.isDir = true → tree.HasDirectory e.path)
    {a : Action} (mem : a ∈ actions) {c : Change} (applied : a.appliedChange = some c)
    (isNew : c.newEntry.isSome) : Rooted actions tree a.path.dropLast := by
  by_cases top : a.path.dropLast = []
  · exact .inl (.inl top)
  have present : shapeAt (appliedTree ino current actions) a.path ≠ none := by
    obtain ⟨e, isEntry⟩ := Option.isSome_iff_exists.mp isNew
    unfold shapeAt
    rw [entryAt_applied sorted sortedA mem applied, isEntry]
    nofun
  have parent := closed a.path top present
  unfold shapeAt at parent
  obtain ⟨f, found, isDir⟩ := Option.map_eq_some_iff.mp parent
  rw [entryAt_appliedTree sorted sortedA] at found
  have ofCurrent : entryAt a.path.dropLast current = some f →
      Rooted actions tree a.path.dropLast := by
    intro isCurrent
    have path : f.path = a.path.dropLast := key_of_lookup isCurrent
    exact .inl (path ▸ directories f (mem_of_lookup isCurrent) isDir)
  cases isAction : lookup Action.path a.path.dropLast actions with
  | none =>
    rw [isAction] at found
    exact ofCurrent found
  | some b =>
    rw [isAction, Option.elim_some] at found
    unfold Duet.carryOut at found
    cases change : b.appliedChange with
    | none =>
      rw [change] at found
      exact ofCurrent found
    | some d =>
      rw [change] at found
      obtain ⟨f', isEntry, rfl⟩ := Option.map_eq_some_iff.mp found
      exact .inr ⟨b, mem_of_lookup isAction, d, f', key_of_lookup isAction, change, isEntry, isDir⟩

/-- Nothing is left below a path that is removed. -/
theorem notBelow_of_closed (sorted : SortedEntries current)
    (sortedA : SortedBy Action.path actions)
    (closed : Shape.Closed (shapeAt (appliedTree ino current actions)))
    {a : Action} (mem : a ∈ actions) {c : Change} (applied : a.appliedChange = some c)
    (isNone : c.newEntry = none) (nonempty : a.path ≠ [])
    (present : (entryAt p (appliedTree ino current actions)).isSome) : ¬ a.path <+: p := by
  intro below
  have shown : shapeAt (appliedTree ino current actions) p ≠ none := by
    obtain ⟨e, found⟩ := Option.isSome_iff_exists.mp present
    unfold shapeAt
    rw [found]
    nofun
  refine present_above closed shown below nonempty ?_
  unfold shapeAt
  rw [entryAt_applied sorted sortedA mem applied, isNone]
  rfl

/-- A side that is ready to commit a plan over what it has scanned: the plan leads to a closed
tree, the scanned entries are there, and a receipt, if there is one, vouches for the outputs. -/
structure PreparedSide (kernel : Kernel) (hashes : Detail.ContentHashes) (current : Entries)
    (prepared : Prepared) (s : State) : Prop where
  structured : validateStagedStructure prepared.actions prepared.allOld = .ok ()
  strong : validateStrongActions prepared.actions = .ok ()
  plain : ∀ a ∈ prepared.actions, ∀ c, a.appliedChange = some c → ∀ e ∈ c.entries,
    e.isDir = true → e.target = none
  closed : Shape.Closed (shapeAt (appliedTree (fun _ => 0) current prepared.actions))
  scanned : ∀ e ∈ current, Fits hashes s e.path e
  unseen : ∀ a ∈ prepared.actions, kernel.Unseen a.path
  lasting : ∀ a ∈ prepared.actions, kernel.Lasting a.path
  staged : Staged prepared.actions s
  vouched : ∀ receipt, prepared.validationReceipt = some receipt →
    receiptIsStructurallyValid prepared s.preparedOutputs receipt = true →
    receipt.Vouches kernel hashes s

theorem PreparedSide.plan (side : PreparedSide kernel hashes current prepared s)
    (sorted : SortedEntries current) :
    Plan kernel prepared.actions prepared.allOld s.disk.tree where
  structured := side.structured
  strong := side.strong
  plain := side.plain
  rooted a mem c applied isNew := by
    have sortedA := (validateStagedStructure_eq_ok.mp side.structured).2.1
    refine rooted_of_closed sorted sortedA side.closed (fun e isEntry isDir => ?_) mem applied isNew
    obtain ⟨n, found, isMatch⟩ := side.scanned e isEntry
    exact DirectoryTree.hasDirectory_iff.mpr (.inr ⟨n, found, isMatch.isDir_eq.trans isDir⟩)
  unseen := side.unseen

theorem PreparedSide.nonempty (side : PreparedSide kernel hashes current prepared s)
    (sorted : SortedEntries current) {a : Action} (mem : a ∈ prepared.actions) {c : Change}
    (applied : a.appliedChange = some c) : a.path ≠ [] := by
  obtain ⟨i, isAction⟩ := List.mem_iff_getElem?.mp mem
  exact ((side.plan sorted).slot isAction applied).canonical.1

theorem PreparedSide.ready (side : PreparedSide kernel hashes current prepared s)
    (sorted : SortedEntries current) : ReadyToCommit kernel hashes prepared s := by
  have plan := side.plan sorted
  refine ⟨plan, ⟨fun a mem c applied isNone b bMem inside d change => ?_, side.lasting⟩,
    side.staged, side.vouched⟩
  by_contra isNew
  refine notBelow_of_closed sorted plan.sorted side.closed mem applied isNone
    (side.nonempty sorted mem applied) ?_ inside.1
  rw [entryAt_applied sorted plan.sorted bMem change, Option.isSome_map]
  exact Option.isSome_iff_ne_none.mpr isNew

/-- A side that was validated is as ready as before. -/
theorem PreparedSide.validated {validated : Prepared}
    (side : PreparedSide kernel hashes current prepared s) (sorted : SortedEntries current)
    (run : validateCommitReceipted kernel hashes prepared s = (.ok validated, t)) :
    PreparedSide kernel hashes current validated t := by
  have ready := (side.ready sorted).validated run
  obtain ⟨⟨calls, rfl⟩, generation, receipt, -, rfl⟩ :=
    validateCommitReceipted_left
      (fun i a c isAction applied => (side.plan sorted).slot isAction applied) side.unseen run
  exact ⟨side.structured, side.strong, side.plain, side.closed, side.scanned, side.unseen,
    side.lasting, ready.staged, ready.vouched⟩

/-- At the paths of a plan the manifest says what is on disk. -/
structure Describes (hashes : Detail.ContentHashes) (actions : Actions) (entries : Entries)
    (t : State) : Prop where
  present : ∀ a ∈ actions, ∀ e, entryAt a.path entries = some e → Fits hashes t a.path e
  absent : ∀ a ∈ actions, a.appliedChange.isSome → entryAt a.path entries = none →
    t.disk.tree.entry? a.path = none

/-- An entry that is not changed here is as it was scanned. -/
theorem PreparedSide.describes (side : PreparedSide kernel hashes current prepared s)
    (sorted : SortedEntries current) (committed : Committed hashes prepared s entries t)
    (left : ∀ a ∈ prepared.actions, entryAt a.path entries =
      Duet.carryOut t.inoAt a (entryAt a.path current)) :
    Describes hashes prepared.actions entries t := by
  have sortedA := (side.plan sorted).sorted
  refine ⟨fun a mem e isEntry => ?_, fun a mem isApplied isNone => ?_⟩
  · cases applied : a.appliedChange with
    | some c =>
      have described := committed.described a mem (by rw [applied]; rfl)
      rw [isEntry] at described
      exact described
    | none =>
      have isCurrent : entryAt a.path current = some e := by
        rw [left a mem] at isEntry
        unfold Duet.carryOut at isEntry
        rwa [applied] at isEntry
      have path : e.path = a.path := key_of_lookup isCurrent
      have remains : (entryAt a.path
          (appliedTree (fun _ => 0) current prepared.actions)).isSome := by
        rw [entryAt_appliedTree sorted sortedA, sortedA.lookup_of_mem mem, Option.elim_some]
        unfold Duet.carryOut
        rw [applied, isCurrent]
        rfl
      -- no change is at this path, and nothing above it is removed
      have apart : Apart prepared.actions a.path := by
        intro b bMem d change
        refine ⟨fun same => ?_, fun isNone inside => ?_⟩
        · have found := sortedA.lookup_of_mem bMem
          rw [same, sortedA.lookup_of_mem mem] at found
          cases found
          rw [applied] at change
          cases change
        · exact notBelow_of_closed sorted sortedA side.closed bMem change isNone
            (side.nonempty sorted bMem change) remains inside.1
      obtain ⟨node, bytes⟩ := committed.settled.contained.untouched a.path apart
      have fits := side.scanned e (mem_of_lookup isCurrent)
      unfold Fits at fits ⊢
      rw [node, bytes, ← path]
      exact fits
  · have described := committed.described a mem isApplied
    rw [isNone] at described
    exact described

end Closed

section Sides

variable {savedL savedR currentL currentR : Entries} {choice : Path → Option Resolution}
  {kernelL kernelR : Kernel} {hashes : Detail.ContentHashes} {preparedL preparedR : Prepared}
  {sL sR tL tR : State} {entriesL entriesR : Entries}

/-- What the two sides prepared are the directions of one plan over their saved manifests. -/
structure SidesOf (savedL savedR currentL currentR : Entries) (choice : Path → Option Resolution)
    (preparedL preparedR : Prepared) : Prop where
  actionsL : preparedL.actions = activePlan savedL savedR currentL currentR choice
  actionsR : preparedR.actions = reverse (activePlan savedL savedR currentL currentR choice)
  savedL : preparedL.allOld = savedL
  savedR : preparedR.allOld = savedR

/-- The manifests that two commits have merged are those of the plan. -/
theorem merges_of_committed (h : ThreeWay savedL savedR currentL currentR)
    (sides : SidesOf savedL savedR currentL currentR choice preparedL preparedR)
    (committedL : Committed hashes preparedL sL entriesL tL)
    (committedR : Committed hashes preparedR sR entriesR tR) :
    Merges savedL savedR currentL currentR choice tL.inoAt tR.inoAt entriesL entriesR := by
  obtain ⟨mergedL, mergedR, merges⟩ := h.merges choice tL.inoAt tR.inoAt
  have left := committedL.merged
  have right := committedR.merged
  rw [sides.actionsL, sides.savedL, merges.mergeL] at left
  rw [sides.actionsR, sides.savedR, merges.mergeR] at right
  cases left
  cases right
  exact merges

/-- Two commits of one plan that return leave manifests that agree, and each says what is on
the disk of its side at the paths of the plan. -/
theorem commits_agree (h : ThreeWay savedL savedR currentL currentR)
    (sides : SidesOf savedL savedR currentL currentR choice preparedL preparedR)
    (sideL : PreparedSide kernelL hashes currentL preparedL sL)
    (sideR : PreparedSide kernelR hashes currentR preparedR sR)
    (runL : commitProfiled kernelL hashes preparedL sL = (.ok entriesL, tL))
    (runR : commitProfiled kernelR hashes preparedR sR = (.ok entriesR, tR)) :
    ManifestsAgree entriesL entriesR ∧ Describes hashes preparedL.actions entriesL tL ∧
      Describes hashes preparedR.actions entriesR tR := by
  have committedL : Committed hashes preparedL sL entriesL tL :=
    (ends_commitProfiled (sideL.ready h.sortedCurrentL)).of_ok runL
  have committedR : Committed hashes preparedR sR entriesR tR :=
    (ends_commitProfiled (sideR.ready h.sortedCurrentR)).of_ok runR
  have merges := merges_of_committed h sides committedL committedR
  have leftL : ∀ a ∈ preparedL.actions, entryAt a.path entriesL =
      Duet.carryOut tL.inoAt a (entryAt a.path currentL) := by
    intro a mem
    rw [sides.actionsL] at mem
    rw [merges.entryL, h.sorted_activePlan.lookup_of_mem mem]
    rfl
  have leftR : ∀ a ∈ preparedR.actions, entryAt a.path entriesR =
      Duet.carryOut tR.inoAt a (entryAt a.path currentR) := by
    intro a mem
    rw [sides.actionsR] at mem
    obtain ⟨b, bMem, rfl⟩ := List.mem_map.mp mem
    rw [h.flip_keyed b bMem, merges.entryR, h.sorted_activePlan.lookup_of_mem bMem]
    rfl
  exact ⟨merges.agree h, sideL.describes h.sortedCurrentL committedL leftL,
    sideR.describes h.sortedCurrentR committedR leftR⟩

end Sides

/-! ## The other side of the exchange -/

/-- A tree with the new directory `e` and the new file `f`. -/
def treeWithNew : DirectoryTree where
  nodes := [⟨[.normal [101]], ⟨.directory, 0, 0, 1, 0o40755, 7⟩⟩,
    ⟨[.normal [101], .normal [102]], ⟨.file, 1, 0, 2, 0o100644, 7⟩⟩]
  dev := 7
  nodup := List.nodup_cons.mpr ⟨by simp, List.nodup_singleton _⟩
  named := by
    intro node mem
    simp only [List.mem_cons, List.not_mem_nil, or_false] at mem
    rcases mem with rfl | rfl
    · exact ⟨[], [101], rfl, .inl rfl⟩
    · exact ⟨[.normal [101]], [102], rfl, .inr ⟨_, List.mem_cons_self, rfl, rfl⟩⟩

def sourceState : State where
  disk := ⟨treeWithNew, 0⟩
  contents _ := [4]
  preparedOutputs _ := none
  localResults := [none, none, none]
  records := []
  calls := 0

/-- Nothing of the exchange is applied where it comes from. -/
theorem idle_source {a : Action} (mem : a ∈ reverse exchange) : a.appliedChange = none := by
  have idle : ∀ a ∈ reverse exchange, a.appliedChange = none := by decide
  exact idle a mem

/-- The other direction of the exchange before it is validated. -/
def sourcePrepared (plan : CommitPlan) : Prepared :=
  ⟨reverse exchange, [fileX], plan, true, some "attempt", 0, none⟩

theorem side_target {plan : CommitPlan} :
    PreparedSide patient Detail.paddedHashes [fileX] (exchangePrepared plan) exchangeState := by
  have closed : Shape.Closed (shapeAt (appliedTree (fun _ => 0) [fileX] exchange)) :=
    closed_of_entries (by decide +kernel)
  refine ⟨rfl, rfl, plan_exchange.plain, closed, fun e mem => ?_, fun _ _ _ => nofun,
    emptied_exchange.lasting, staged_exchange, nofun⟩
  cases List.mem_singleton.mp mem
  exact ⟨_, rfl, fun _ => ⟨rfl, rfl⟩, nofun, fun _ _ => nofun, fun _ => rfl, fun _ => rfl⟩

theorem side_source {plan : CommitPlan} :
    PreparedSide patient Detail.paddedHashes [directoryE, fileF] (sourcePrepared plan)
      sourceState := by
  have closed : Shape.Closed
      (shapeAt (appliedTree (fun _ => 0) [directoryE, fileF] (reverse exchange))) :=
    closed_of_entries (by decide +kernel)
  refine ⟨rfl, rfl, fun a mem c applied => ?_, closed, fun e mem => ?_, fun _ _ _ => nofun,
    fun a mem => lasting_exchange a (List.mem_append_right _ mem), ⟨rfl, fun _ _ _ _ => rfl,
      fun i a c isAction applied => ?_, fun i a c isAction applied => ?_⟩, nofun⟩
  · rw [idle_source mem] at applied
    cases applied
  · simp only [List.mem_cons, List.not_mem_nil, or_false] at mem
    rcases mem with rfl | rfl
    · exact ⟨_, rfl, nofun, fun _ => rfl, nofun, fun _ => rfl, nofun⟩
    · exact ⟨_, rfl, fun _ => ⟨rfl, rfl⟩, nofun, fun _ _ => nofun, fun _ => rfl, fun _ => rfl⟩
  · rw [idle_source (List.mem_of_getElem? isAction)] at applied
    cases applied
  · rw [idle_source (List.mem_of_getElem? isAction)] at applied
    cases applied

theorem threeWay_exchange : ThreeWay [fileX] [fileX] [fileX] [directoryE, fileF] := by
  refine ⟨by decide, by decide, by decide, by decide, fun p => .refl _, ?_, ?_, ?_⟩
  · unfold CarriesDigests
    decide
  · unfold CarriesDigests
    decide
  · unfold DigestsDetermineSize
    decide +kernel

/-- Both sides are validated, and then both commits of the exchange return. -/
theorem commits_agree_exchange :
    ∃ planL planR, CommitPlan.new globX exchange none ⟨false⟩ = .ok planL ∧
      CommitPlan.new globX (reverse exchange) none ⟨false⟩ = .ok planR ∧
      ∃ preparedL sL preparedR sR,
        validateCommitReceipted patient Detail.paddedHashes (exchangePrepared planL)
          exchangeState = (.ok preparedL, sL) ∧
        validateCommitReceipted patient Detail.paddedHashes (sourcePrepared planR)
          sourceState = (.ok preparedR, sR) ∧
        ∃ entriesL tL entriesR tR,
          commitProfiled patient Detail.paddedHashes preparedL sL = (.ok entriesL, tL) ∧
          commitProfiled patient Detail.paddedHashes preparedR sR = (.ok entriesR, tR) ∧
          ManifestsAgree entriesL entriesR ∧
          Describes Detail.paddedHashes preparedL.actions entriesL tL ∧
          Describes Detail.paddedHashes preparedR.actions entriesR tR := by
  refine ⟨_, _, rfl, rfl, ?_⟩
  generalize isPlanL : CommitPlan.mk _ _ _ _ _ _ _ = planL
  generalize isPlanR : CommitPlan.mk _ _ _ _ _ _ _ = planR
  have acceptsL : ((validateCommitReceipted patient Detail.paddedHashes (exchangePrepared planL) >>=
      commitProfiled patient Detail.paddedHashes) exchangeState).1.isOk = true := by
    subst isPlanL
    decide +kernel
  have acceptsR : ((validateCommitReceipted patient Detail.paddedHashes (sourcePrepared planR) >>=
      commitProfiled patient Detail.paddedHashes) sourceState).1.isOk = true := by
    subst isPlanR
    decide +kernel
  obtain ⟨entriesL, tL, runsL⟩ := Effect.exists_of_isOk acceptsL
  obtain ⟨entriesR, tR, runsR⟩ := Effect.exists_of_isOk acceptsR
  obtain ⟨preparedL, sL, validL, runL⟩ := Effect.bind_run_eq_ok.mp runsL
  obtain ⟨preparedR, sR, validR, runR⟩ := Effect.bind_run_eq_ok.mp runsR
  have sideL := side_target.validated threeWay_exchange.sortedCurrentL validL
  have sideR := side_source.validated threeWay_exchange.sortedCurrentR validR
  -- the validations leave the two directions of the plan as they are
  have isPlan : exchange =
      activePlan [fileX] [fileX] [fileX] [directoryE, fileF] fun _ => none := by
    decide +kernel
  have sides : SidesOf [fileX] [fileX] [fileX] [directoryE, fileF] (fun _ => none)
      preparedL preparedR := by
    obtain ⟨-, _, _, -, rfl⟩ := validateCommitReceipted_left
      (fun i a c isAction applied => (side_target.plan threeWay_exchange.sortedCurrentL).slot
        isAction applied) side_target.unseen validL
    obtain ⟨-, _, _, -, rfl⟩ := validateCommitReceipted_left
      (fun i a c isAction applied => (side_source.plan threeWay_exchange.sortedCurrentR).slot
        isAction applied) side_source.unseen validR
    exact ⟨isPlan, congrArg reverse isPlan, rfl, rfl⟩
  exact ⟨preparedL, sL, preparedR, sR, validL, validR, entriesL, tL, entriesR, tR, runL, runR,
    commits_agree threeWay_exchange sides sideL sideR runL runR⟩

end Duet.Commit
