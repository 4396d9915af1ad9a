import Duet.Sync.DetailSides

/-!
# Both ends agree on the details

The signatures of one side are those that the other side takes, and the frames of the other are
accepted by the first, which then has every new file prepared.

The producer refuses windows above a limit that negotiated tunings keep to, and a frame has room for
32 bits of an action's index.
-/

namespace Duet.Detail

open Lib Rustsync

section Agreement

variable {files : OutputFiles} {hashes : ContentHashes} {signs : Path → Option (Reader UInt8)}
  {sending : SourceFiles} {contents : Path → List UInt8} {actions : Actions} {checks : Bool}
  {config : SignatureWindowConfig}

/-! ## The result -/

/-- What the side that applies the actions has in the end: an output for each action with a detail,
which is the new file, and no other output. -/
def Prepared (contents : Path → List UInt8) (actions : Actions) (applier : DetailApplier) : Prop :=
  (∀ index action, actions[index]? = some action → (applyDetailKind action).isSome →
    ∃ entry prepared, actionOutputEntry action = .ok entry ∧
      applier.preparedOutputs index = some prepared ∧
      prepared.output.file = contents entry.path) ∧
  ∀ index prepared, applier.preparedOutputs index = some prepared →
    ∃ action, actions[index]? = some action ∧ (applyDetailKind action).isSome

/-- A stream that gives every new file is accepted, and leaves all of them prepared. -/
theorem DetailSides.accepts (sides : DetailSides files hashes signs sending contents actions)
    {frames : List DetailFrame} (conveys : Conveys files hashes contents actions 0 frames)
    (attemptId : Option String) (monitor : Bool) (limits : OutputBatchConfig) :
    ∃ applier, accept (applyFrame files hashes) (finishOutputs files) frames
        (.new actions attemptId monitor limits) = (.ok (), applier) ∧
      Prepared contents actions applier := by
  have run := (residual_between files hashes actions).ends_accept
    (between_new files hashes actions attemptId monitor limits) frames
  have stored := @ends_accept_stored files hashes actions [] frames _
    (storing_new files actions attemptId monitor limits)
  cases ends : accept (applyFrame files hashes) (finishOutputs files) frames
      (.new actions attemptId monitor limits) with
  | mk answer applier =>
    cases answer with
    | error cause =>
      have refused := run.of_error ends
      exact absurd conveys.stream
        (refused (fun frame mem => ⟨sides.serves, conveys.inFile frame mem⟩) sides.serves)
    | ok done =>
      obtain ⟨holds, ended⟩ := stored.of_ok ends
      rw [List.nil_append] at holds ended
      refine ⟨applier, rfl, ?_, ?_⟩
      · intro index action found detail
        obtain ⟨kind, isKind⟩ := Option.isSome_iff_exists.mp detail
        obtain ⟨entry, output⟩ := exists_outputEntry isKind
        obtain ⟨given, frame, mem, own, isEnd⟩ :=
          conveys.outputs index action entry found (Nat.zero_le _) detail output
        obtain ⟨prepared, slot⟩ := ended frame mem isEnd
        rw [own] at slot
        exact ⟨entry, prepared, output, slot, (holds index prepared slot).1.trans given⟩
      · intro index prepared slot
        obtain ⟨-, frame, mem, own⟩ := holds index prepared slot
        obtain ⟨at_, action, found, detail, eq⟩ :=
          exists_detail_of_frame conveys.stream frame mem
        have same : at_ = index := by omega
        exact ⟨action, same ▸ found, detail⟩

/-- The signatures of one side are those that the other one takes, be it for a stream or for all
details at once, and the stream is accepted and leaves the new files prepared. -/
theorem details_agree (sides : DetailSides files hashes signs sending contents actions)
    (indexed : Indexed actions) (small : config.normalized.max.toNat ≤ maxSignatureWindow)
    (distinct : Distinct files sending.hashing contents checks config actions)
    (maxChunkBytes : Nat) :
    ∃ signatures,
      getSignaturesWithConfig sending.hashing signs checks config actions = .ok signatures ∧
      List.Forall₂ (Signed files sending.hashing checks config) (actions.filterMap signedEntry)
        signatures ∧
      (∃ details, getDetailedChanges sending (reverse actions) signatures = .ok details ∧
        List.Forall₂ (Details files contents)
          (actions.filter fun action => (applyDetailKind action).isSome) details) ∧
      ∃ frames, (frameSource sending).Delivers
          (.new (reverse actions) signatures maxChunkBytes) frames none ∧
        ∀ attemptId monitor limits, ∃ applier,
          accept (applyFrame files hashes) (finishOutputs files) frames
            (.new actions attemptId monitor limits) = (.ok (), applier) ∧
          Prepared contents actions applier := by
  obtain ⟨signatures, given, signed⟩ := sides.getSignatures sending.hashing checks config
  refine ⟨signatures, given, signed, ?_, ?_⟩
  · obtain ⟨details, collected, all⟩ :=
      sides.collects small distinct actions (List.Subset.refl _) signatures signed
    refine ⟨details, ?_, all⟩
    unfold getDetailedChanges
    rw [validateActions_reverse sides.validated]
    exact collected
  · have room : 0 < max maxChunkBytes 1 := by omega
    obtain ⟨frames, delivers, conveys⟩ :=
      delivers_from sides indexed small distinct room actions 0 0 rfl signed
    exact ⟨frames, delivers, sides.accepts conveys⟩

/-! ## Files of one tree -/

def sendingOf (bytes : List UInt8) : SourceFiles where
  hashing := paddedHashing
  opens _ := some (⟨bytes, []⟩, bytes.length)
  readFails _ _ := false

/-- Plans for two such trees. -/
theorem sides_filed {old new : List UInt8} (shortOld : old.length < 2 ^ 63)
    (shortNew : new.length < 2 ^ 63) (validated : validateActions actions = .ok ())
    (filedOnly : ∀ action ∈ actions, ∀ change, action.appliedChange = some change → ∃ path,
      change = .added (filed path new) ∨ change = .modified (filed path old) (filed path new)) :
    DetailSides (treeOf old) paddedHashes (fun _ => some ⟨old, []⟩) (sendingOf new)
      (fun _ => new) actions := by
  refine ⟨fun _ _ => rfl, validated, ?_, ?_, ?_, fun _ _ => rfl, fun _ => ⟨shortOld, shortNew⟩⟩
  · intro action mem change applied
    obtain ⟨path, rfl | rfl⟩ := filedOnly action mem change applied
    · trivial
    · rfl
  · intro action mem oldEntry entry applied isFile
    obtain ⟨path, eq | eq⟩ := filedOnly action mem _ applied
    · cases eq
    · cases eq
      exact ⟨declared_filed path shortOld, [], rfl⟩
  · intro action mem entry output
    obtain ⟨change, -, added, resolved⟩ := actionOutputEntry_eq_ok output
    have applied : action.appliedChange = some change := by
      rcases resolved with ⟨conflict, rfl⟩ | rfl
      · rfl
      · rfl
    have isFiled : ∃ path, entry = filed path new := by
      obtain ⟨path, eq | eq⟩ := filedOnly action mem change applied
      · rcases added with rfl | ⟨oldEntry, rfl⟩
        · cases eq
          exact ⟨path, rfl⟩
        · cases eq
      · rcases added with rfl | ⟨oldEntry, rfl⟩
        · cases eq
        · cases eq
          exact ⟨path, rfl⟩
    obtain ⟨path, rfl⟩ := isFiled
    exact ⟨declared_filed path shortNew, [], rfl⟩

/-- A file of one byte that changes. -/
def changedByte : Actions :=
  [.local (.modified (filed [.normal [97]] [1]) (filed [.normal [97]] [2]))]

theorem sides_changedByte :
    DetailSides (treeOf [1]) paddedHashes (fun _ => some ⟨[1], []⟩) (sendingOf [2])
      (fun _ => [2]) changedByte := by
  refine sides_filed (by decide) (by decide) rfl ?_
  intro action mem change applied
  cases List.mem_singleton.mp mem
  cases applied
  exact ⟨_, Or.inr rfl⟩

/-- The padded digest tells short files apart with every window. -/
theorem distinct_changedByte (checks : Bool) (config : SignatureWindowConfig) :
    Distinct (treeOf [1]) paddedHashing (fun _ => [2]) checks config changedByte := by
  intro action mem old signed window isWindow i _ _ piece inside short same
  refine paddedHashing_injective ?_ ?_ same
  · refine (List.length_take_le' _ _).trans ?_
    rw [List.length_drop]
    exact (Nat.sub_le _ _).trans (by decide : [(1 : UInt8)].length ≤ 31)
  · exact inside.length_le.trans (by decide : [(2 : UInt8)].length ≤ 31)

/-- One byte, with the smallest windows. -/
theorem details_agree_changedByte :
    ∃ signatures frames applier prepared,
      getSignaturesWithConfig paddedHashing (fun _ => some ⟨[1], []⟩) true ⟨1, 1⟩ changedByte =
        .ok signatures ∧
      (frameSource (sendingOf [2])).Delivers (.new (reverse changedByte) signatures 1)
        frames none ∧
      accept (applyFrame (treeOf [1]) paddedHashes) (finishOutputs (treeOf [1])) frames
        (.new changedByte none false ⟨1, 1⟩) = (.ok (), applier) ∧
      applier.preparedOutputs 0 = some prepared ∧ prepared.output.file = [2] := by
  have indexed : Indexed changedByte := by
    intro index action found _
    obtain ⟨inside, -⟩ := List.getElem?_eq_some_iff.mp found
    change index < 1 at inside
    omega
  have small : (⟨1, 1⟩ : SignatureWindowConfig).normalized.max.toNat ≤ maxSignatureWindow := by
    decide
  obtain ⟨signatures, given, -, -, frames, delivers, accepts⟩ :=
    details_agree sides_changedByte indexed small (distinct_changedByte true ⟨1, 1⟩) 1
  obtain ⟨applier, accepted, all, -⟩ := accepts none false ⟨1, 1⟩
  obtain ⟨entry, prepared, output, slot, contents⟩ := all 0 _ rfl rfl
  exact ⟨signatures, frames, applier, prepared, given, delivers, accepted, slot, contents⟩

/-! ## Windows above the limit, and indices above 32 bits -/

/-- A plan that is sorted and resolved, and whose files have digests. -/
structure StrongPlan (actions : Actions) : Prop where
  sorted : SortedBy Action.path actions
  strong : validateStrongActions actions = .ok ()
  resolved : ∀ action ∈ actions, action.isUnresolvedConflict = false

/-- A number written with digits of six bits. -/
def sixBitDigits : Nat → Nat → List Nat
  | 0, _ => []
  | digits + 1, n => (48 + n / 64 ^ digits) :: sixBitDigits digits (n % 64 ^ digits)

/-- Numbers with as many digits are in the order of their digits. -/
theorem sixBitDigits_lt {digits m n : Nat} (less : m < n) (fits : n < 64 ^ digits) :
    sixBitDigits digits m < sixBitDigits digits n := by
  induction digits generalizing m n with
  | zero =>
    rw [pow_zero] at fits
    omega
  | succ digits ih =>
    have positive : 0 < 64 ^ digits := Nat.pos_of_ne_zero (by positivity)
    have ofM := Nat.div_add_mod m (64 ^ digits)
    have ofN := Nat.div_add_mod n (64 ^ digits)
    rw [sixBitDigits, sixBitDigits, List.cons_lt_cons_iff]
    rcases Nat.lt_or_ge (m / 64 ^ digits) (n / 64 ^ digits) with head | head
    · left
      omega
    · have same : m / 64 ^ digits = n / 64 ^ digits :=
        Nat.le_antisymm (Nat.div_le_div_right less.le) head
      refine Or.inr ⟨congrArg (48 + ·) same, ih ?_ (Nat.mod_lt _ positive)⟩
      rw [same] at ofM
      omega

theorem digits_lt_byte {digits n digit : Nat} (fits : n < 64 ^ digits)
    (mem : digit ∈ sixBitDigits digits n) : digit < 256 := by
  induction digits generalizing n with
  | zero => cases mem
  | succ digits ih =>
    have positive : 0 < 64 ^ digits := Nat.pos_of_ne_zero (by positivity)
    rcases List.mem_cons.mp mem with rfl | later
    · have small : n / 64 ^ digits < 64 := by
        rw [Nat.div_lt_iff_lt_mul positive]
        rwa [pow_succ, Nat.mul_comm] at fits
      omega
    · exact ih (Nat.mod_lt _ positive) later

/-- A path whose name is the number, in six digits. -/
def numberedPath (n : Nat) : Path := [.normal ((sixBitDigits 6 n).map UInt8.ofNat)]

theorem numberedPath_lt {m n : Nat} (less : m < n) (fits : n < 2 ^ 36) :
    numberedPath m < numberedPath n := by
  have bytes : ∀ k, k < 2 ^ 36 →
      ((sixBitDigits 6 k).map UInt8.ofNat).map UInt8.toNat = sixBitDigits 6 k := by
    intro k small
    rw [List.map_map]
    refine (List.map_congr_left fun digit mem => ?_).trans (List.map_id _)
    exact UInt8.toNat_ofNat_of_lt' (@digits_lt_byte 6 k digit small mem)
  refine List.cons_lt_cons_iff.mpr (Or.inl ?_)
  change Component.sortKey _ < Component.sortKey _
  simp only [Component.sortKey]
  rw [bytes m (less.trans fits), bytes n fits]
  exact Prod.Lex.toLex_lt_toLex.mpr (Or.inr ⟨rfl, sixBitDigits_lt less fits⟩)

/-- As many new files, all empty. -/
def numberedFiles (count : Nat) : Actions :=
  (List.range count).map fun n => .local (.added (filed (numberedPath n) []))

theorem getElem?_numberedFiles {n count : Nat} (inside : n < count) :
    (numberedFiles count)[n]? = some (.local (.added (filed (numberedPath n) []))) := by
  unfold numberedFiles
  rw [List.getElem?_map, List.getElem?_range inside, Option.map_some]

theorem strongPlan_numberedFiles {count : Nat} (fits : count ≤ 2 ^ 36) :
    StrongPlan (numberedFiles count) := by
  refine ⟨?_, validateStrongActions_eq_ok.mpr ?_, ?_⟩
  · refine List.pairwise_map.mpr (List.pairwise_lt_range.imp_of_mem fun _ mem less => ?_)
    exact numberedPath_lt less (lt_of_lt_of_le (List.mem_range.mp mem) fits)
  · intro action mem change acts entry inside
    obtain ⟨n, -, rfl⟩ := List.mem_map.mp mem
    cases List.mem_singleton.mp acts
    cases List.mem_singleton.mp inside
    refine ⟨⟨List.cons_ne_nil _ _, fun component named => ?_⟩, fun _ => rfl⟩
    cases List.mem_singleton.mp named
    rfl
  · intro action mem
    obtain ⟨n, -, rfl⟩ := List.mem_map.mp mem
    rfl

theorem sides_numberedFiles {count : Nat} (fits : count ≤ 2 ^ 36) :
    DetailSides (treeOf []) paddedHashes (fun _ => some ⟨[], []⟩) (sendingOf [])
      (fun _ => []) (numberedFiles count) := by
  have strong := validateStrongActions_eq_ok.mp (strongPlan_numberedFiles fits).strong
  refine sides_filed (by decide) (by decide) (validateActions_eq_ok.mpr ?_) ?_
  · exact fun action mem change acts entry inside => (strong action mem change acts entry inside).path
  · intro action mem change applied
    obtain ⟨n, -, rfl⟩ := List.mem_map.mp mem
    cases applied
    exact ⟨_, Or.inl rfl⟩

/-- A window above the limit is signed, but no frame is yielded for it. -/
theorem no_frames_of_wide (sides : DetailSides files hashes signs sending contents actions)
    {action : Action} {old : DirEntryWithMeta} {later : Actions} {window : UInt64}
    (first : actions = action :: later) (signed : signedEntry action = some old)
    (found : config.windowForSize checks old.size = some window)
    (wide : maxSignatureWindow < window.toNat) (maxChunkBytes : Nat) :
    ∃ signatures,
      getSignaturesWithConfig sending.hashing signs checks config actions = .ok signatures ∧
      ∀ frames, ¬ (frameSource sending).Delivers
        (.new (reverse actions) signatures maxChunkBytes) frames none := by
  obtain ⟨signatures, given, all⟩ := sides.getSignatures sending.hashing checks config
  refine ⟨signatures, given, fun frames delivers => ?_⟩
  subst first
  rw [List.filterMap_cons_some signed] at all
  obtain ⟨next, rest, ofOld, -, rfl⟩ := List.forall₂_cons_left_iff.mp all
  obtain ⟨path, sig⟩ := next
  obtain ⟨path_eq, width, plan, pos, ⟨word, isWindow, word_eq⟩, -, sig_eq⟩ := ofOld
  rw [found] at isWindow
  cases isWindow
  dsimp only at path_eq sig_eq
  subst path_eq sig_eq word_eq
  have refused : ∃ message, validateSignatureWindow
      (signature sending.hashing ⟨files.contents old.path, plan⟩ window.toNat pos).window =
        .error message := ⟨_, if_pos (Or.inr wide)⟩
  obtain ⟨message, refused⟩ := refused
  have served : sourceDetailKind action.flip = some (.diff old.path) := by
    cases classified action with
    | nothing applied served signed' => rw [signed'] at signed; cases signed
    | file entry applied served signed' => rw [signed'] at signed; cases signed
    | diff old' entry' applied served signed' output change' =>
      rw [signed'] at signed
      cases signed
      exact served
  have fails : ∃ cause next, nextFrame sending (between (action :: later)
      ((old.path, signature sending.hashing ⟨files.contents old.path, plan⟩ window.toNat pos) ::
        rest) (max maxChunkBytes 1) 0 0) = (.error cause, next) := by
    refine ⟨.invalidWindow old.path message, ?_, ?_⟩
    rotate_left
    · rw [nextFrame_between rfl, served]
      simp only [beginDetailFrames, expectSignature, between, List.getElem?_cons_zero, refused,
        bind, Effect.bind, Effect.check, Effect.read, ne_eq, not_true_eq_false, if_false]
      rfl
  obtain ⟨cause, next, fails⟩ := fails
  cases delivers with
  | exhausted done =>
    change nextFrame sending (between _ _ _ 0 0) = _ at done
    rw [fails] at done
    cases done
  | yields done rest =>
    change nextFrame sending (between _ _ _ 0 0) = _ at done
    rw [fails] at done
    cases done

/-- No frame names an action that is 2^32 actions behind the first. -/
theorem not_accepted_of_far {index : Nat} {action : Action} (found : actions[index]? = some action)
    (detail : (applyDetailKind action).isSome) (far : 2 ^ 32 ≤ index) (attemptId : Option String)
    (monitor : Bool) (limits : OutputBatchConfig) (frames : List DetailFrame) :
    (accept (applyFrame files hashes) (finishOutputs files) frames
      (.new actions attemptId monitor limits)).1 ≠ .ok () := by
  intro accepted
  have run := (residual_between files hashes actions).ends_accept
    (between_new files hashes actions attemptId monitor limits) frames
  have inside := run.of_ok (Prod.ext accepted rfl)
  obtain ⟨frame, -, own⟩ := exists_frame_of_detail inside found detail
  have small := frame.actionIndex.toNat_lt
  omega

/-- A window above the limit is given but not taken, and of too many files none is accepted. -/
theorem details_disagree :
    (StrongPlan changedByte ∧
      DetailSides (treeOf [1]) paddedHashes (fun _ => some ⟨[1], []⟩) (sendingOf [2])
        (fun _ => [2]) changedByte ∧
      Distinct (treeOf [1]) paddedHashing (fun _ => [2]) true ⟨16777217, 16777217⟩ changedByte ∧
      ∃ signatures,
        getSignaturesWithConfig paddedHashing (fun _ => some ⟨[1], []⟩) true
          ⟨16777217, 16777217⟩ changedByte = .ok signatures ∧
        ∀ frames, ¬ (frameSource (sendingOf [2])).Delivers
          (.new (reverse changedByte) signatures 1) frames none) ∧
    StrongPlan (numberedFiles (2 ^ 32 + 1)) ∧
    DetailSides (treeOf []) paddedHashes (fun _ => some ⟨[], []⟩) (sendingOf []) (fun _ => [])
      (numberedFiles (2 ^ 32 + 1)) ∧
    ∀ frames, (accept (applyFrame (treeOf []) paddedHashes) (finishOutputs (treeOf [])) frames
      (.new (numberedFiles (2 ^ 32 + 1)) none false ⟨1, 1⟩)).1 ≠ .ok () := by
  have fits : 2 ^ 32 + 1 ≤ 2 ^ 36 := by decide
  have plan : StrongPlan changedByte := by
    refine ⟨List.pairwise_singleton _ _, rfl, ?_⟩
    intro action mem
    cases List.mem_singleton.mp mem
    rfl
  refine ⟨⟨plan, sides_changedByte, distinct_changedByte _ _, ?_⟩,
    strongPlan_numberedFiles fits, sides_numberedFiles fits, ?_⟩
  · have found : (⟨16777217, 16777217⟩ : SignatureWindowConfig).windowForSize true 1 =
        some 16777217 := rfl
    exact no_frames_of_wide sides_changedByte rfl rfl found (by decide) 1
  · exact not_accepted_of_far (getElem?_numberedFiles (Nat.lt_succ_self (2 ^ 32))) rfl le_rfl
      none false ⟨1, 1⟩

end Agreement

end Duet.Detail
