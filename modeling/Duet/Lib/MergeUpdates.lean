import Duet.Lib.Fallible
import Mathlib.Data.List.TakeWhile

/-!
# Merging sorted updates into a sorted list

`mergeUpdatesM` walks a sorted list and a sorted list of updates together. It
copies every element below the next update, hands the element with the
update's key (if there is one) to the update, and keeps what the update returns.
The update may fail; `mergeUpdates` is the total form, whose lookups are those of
the list with every updated key replaced (`lookup_mergeUpdates`).
-/

namespace Duet.Lib

universe u v w x

variable {α : Type u} {υ : Type v} {κ : Type w} [LinearOrder κ]

/-- Split off the head of a list when it has key `k`. -/
def takeMatch (key : α → κ) (k : κ) : List α → Option α × List α
  | [] => (none, [])
  | a :: l => if key a = k then (some a, l) else (none, a :: l)

/-- Merge updates that may fail. -/
def mergeUpdatesM {m : Type u → Type x} [Monad m] (key : α → κ) (ukey : υ → κ)
    (update : υ → Option α → m (Option α)) : List α → List υ → m (List α)
  | old, [] => pure old
  | old, u :: us => do
    let kept := old.takeWhile fun a => key a < ukey u
    let (matched, rest) := takeMatch key (ukey u) (old.dropWhile fun a => key a < ukey u)
    let out ← update u matched
    let merged ← mergeUpdatesM key ukey update rest us
    pure (kept ++ out.toList ++ merged)

/-- Merge updates that do not fail. -/
def mergeUpdates (key : α → κ) (ukey : υ → κ) (update : υ → Option α → Option α) :
    List α → List υ → List α
  | old, [] => old
  | old, u :: us =>
    let below := old.takeWhile fun a => key a < ukey u
    let split := takeMatch key (ukey u) (old.dropWhile fun a => key a < ukey u)
    below ++ (update u split.1).toList ++ mergeUpdates key ukey update split.2 us

section Split

variable {key : α → κ} {k j : κ} {l : List α}

/-- The elements below `j` are searched for keys below `j`. -/
theorem lookup_takeWhile_lt (h : SortedBy key l) :
    lookup key k (l.takeWhile fun a => key a < j) = if k < j then lookup key k l else none := by
  induction l with
  | nil => simp
  | cons a l ih =>
    have tail := ih h.tail
    by_cases below : key a < j
    · rw [List.takeWhile_cons_of_pos (by simpa using below)]
      by_cases here : key a = k
      · subst here
        simp [below]
      · rw [lookup_cons_of_ne here, lookup_cons_of_ne here, tail]
    · rw [List.takeWhile_cons_of_neg (by simpa using below)]
      split
      · next hlt =>
        have above : ∀ b ∈ a :: l, k < key b := by
          intro b mem
          rcases List.mem_cons.mp mem with rfl | mem
          · exact hlt.trans_le (not_lt.mp below)
          · exact (hlt.trans_le (not_lt.mp below)).trans (h.head_lt b mem)
        exact (lookup_eq_none_of_lt above).symm
      · rfl

/-- The elements from `j` on are searched for keys from `j` on. -/
theorem lookup_dropWhile_lt (h : SortedBy key l) :
    lookup key k (l.dropWhile fun a => key a < j) = if k < j then none else lookup key k l := by
  induction l with
  | nil => simp
  | cons a l ih =>
    have tail := ih h.tail
    by_cases below : key a < j
    · rw [List.dropWhile_cons_of_pos (by simpa using below), tail]
      split
      · rfl
      · next hle =>
        rw [lookup_cons_of_ne]
        rintro rfl
        exact hle below
    · rw [List.dropWhile_cons_of_neg (by simpa using below)]
      split
      · next hlt =>
        have above : ∀ b ∈ a :: l, k < key b := by
          intro b mem
          rcases List.mem_cons.mp mem with rfl | mem
          · exact hlt.trans_le (not_lt.mp below)
          · exact (hlt.trans_le (not_lt.mp below)).trans (h.head_lt b mem)
        exact lookup_eq_none_of_lt above
      · rfl

theorem le_of_mem_dropWhile_lt (h : SortedBy key l) :
    ∀ a ∈ l.dropWhile fun a => key a < j, j ≤ key a := by
  intro a mem
  by_contra below
  have sorted : SortedBy key (l.dropWhile fun a => key a < j) :=
    h.sublist (List.dropWhile_sublist _)
  have found := sorted.lookup_of_mem mem
  rw [lookup_dropWhile_lt h, if_pos (not_le.mp below)] at found
  cases found

theorem lt_of_mem_takeWhile_lt : ∀ a ∈ l.takeWhile fun a => key a < j, key a < j := by
  intro a mem
  simpa using List.mem_takeWhile_imp mem

/-- Splitting off the element of the least possible key. -/
theorem takeMatch_spec (h : SortedBy key l) (least : ∀ a ∈ l, j ≤ key a) :
    (takeMatch key j l).1 = lookup key j l ∧ SortedBy key (takeMatch key j l).2 ∧
      (∀ a ∈ (takeMatch key j l).2, j < key a) ∧
      ∀ k, j < k → lookup key k (takeMatch key j l).2 = lookup key k l := by
  cases l with
  | nil => simp [takeMatch]
  | cons a l =>
    by_cases here : key a = j
    · subst here
      rw [takeMatch, if_pos rfl]
      refine ⟨by simp, h.tail, h.head_lt, ?_⟩
      intro k hlt
      rw [lookup_cons_of_ne hlt.ne]
    · rw [takeMatch, if_neg here]
      have above : ∀ b ∈ a :: l, j < key b := by
        have head : j < key a := lt_of_le_of_ne (least a List.mem_cons_self) (Ne.symm here)
        intro b mem
        rcases List.mem_cons.mp mem with rfl | mem
        · exact head
        · exact head.trans (h.head_lt b mem)
      exact ⟨(lookup_eq_none_of_lt above).symm, h, above, fun _ _ => rfl⟩

end Split

section Merge

variable {key : α → κ} {ukey : υ → κ} {update : υ → Option α → Option α}
  {old : List α} {us : List υ} {k : κ}

/-- The updates return elements of their own key when they are handed such elements. -/
def KeepsKey (key : α → κ) (ukey : υ → κ) (update : υ → Option α → Option α)
    (us : List υ) : Prop :=
  ∀ u ∈ us, ∀ a b, (∀ c ∈ a, key c = ukey u) → update u a = some b → key b = ukey u

/-- The list after the merge at one key: an updated key holds the result of its
update, every other key what it held before. -/
theorem mergeUpdates_spec (keeps : KeepsKey key ukey update us) (sorted : SortedBy key old)
    (sortedU : SortedBy ukey us) :
    SortedBy key (mergeUpdates key ukey update old us) ∧
      ∀ k, lookup key k (mergeUpdates key ukey update old us) =
        (lookup ukey k us).elim (lookup key k old) fun u => update u (lookup key k old) := by
  induction us generalizing old with
  | nil => exact ⟨sorted, fun k => rfl⟩
  | cons u us ih =>
    have sortedDrop : SortedBy key (old.dropWhile fun a => key a < ukey u) :=
      sorted.sublist (List.dropWhile_sublist _)
    obtain ⟨matched, restSorted, restAbove, restLookup⟩ :=
      takeMatch_spec sortedDrop (le_of_mem_dropWhile_lt sorted)
    rw [lookup_dropWhile_lt sorted, if_neg (lt_irrefl _)] at matched
    obtain ⟨mergedSorted, mergedLookup⟩ :=
      ih (fun v mem => keeps v (List.mem_cons_of_mem u mem)) restSorted sortedU.tail
    have outKey : ∀ b ∈ update u (lookup key (ukey u) old), key b = ukey u :=
      fun b out => keeps u List.mem_cons_self _ b (fun c found => key_of_lookup found) out
    have mergedAbove : ∀ b ∈ mergeUpdates key ukey update
        (takeMatch key (ukey u) (old.dropWhile fun a => key a < ukey u)).2 us,
        ukey u < key b := by
      intro b mem
      have found := mergedSorted.lookup_of_mem mem
      rw [mergedLookup] at found
      cases hu : lookup ukey (key b) us with
      | some u' =>
        rw [← key_of_lookup hu]
        exact sortedU.head_lt u' (mem_of_lookup hu)
      | none =>
        rw [hu] at found
        exact restAbove b (mem_of_lookup found)
    constructor
    · simp only [mergeUpdates, matched]
      refine SortedBy.append (SortedBy.append (sorted.sublist (List.takeWhile_sublist _)) ?_ ?_)
        mergedSorted ?_
      · cases update u (lookup key (ukey u) old) <;> simp [SortedBy]
      · intro a aMem b bMem
        rw [outKey b (by simpa using bMem)]
        exact lt_of_mem_takeWhile_lt a aMem
      · intro a aMem b bMem
        refine lt_of_le_of_lt ?_ (mergedAbove b bMem)
        rcases List.mem_append.mp aMem with aMem | aMem
        · exact (lt_of_mem_takeWhile_lt a aMem).le
        · exact (outKey a (by simpa using aMem)).le
    · intro k
      simp only [mergeUpdates, matched]
      rw [lookup_append, lookup_append, lookup_takeWhile_lt sorted]
      have outLookup : lookup key k (update u (lookup key (ukey u) old)).toList =
          if ukey u = k then update u (lookup key (ukey u) old) else none := by
        cases hOut : update u (lookup key (ukey u) old) with
        | none => simp
        | some b => simp [lookup_cons, outKey b hOut]
      rw [outLookup, mergedLookup]
      rcases lt_trichotomy k (ukey u) with below | here | above
      · have notUpdated : lookup ukey k (u :: us) = none := by
          refine lookup_eq_none_of_lt ?_
          intro b mem
          rcases List.mem_cons.mp mem with rfl | mem
          · exact below
          · exact below.trans (sortedU.head_lt b mem)
        have tailNone : lookup ukey k us = none := by
          rwa [lookup_cons_of_ne below.ne'] at notUpdated
        have restNone : lookup key k
            (takeMatch key (ukey u) (old.dropWhile fun a => key a < ukey u)).2 = none :=
          lookup_eq_none_of_lt fun a mem => below.trans (restAbove a mem)
        simp [notUpdated, tailNone, restNone, below, below.ne']
      · subst here
        have tailNone : lookup ukey (ukey u) us = none :=
          lookup_eq_none_of_lt sortedU.head_lt
        have restNone : lookup key (ukey u)
            (takeMatch key (ukey u) (old.dropWhile fun a => key a < ukey u)).2 = none :=
          lookup_eq_none_of_lt restAbove
        simp [tailNone, restNone]
      · have restEq : lookup key k
            (takeMatch key (ukey u) (old.dropWhile fun a => key a < ukey u)).2 =
            lookup key k old := by
          rw [restLookup k above, lookup_dropWhile_lt sorted, if_neg above.not_gt]
        rw [lookup_cons_of_ne above.ne, restEq]
        simp [above.not_gt, above.ne]

theorem SortedBy.mergeUpdates (sorted : SortedBy key old) (sortedU : SortedBy ukey us)
    (keeps : KeepsKey key ukey update us) :
    SortedBy key (mergeUpdates key ukey update old us) :=
  (mergeUpdates_spec keeps sorted sortedU).1

theorem lookup_mergeUpdates (sorted : SortedBy key old) (sortedU : SortedBy ukey us)
    (keeps : KeepsKey key ukey update us) :
    lookup key k (Lib.mergeUpdates key ukey update old us) =
      (lookup ukey k us).elim (lookup key k old) fun u => update u (lookup key k old) :=
  (mergeUpdates_spec keeps sorted sortedU).2 k

/-- Updates that all succeed merge as total updates do. -/
theorem mergeUpdatesM_ok {ε : Type x} {updateM : υ → Option α → Except ε (Option α)}
    (ok : ∀ u ∈ us, ∀ a, updateM u a = .ok (update u a)) :
    mergeUpdatesM key ukey updateM old us = .ok (mergeUpdates key ukey update old us) := by
  induction us generalizing old with
  | nil => rfl
  | cons u us ih =>
    have here := ok u List.mem_cons_self
    have rest : ∀ old, mergeUpdatesM key ukey updateM old us =
        .ok (mergeUpdates key ukey update old us) :=
      fun _ => ih fun u mem => ok u (List.mem_cons_of_mem _ mem)
    simp only [mergeUpdatesM, here, rest, mergeUpdates]
    rfl

/-- What the parts of a split come from. -/
theorem mem_of_takeMatch {j : κ} {l : List α} {a : α} :
    (a ∈ (takeMatch key j l).1 → a ∈ l) ∧ (a ∈ (takeMatch key j l).2 → a ∈ l) := by
  cases l with
  | nil => exact ⟨by rintro ⟨⟩, id⟩
  | cons b l =>
    by_cases here : key b = j
    · rw [takeMatch, if_pos here]
      constructor
      · rintro ⟨⟩
        exact List.mem_cons_self
      · exact List.mem_cons_of_mem b
    · rw [takeMatch, if_neg here]
      exact ⟨by rintro ⟨⟩, id⟩

/-- A merge that succeeds begins with a successful update. -/
theorem mergeUpdatesM_cons_eq_ok {ε : Type x} {updateM : υ → Option α → Except ε (Option α)}
    {merged : List α} {u : υ} (ok : mergeUpdatesM key ukey updateM old (u :: us) = .ok merged) :
    ∃ out rest, let split := takeMatch key (ukey u) (old.dropWhile fun a => key a < ukey u)
      updateM u split.1 = .ok out ∧ mergeUpdatesM key ukey updateM split.2 us = .ok rest ∧
        merged = (old.takeWhile fun a => key a < ukey u) ++ out.toList ++ rest := by
  simp only [mergeUpdatesM] at ok
  obtain ⟨out, here, ok⟩ := bind_eq_ok.mp ok
  obtain ⟨rest, later, ok⟩ := bind_eq_ok.mp ok
  exact ⟨out, rest, here, later, (Except.ok.inj ok).symm⟩

/-- In a merge that succeeds every update has succeeded on some element. -/
theorem update_ok_of_mergeUpdatesM_ok {ε : Type x}
    {updateM : υ → Option α → Except ε (Option α)} {merged : List α}
    (ok : mergeUpdatesM key ukey updateM old us = .ok merged) :
    ∀ u ∈ us, ∃ a b, updateM u a = .ok b := by
  induction us generalizing old merged with
  | nil => exact fun u mem => absurd mem List.not_mem_nil
  | cons u us ih =>
    obtain ⟨out, rest, here, later, -⟩ := mergeUpdatesM_cons_eq_ok ok
    intro v mem
    rcases List.mem_cons.mp mem with rfl | mem
    · exact ⟨_, out, here⟩
    · exact ih later v mem

/-- An element of a merge was there before, or an update has made it. -/
theorem mem_of_mergeUpdatesM_ok {ε : Type x} {updateM : υ → Option α → Except ε (Option α)}
    {merged : List α} {a : α} (ok : mergeUpdatesM key ukey updateM old us = .ok merged)
    (mem : a ∈ merged) :
    a ∈ old ∨ ∃ u ∈ us, ∃ x, (∀ b ∈ x, b ∈ old) ∧ updateM u x = .ok (some a) := by
  induction us generalizing old merged with
  | nil =>
    cases ok
    exact .inl mem
  | cons u us ih =>
    obtain ⟨out, rest, here, later, rfl⟩ := mergeUpdatesM_cons_eq_ok ok
    have dropped : ∀ b ∈ old.dropWhile fun a => key a < ukey u, b ∈ old :=
      fun _ mem => (List.dropWhile_sublist _).subset mem
    rcases List.mem_append.mp mem with front | back
    · rcases List.mem_append.mp front with kept | made
      · exact .inl ((List.takeWhile_sublist _).subset kept)
      · obtain rfl : out = some a := by simpa using made
        exact .inr ⟨u, List.mem_cons_self, _, fun b found => dropped b (mem_of_takeMatch.1 found),
          here⟩
    · rcases ih later back with before | ⟨v, inside, x, found, made⟩
      · exact .inl (dropped a (mem_of_takeMatch.2 before))
      · exact .inr ⟨v, List.mem_cons_of_mem u inside, x,
          fun b isOld => dropped b (mem_of_takeMatch.2 (found b isOld)), made⟩

end Merge

end Duet.Lib
