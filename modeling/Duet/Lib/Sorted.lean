import Mathlib.Data.List.Basic
import Mathlib.Data.List.Nodup
import Mathlib.Data.List.Pairwise
import Mathlib.Order.Basic
import Mathlib.Order.Defs.LinearOrder
import Mathlib.Order.WithBot

/-!
# Lists sorted by a key

A list that is strictly sorted by a key is a finite map written in order. This
module reads such a list through `lookup`: two sorted lists with the same
lookups are equal (`SortedBy.ext`), the two-way merge `matchSorted` pairs the
lookups of its arguments, and `overlay` overrides a list by sorted updates.
-/

namespace Duet.Lib

universe u v w

variable {α : Type u} {β : Type v} {κ : Type w} [LinearOrder κ]

/-- Strictly increasing keys. -/
def SortedBy (key : α → κ) (l : List α) : Prop :=
  l.Pairwise fun a b => key a < key b

/-- The element of a list that has the given key. -/
def lookup (key : α → κ) (k : κ) (l : List α) : Option α :=
  l.find? fun a => key a = k

instance (key : α → κ) (l : List α) : Decidable (SortedBy key l) :=
  inferInstanceAs (Decidable (l.Pairwise fun a b => key a < key b))

/-! ## Lookups -/

section Lookup

variable {key : α → κ} {k : κ} {a : α} {l : List α}

@[simp] theorem lookup_nil : lookup key k [] = none := rfl

theorem lookup_cons :
    lookup key k (a :: l) = if key a = k then some a else lookup key k l := by
  unfold lookup
  by_cases h : key a = k <;> simp [h]

@[simp] theorem lookup_cons_self : lookup key (key a) (a :: l) = some a := by
  simp [lookup_cons]

theorem lookup_cons_of_ne (h : key a ≠ k) :
    lookup key k (a :: l) = lookup key k l := by
  simp [lookup_cons, h]

theorem mem_of_lookup (h : lookup key k l = some a) : a ∈ l :=
  List.mem_of_find?_eq_some h

theorem key_of_lookup (h : lookup key k l = some a) : key a = k := by
  simpa using List.find?_some h

theorem lookup_eq_none_iff : lookup key k l = none ↔ ∀ a ∈ l, key a ≠ k := by
  simp [lookup, List.find?_eq_none]

theorem lookup_isSome_iff : (lookup key k l).isSome ↔ ∃ a ∈ l, key a = k := by
  simp [lookup, List.find?_isSome]

/-- Every element that a lookup could return lies above `k`. -/
theorem lookup_eq_none_of_lt (h : ∀ a ∈ l, k < key a) : lookup key k l = none :=
  lookup_eq_none_iff.mpr fun a mem => (h a mem).ne'

end Lookup

/-! ## Sorted lists -/

section SortedLists

variable {key : α → κ} {k : κ} {a : α} {l l' : List α}

@[simp] theorem SortedBy.nil : SortedBy key [] := List.Pairwise.nil

theorem sortedBy_cons : SortedBy key (a :: l) ↔ (∀ b ∈ l, key a < key b) ∧ SortedBy key l :=
  List.pairwise_cons

theorem SortedBy.tail (h : SortedBy key (a :: l)) : SortedBy key l :=
  (sortedBy_cons.mp h).2

theorem SortedBy.head_lt (h : SortedBy key (a :: l)) : ∀ b ∈ l, key a < key b :=
  (sortedBy_cons.mp h).1

theorem SortedBy.sublist (h : SortedBy key l) (sub : l'.Sublist l) : SortedBy key l' :=
  List.Pairwise.sublist sub h

/-- In a sorted list a key is found at exactly its element. -/
theorem SortedBy.lookup_eq_some (h : SortedBy key l) :
    lookup key k l = some a ↔ a ∈ l ∧ key a = k := by
  constructor
  · intro found
    exact ⟨mem_of_lookup found, key_of_lookup found⟩
  · rintro ⟨mem, rfl⟩
    induction l with
    | nil => cases mem
    | cons b l ih =>
      rcases List.mem_cons.mp mem with rfl | mem
      · exact lookup_cons_self
      · rw [lookup_cons_of_ne (h.head_lt a mem).ne]
        exact ih h.tail mem

theorem SortedBy.lookup_of_mem (h : SortedBy key l) (mem : a ∈ l) :
    lookup key (key a) l = some a :=
  h.lookup_eq_some.mpr ⟨mem, rfl⟩

/-- A sorted list is determined by its lookups. -/
theorem SortedBy.ext (h : SortedBy key l) (h' : SortedBy key l')
    (same : ∀ k, lookup key k l = lookup key k l') : l = l' := by
  have mem : ∀ a, a ∈ l ↔ a ∈ l' := by
    intro a
    have here := h.lookup_eq_some (k := key a) (a := a)
    have there := h'.lookup_eq_some (k := key a) (a := a)
    rw [same, there] at here
    simpa using here.symm
  have irrefl : ∀ {m : List α}, SortedBy key m → m.Nodup := by
    intro m hm
    exact List.Pairwise.imp (fun hlt heq => (heq ▸ hlt).false) hm
  have perm : l.Perm l' :=
    (List.perm_ext_iff_of_nodup (irrefl h) (irrefl h')).mpr mem
  exact List.Perm.eq_of_pairwise
    (fun a b _ _ hab hba => (hab.trans hba).false.elim) h h' perm

/-- Filtering a sorted list filters its lookups. -/
theorem SortedBy.lookup_filter (h : SortedBy key l) (p : α → Bool) :
    lookup key k (l.filter p) = (lookup key k l).filter p := by
  have sorted : SortedBy key (l.filter p) := h.sublist List.filter_sublist
  apply Option.ext
  intro a
  simp only [sorted.lookup_eq_some, Option.filter_eq_some_iff, h.lookup_eq_some, List.mem_filter]
  tauto

/-- A key-preserving partial map of a sorted list maps its lookups. -/
theorem SortedBy.lookup_filterMap {key' : β → κ} {f : α → Option β} (h : SortedBy key l)
    (keyed : ∀ a ∈ l, ∀ b, f a = some b → key' b = key a) :
    lookup key' k (l.filterMap f) = (lookup key k l).bind f := by
  induction l with
  | nil => rfl
  | cons a l ih =>
    have tail := ih h.tail fun b mem => keyed b (List.mem_cons_of_mem a mem)
    have keyed := keyed a List.mem_cons_self
    by_cases here : key a = k
    · subst here
      rw [lookup_cons_self, Option.bind_some]
      cases image : f a with
      | none =>
        rw [List.filterMap_cons_none image, tail, lookup_eq_none_of_lt h.head_lt]
        rfl
      | some b =>
        rw [List.filterMap_cons_some image, ← keyed b image, lookup_cons_self]
    · rw [lookup_cons_of_ne here]
      cases image : f a with
      | none => rw [List.filterMap_cons_none image, tail]
      | some b =>
        rw [List.filterMap_cons_some image, lookup_cons_of_ne, tail]
        rwa [keyed b image]

theorem SortedBy.filterMap {key' : β → κ} {f : α → Option β} (h : SortedBy key l)
    (keyed : ∀ a ∈ l, ∀ b, f a = some b → key' b = key a) : SortedBy key' (l.filterMap f) := by
  induction l with
  | nil => exact SortedBy.nil
  | cons a l ih =>
    have rest : ∀ b ∈ l, ∀ c, f b = some c → key' c = key b :=
      fun b mem => keyed b (List.mem_cons_of_mem a mem)
    cases image : f a with
    | none =>
      rw [List.filterMap_cons_none image]
      exact ih h.tail rest
    | some b =>
      rw [List.filterMap_cons_some image, sortedBy_cons]
      refine ⟨?_, ih h.tail rest⟩
      intro c mem
      obtain ⟨d, dMem, dImage⟩ := List.mem_filterMap.mp mem
      rw [keyed a List.mem_cons_self b image, rest d dMem c dImage]
      exact h.head_lt d dMem

theorem SortedBy.map {key' : β → κ} {f : α → β} (h : SortedBy key l)
    (keyed : ∀ a ∈ l, key' (f a) = key a) : SortedBy key' (l.map f) := by
  rw [← List.filterMap_eq_map]
  refine h.filterMap ?_
  rintro a mem - ⟨⟩
  exact keyed a mem

theorem SortedBy.lookup_map {key' : β → κ} {f : α → β} (h : SortedBy key l)
    (keyed : ∀ a ∈ l, key' (f a) = key a) :
    lookup key' k (l.map f) = (lookup key k l).map f := by
  have maps : lookup key' k (l.filterMap (some ∘ f)) = (lookup key k l).bind (some ∘ f) :=
    h.lookup_filterMap (by rintro a mem - ⟨⟩; exact keyed a mem)
  rw [List.filterMap_eq_map] at maps
  rw [maps]
  cases lookup key k l <;> rfl

/-- Keys read through a projection are the keys of the projected list. -/
theorem sortedBy_comp {g : β → α} {m : List β} :
    SortedBy (fun b => key (g b)) m ↔ SortedBy key (m.map g) := by
  simp only [SortedBy, List.pairwise_map]

theorem lookup_comp {g : β → α} {m : List β} :
    (lookup (fun b => key (g b)) k m).map g = lookup key k (m.map g) := by
  rw [lookup, lookup, List.find?_map]
  rfl

/-- An appended list is searched after the first one. -/
theorem lookup_append : lookup key k (l ++ l') = (lookup key k l).or (lookup key k l') := by
  simp [lookup, List.find?_append]

theorem SortedBy.append (h : SortedBy key l) (h' : SortedBy key l')
    (below : ∀ a ∈ l, ∀ b ∈ l', key a < key b) : SortedBy key (l ++ l') :=
  List.pairwise_append.mpr ⟨h, h', below⟩

theorem SortedBy.nodup_keys (h : SortedBy key l) : (l.map key).Nodup :=
  List.pairwise_map.mpr (List.Pairwise.imp (fun below => below.ne) h)

/-- Sorting a list with distinct keys. -/
theorem sortedBy_mergeSort (nodup : (l.map key).Nodup) :
    SortedBy key (l.mergeSort fun a b => key a ≤ key b) := by
  have sorted : (l.mergeSort fun a b => key a ≤ key b).Pairwise fun a b => key a ≤ key b := by
    have ordered := @List.pairwise_mergeSort _ (fun a b => decide (key a ≤ key b))
      (by simpa using fun a b c => le_trans) (by simpa using fun a b => le_total (key a) (key b)) l
    simpa using ordered
  have distinct : (l.mergeSort fun a b => key a ≤ key b).Pairwise fun a b => key a ≠ key b :=
    List.pairwise_map.mp (((List.mergeSort_perm l _).map key).nodup_iff.mpr nodup)
  exact (sorted.and distinct).imp fun both => lt_of_le_of_ne both.1 both.2

/-- Lists with the same elements and distinct keys have the same lookups. -/
theorem lookup_of_perm (perm : l.Perm l') (nodup : (l.map key).Nodup) :
    lookup key k l = lookup key k l' := by
  apply Option.ext
  intro a
  have unique : ∀ {m : List α}, (m.map key).Nodup → (lookup key k m = some a ↔ a ∈ m ∧ key a = k) := by
    intro m distinct
    constructor
    · intro found
      exact ⟨mem_of_lookup found, key_of_lookup found⟩
    · rintro ⟨mem, rfl⟩
      obtain ⟨b, found⟩ : ∃ b, lookup key (key a) m = some b :=
        Option.isSome_iff_exists.mp (lookup_isSome_iff.mpr ⟨a, mem, rfl⟩)
      rw [found, List.inj_on_of_nodup_map distinct (mem_of_lookup found) mem (key_of_lookup found)]
  rw [unique nodup, unique ((perm.map key).nodup_iff.mp nodup), perm.mem_iff]

end SortedLists

/-! ## The two-way merge -/

section MatchSorted

variable {key : α → κ} {k : κ}

/-- The merge of a first list that starts with `x` and continues with `rest`. -/
def matchAgainst (key : α → κ) (x : α) (rest : List α → List (Option α × Option α)) :
    List α → List (Option α × Option α)
  | [] => (some x, none) :: rest []
  | y :: ys =>
    if key x < key y then (some x, none) :: rest (y :: ys)
    else if key y < key x then (none, some y) :: matchAgainst key x rest ys
    else (some x, some y) :: rest ys

/-- Pair the elements of two sorted lists that have the same key. -/
def matchSorted (key : α → κ) : List α → List α → List (Option α × Option α)
  | [], ys => ys.map fun y => (none, some y)
  | x :: xs, ys => matchAgainst key x (matchSorted key xs) ys

/-- The key of a matched pair. -/
def pairKey (key : α → κ) : Option α × Option α → WithBot κ
  | (some x, _) => key x
  | (none, some y) => key y
  | (none, none) => ⊥

/-- Two components of one matched pair, absent only together. -/
def pairOf : Option α → Option α → Option (Option α × Option α)
  | none, none => none
  | x, y => some (x, y)

theorem lookup_coe {l : List α} :
    lookup (fun a => (key a : WithBot κ)) (k : WithBot κ) l = lookup key k l := by
  simp [lookup]

theorem sortedBy_coe {l : List α} :
    SortedBy (fun a => (key a : WithBot κ)) l ↔ SortedBy key l := by
  simp [SortedBy]

theorem mem_of_mem_matchAgainst {x : α} {xs : List α}
    {rest : List α → List (Option α × Option α)} {a b : Option α}
    (restMem : ∀ ys, (a, b) ∈ rest ys → (∀ c ∈ a, c ∈ xs) ∧ ∀ c ∈ b, c ∈ ys) {ys : List α}
    (mem : (a, b) ∈ matchAgainst key x rest ys) : (∀ c ∈ a, c ∈ x :: xs) ∧ ∀ c ∈ b, c ∈ ys := by
  induction ys with
  | nil =>
    rcases List.mem_cons.mp mem with here | later
    · cases here
      exact ⟨by simp, by simp⟩
    · obtain ⟨left, right⟩ := restMem [] later
      exact ⟨fun c inside => List.mem_cons_of_mem x (left c inside), right⟩
  | cons y ys ih =>
    unfold matchAgainst at mem
    split at mem
    · rcases List.mem_cons.mp mem with here | later
      · cases here
        exact ⟨by simp, by simp⟩
      · obtain ⟨left, right⟩ := restMem _ later
        exact ⟨fun c inside => List.mem_cons_of_mem x (left c inside), right⟩
    · split at mem
      · rcases List.mem_cons.mp mem with here | later
        · cases here
          exact ⟨by simp, by simp⟩
        · obtain ⟨left, right⟩ := ih later
          exact ⟨left, fun c inside => List.mem_cons_of_mem y (right c inside)⟩
      · rcases List.mem_cons.mp mem with here | later
        · cases here
          exact ⟨by simp, by simp⟩
        · obtain ⟨left, right⟩ := restMem _ later
          exact ⟨fun c inside => List.mem_cons_of_mem x (left c inside),
            fun c inside => List.mem_cons_of_mem y (right c inside)⟩

/-- A matched pair is made of elements of the two lists, sorted or not. -/
theorem mem_of_mem_matchSorted {xs ys : List α} {a b : Option α}
    (mem : (a, b) ∈ matchSorted key xs ys) : (∀ c ∈ a, c ∈ xs) ∧ ∀ c ∈ b, c ∈ ys := by
  induction xs generalizing ys with
  | nil =>
    obtain ⟨y, inside, here⟩ := List.mem_map.mp mem
    cases here
    exact ⟨by simp, by simpa using inside⟩
  | cons x xs ih => exact mem_of_mem_matchAgainst (fun _ => ih) mem

/-- What the merge is: sorted pairs, each pairing the lookups of its key. -/
structure IsMatch (key : α → κ) (xs ys : List α) (pairs : List (Option α × Option α)) : Prop where
  sorted : SortedBy (pairKey key) pairs
  lookup_eq : ∀ k : κ, lookup (pairKey key) k pairs = pairOf (lookup key k xs) (lookup key k ys)

/-- Every pair of a match has a key of one of the two lists. -/
theorem IsMatch.lt_of_forall_lt {xs ys : List α} {pairs : List (Option α × Option α)} {k : κ}
    (h : IsMatch key xs ys pairs) (nonBot : ∀ p ∈ pairs, pairKey key p ≠ ⊥)
    (left : ∀ a ∈ xs, k < key a) (right : ∀ a ∈ ys, k < key a) :
    ∀ p ∈ pairs, (k : WithBot κ) < pairKey key p := by
  intro p mem
  obtain ⟨j, hj⟩ := WithBot.ne_bot_iff_exists.mp (nonBot p mem)
  have found := h.sorted.lookup_of_mem mem
  rw [← hj, h.lookup_eq j] at found
  rw [← hj, WithBot.coe_lt_coe]
  cases fx : lookup key j xs with
  | some a =>
    rw [← key_of_lookup fx]
    exact left a (mem_of_lookup fx)
  | none =>
    cases fy : lookup key j ys with
    | some a =>
      rw [← key_of_lookup fy]
      exact right a (mem_of_lookup fy)
    | none =>
      rw [fx, fy] at found
      cases found

/-- One matched pair followed by a match of what lies above its key. -/
theorem IsMatch.cons {xs ys : List α} {pairs : List (Option α × Option α)} {j : κ}
    {x y : Option α} (h : IsMatch key xs ys pairs) (nonBot : ∀ p ∈ pairs, pairKey key p ≠ ⊥)
    (left : ∀ a ∈ xs, j < key a) (right : ∀ a ∈ ys, j < key a)
    (pair : pairKey key (x, y) = j) (xKey : ∀ a ∈ x, key a = j) (yKey : ∀ a ∈ y, key a = j) :
    IsMatch key (x.toList ++ xs) (y.toList ++ ys) ((x, y) :: pairs) := by
  have above := h.lt_of_forall_lt nonBot left right
  constructor
  · rw [sortedBy_cons, pair]
    exact ⟨above, h.sorted⟩
  · intro k
    have side : ∀ (z : Option α) (zs : List α), (∀ a ∈ z, key a = j) → (∀ a ∈ zs, j < key a) →
        lookup key k (z.toList ++ zs) = if j = k then z else lookup key k zs := by
      intro z zs zKey zsKey
      cases z with
      | none =>
        by_cases here : j = k
        · subst here
          simpa using lookup_eq_none_of_lt zsKey
        · simp [here]
      | some a =>
        have : key a = j := zKey a rfl
        simp [lookup_cons, this]
    rw [side x xs xKey left, side y ys yKey right, lookup_cons, pair, h.lookup_eq]
    by_cases here : j = k
    · subst here
      have : pairOf x y = some (x, y) := by
        cases x <;> cases y <;> first | rfl | cases pair
      simp [this]
    · simp [here]

theorem matchAgainst_ne_bot {x : α} {rest : List α → List (Option α × Option α)}
    (nonBot : ∀ ys, ∀ p ∈ rest ys, pairKey key p ≠ ⊥) (ys : List α) :
    ∀ p ∈ matchAgainst key x rest ys, pairKey key p ≠ ⊥ := by
  induction ys with
  | nil => simpa [matchAgainst, pairKey] using nonBot []
  | cons y ys ih =>
    unfold matchAgainst
    split
    · simpa [pairKey] using nonBot (y :: ys)
    · split
      · simpa [pairKey] using ih
      · simpa [pairKey] using nonBot ys

/-- No pair of the merge is empty. -/
theorem matchSorted_ne_bot (xs ys : List α) :
    ∀ p ∈ matchSorted key xs ys, pairKey key p ≠ ⊥ := by
  induction xs generalizing ys with
  | nil => simp [matchSorted, pairKey]
  | cons x xs ih => exact matchAgainst_ne_bot ih ys

theorem matchAgainst_isMatch {x : α} {xs : List α}
    {rest : List α → List (Option α × Option α)} (sortedX : SortedBy key (x :: xs))
    (nonBot : ∀ ys, ∀ p ∈ rest ys, pairKey key p ≠ ⊥)
    (ih : ∀ ys, SortedBy key ys → IsMatch key xs ys (rest ys)) {ys : List α}
    (sortedY : SortedBy key ys) :
    IsMatch key (x :: xs) ys (matchAgainst key x rest ys) := by
  induction ys with
  | nil =>
    exact IsMatch.cons (x := some x) (y := none) (ih [] SortedBy.nil) (nonBot [])
      sortedX.head_lt (by simp) rfl (by simp) (by simp)
  | cons y ys ihY =>
    unfold matchAgainst
    split
    · next hlt =>
      have above : ∀ a ∈ y :: ys, key x < key a := by
        intro a mem
        rcases List.mem_cons.mp mem with rfl | mem
        · exact hlt
        · exact hlt.trans (sortedY.head_lt a mem)
      exact IsMatch.cons (x := some x) (y := none) (ih (y :: ys) sortedY) (nonBot _)
        sortedX.head_lt above rfl (by simp) (by simp)
    · split
      · next hlt =>
        have above : ∀ a ∈ x :: xs, key y < key a := by
          intro a mem
          rcases List.mem_cons.mp mem with rfl | mem
          · exact hlt
          · exact hlt.trans (sortedX.head_lt a mem)
        exact IsMatch.cons (x := none) (y := some y) (ihY sortedY.tail)
          (matchAgainst_ne_bot nonBot ys) above sortedY.head_lt rfl (by simp) (by simp)
      · next hx hy =>
        have same : key y = key x := le_antisymm (not_lt.mp hx) (not_lt.mp hy)
        exact IsMatch.cons (x := some x) (y := some y) (ih ys sortedY.tail) (nonBot _)
          sortedX.head_lt (same ▸ sortedY.head_lt) rfl (by simp) (by simpa using same)

/-- The merge of two sorted lists is their match. -/
theorem matchSorted_isMatch {xs ys : List α} (sortedX : SortedBy key xs)
    (sortedY : SortedBy key ys) : IsMatch key xs ys (matchSorted key xs ys) := by
  induction xs generalizing ys with
  | nil =>
    constructor
    · exact (sortedBy_coe.mpr sortedY).map fun y _ => rfl
    · intro k
      have onlyRight : lookup (pairKey key) k (ys.map fun y => (none, some y)) =
          (lookup (fun y => (key y : WithBot κ)) k ys).map fun y => (none, some y) :=
        (sortedBy_coe.mpr sortedY).lookup_map fun y _ => rfl
      simp only [matchSorted, onlyRight, lookup_coe, lookup_nil]
      cases lookup key k ys <;> rfl
  | cons x xs ih =>
    exact matchAgainst_isMatch sortedX (matchSorted_ne_bot xs)
      (fun ys sorted => ih sortedX.tail sorted) sortedY

/-- Both components of a matched pair have its key. -/
theorem key_of_mem_matchSorted {xs ys : List α} (sortedX : SortedBy key xs)
    (sortedY : SortedBy key ys) {x y : α} (mem : (some x, some y) ∈ matchSorted key xs ys) :
    key x = key y := by
  have isMatch := matchSorted_isMatch sortedX sortedY
  have found := isMatch.sorted.lookup_of_mem mem
  change lookup (pairKey key) (key x : WithBot κ) _ = _ at found
  rw [isMatch.lookup_eq] at found
  cases fy : lookup key (key x) ys with
  | none =>
    rw [fy] at found
    cases fx : lookup key (key x) xs <;> rw [fx] at found <;> cases found
  | some y' =>
    rw [fy] at found
    cases fx : lookup key (key x) xs <;> rw [fx] at found <;> cases found
    exact (key_of_lookup fy).symm

section MatchMap

variable {key' : β → κ} {f : Option α × Option α → Option β} {xs ys : List α}

/-- A map of the merge is sorted when its values carry the keys of their pairs. -/
theorem sortedBy_filterMap_matchSorted (sortedX : SortedBy key xs) (sortedY : SortedBy key ys)
    (keyed : ∀ p ∈ matchSorted key xs ys, ∀ b, f p = some b →
      (key' b : WithBot κ) = pairKey key p) :
    SortedBy key' ((matchSorted key xs ys).filterMap f) :=
  sortedBy_coe.mp ((matchSorted_isMatch sortedX sortedY).sorted.filterMap keyed)

/-- A map of the merge reads the two lists at one key. -/
theorem lookup_filterMap_matchSorted (sortedX : SortedBy key xs) (sortedY : SortedBy key ys)
    (keyed : ∀ p ∈ matchSorted key xs ys, ∀ b, f p = some b →
      (key' b : WithBot κ) = pairKey key p)
    (empty : f (none, none) = none) :
    lookup key' k ((matchSorted key xs ys).filterMap f) =
      f (lookup key k xs, lookup key k ys) := by
  have isMatch := matchSorted_isMatch sortedX sortedY
  rw [← lookup_coe, isMatch.sorted.lookup_filterMap keyed, isMatch.lookup_eq]
  cases lookup key k xs <;> cases lookup key k ys <;> simp [pairOf, empty]

end MatchMap

end MatchSorted

end Duet.Lib
