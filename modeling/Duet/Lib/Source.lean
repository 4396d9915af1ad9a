import Duet.Lib.Effect
import Mathlib.Data.List.Basic
import Mathlib.Data.List.Forall2
import Mathlib.Order.Lattice

/-!
# Sources that are read in batches

A source yields items one at a time until it is exhausted or fails; an item can be put
back. A batch takes items while there is room, and puts the first one back that is too
much. Read in batches of whatever sizes, a source yields the same items as one at a time.
-/

namespace Duet.Lib

/-- Where items come from. An item that was put back comes next and leaves the source as it
was; an exhausted source stays exhausted. -/
structure Source (ε σ α : Type) where
  next : Effect ε σ (Option α)
  unread : α → σ → σ
  next_unread : ∀ a s, next (unread a s) = (.ok (some a), s)
  stays : ∀ s t, next s = (.ok none, t) → next t = (.ok none, t)

namespace Source

variable {ε σ α : Type} (source : Source ε σ α) (size : α → Nat)

/-- From a state the source yields these items, and then ends or fails. -/
inductive Delivers : σ → List α → Option ε → Prop where
  | exhausted {s t : σ} (next : source.next s = (.ok none, t)) : Delivers s [] none
  | fails {s t : σ} {e : ε} (next : source.next s = (.error e, t)) : Delivers s [] (some e)
  | yields {s t : σ} {a : α} {items : List α} {ending : Option ε}
      (next : source.next s = (.ok (some a), t)) (rest : Delivers t items ending) :
      Delivers s (a :: items) ending

/-- End a batch before an item. -/
def putBack (a : α) (items : List α) : Effect ε σ (List α) := do
  let s ← Effect.read
  Effect.write (source.unread a s)
  pure items

/-- Take items while there is room for them. -/
def batchFrom (maxSize : Nat) : Nat → List α → Nat → Effect ε σ (List α)
  | 0, items, _ => pure items
  | room + 1, items, taken => do
    match ← source.next with
    | none => pure items
    | some a =>
      if !items.isEmpty && decide (maxSize < taken + size a) then source.putBack a items
      else batchFrom maxSize room (items ++ [a]) (taken + size a)

/-- A batch of at most so many items and so large a size. -/
def batch (limits : Nat × Nat) : Effect ε σ (List α) :=
  source.batchFrom size limits.2 limits.1 [] 0

def batches : List (Nat × Nat) → Effect ε σ (List (List α))
  | [] => pure []
  | limits :: later => do
    let first ← source.batch size limits
    let rest ← batches later
    pure (first :: rest)

/-- The size of items together. -/
def total : List α → Nat
  | [] => 0
  | a :: items => size a + total items

theorem total_append_singleton (items : List α) (a : α) :
    total size (items ++ [a]) = total size items + size a := by
  induction items with
  | nil => exact (Nat.zero_add _).symm
  | cons b items ih => rw [List.cons_append, total, ih, total, Nat.add_assoc]

/-- A batch keeps to its limits, but for a single item of any size. -/
def Within (limits : Nat × Nat) (items : List α) : Prop :=
  items.length ≤ limits.1 ∧ (items.length ≤ 1 ∨ total size items ≤ limits.2)

section Delivers

variable {source size} {s t : σ} {items front : List α} {ending : Option ε}

theorem Delivers.unread (delivers : source.Delivers s items ending) (a : α) :
    source.Delivers (source.unread a s) (a :: items) ending :=
  .yields (source.next_unread a s) delivers

/-- What a batch does, with the items it has already. -/
theorem Delivers.ends_batchFrom {maxItems maxSize room size' : Nat}
    (delivers : source.Delivers s items ending) (space : front.length + room ≤ maxItems)
    (sum : total size front = size') (within : front.length ≤ 1 ∨ size' ≤ maxSize) :
    (source.batchFrom size maxSize room front size').Ends
      (fun taken t => ∃ more rest, taken = front ++ more ∧ items = more ++ rest ∧
        source.Delivers t rest ending ∧ Within size (maxItems, maxSize) taken ∧
        (taken = [] → 0 < room → rest = [] ∧ ending = none))
      (fun e _ => ending = some e) s := by
  induction room generalizing s items front size' with
  | zero =>
    refine ⟨[], items, (List.append_nil _).symm, rfl, delivers, ⟨space, ?_⟩, ?_⟩
    · rw [sum]
      exact within
    · exact fun _ absurd => (Nat.lt_irrefl 0 absurd).elim
  | succ room ih =>
    have kept : Within size (maxItems, maxSize) front := by
      refine ⟨by dsimp only; omega, ?_⟩
      rw [sum]
      exact within
    unfold batchFrom
    rw [Effect.ends_bind]
    cases delivers with
    | exhausted next =>
      rw [Effect.ends_ok next]
      refine ⟨[], [], (List.append_nil _).symm, rfl, ?_, kept, fun _ _ => ⟨rfl, rfl⟩⟩
      exact .exhausted (source.stays _ _ next)
    | fails next =>
      rw [Effect.ends_error next]
    | @yields _ t a later _ next rest =>
      rw [Effect.ends_ok next]
      dsimp only
      by_cases full : (!front.isEmpty && decide (maxSize < size' + size a)) = true
      · rw [if_pos full, putBack, Effect.ends_bind, Effect.ends_read, Effect.ends_bind,
          Effect.ends_write, Effect.ends_pure]
        refine ⟨[], a :: later, (List.append_nil _).symm, rfl, rest.unread a, kept, ?_⟩
        intro empty
        rw [empty] at full
        cases full
      · rw [if_neg full]
        have longer : (front ++ [a]).length = front.length + 1 := List.length_append
        have within' : (front ++ [a]).length ≤ 1 ∨ size' + size a ≤ maxSize := by
          by_cases empty : front = []
          · exact Or.inl (by rw [empty]; exact le_rfl)
          · refine Or.inr (not_lt.mp fun exceeds => full ?_)
            simp [empty, exceeds]
        have sum' : total size (front ++ [a]) = size' + size a := by
          rw [total_append_singleton, sum]
        refine (ih rest (by omega) sum' within').mono ?_ fun _ _ => id
        rintro taken t ⟨more, rest', rfl, rfl, delivers', within'', -⟩
        refine ⟨a :: more, rest', by simp, rfl, delivers', within'', ?_⟩
        intro empty
        simp at empty

/-- A batch takes the first items, and is empty only at the end. -/
theorem Delivers.ends_batch (delivers : source.Delivers s items ending) (limits : Nat × Nat)
    (some_ : 0 < limits.1) :
    (source.batch size limits).Ends
      (fun taken t => ∃ rest, items = taken ++ rest ∧ source.Delivers t rest ending ∧
        Within size limits taken ∧ (taken = [] → rest = [] ∧ ending = none))
      (fun e _ => ending = some e) s := by
  have start : ([] : List α).length + limits.1 ≤ limits.1 := by simp
  refine (delivers.ends_batchFrom start rfl (Or.inl (Nat.zero_le 1))).mono ?_ fun _ _ => id
  rintro taken t ⟨more, rest, rfl, eq, delivers', within, atEnd⟩
  exact ⟨rest, eq, delivers', within, fun empty => atEnd empty some_⟩

/-- Batches in a row are the items in a row. -/
theorem Delivers.ends_batches (delivers : source.Delivers s items ending)
    (limits : List (Nat × Nat)) (some_ : ∀ limit ∈ limits, 0 < limit.1) :
    (source.batches size limits).Ends
      (fun taken t => ∃ rest, items = taken.flatten ++ rest ∧ source.Delivers t rest ending ∧
        List.Forall₂ (Within size) limits taken ∧
        ([] ∈ taken → rest = [] ∧ ending = none) ∧
        (items.length < limits.length → rest = [] ∧ ending = none))
      (fun e _ => ending = some e) s := by
  induction limits generalizing s items with
  | nil => exact ⟨items, rfl, delivers, .nil, nofun, fun absurd => (Nat.not_lt_zero _ absurd).elim⟩
  | cons limit limits ih =>
    unfold batches
    rw [Effect.ends_bind]
    refine (delivers.ends_batch limit (some_ limit List.mem_cons_self)).mono ?_ fun _ _ => id
    rintro first t ⟨rest, rfl, delivers', within, atEnd⟩
    rw [Effect.ends_bind]
    refine (ih delivers' fun later mem => some_ later (.tail _ mem)).mono ?_ fun _ _ => id
    rintro taken u ⟨rest', rfl, delivers'', all, atEnd', enough⟩
    refine ⟨rest', by simp, delivers'', .cons within all, ?_, ?_⟩
    · intro mem
      rcases List.mem_cons.mp mem with empty | mem
      · obtain ⟨nothing, ends⟩ := atEnd empty.symm
        exact ⟨(List.append_eq_nil_iff.mp nothing).2, ends⟩
      · exact atEnd' mem
    · intro more
      by_cases empty : first = []
      · obtain ⟨nothing, ends⟩ := atEnd empty
        exact ⟨(List.append_eq_nil_iff.mp nothing).2, ends⟩
      · have := List.length_pos_of_ne_nil empty
        refine enough ?_
        rw [List.length_append, List.length_cons] at more
        omega

end Delivers

end Source

end Duet.Lib
