import Duet.Lib.Sorted
import Mathlib.Data.List.Forall2
import Mathlib.Data.List.Induction

/-!
# Lists of steps that may fail

A list of steps that all succeed succeeds as a whole, with results that are related to
the arguments one by one.
-/

namespace Duet.Lib

universe u v w

variable {ε : Type u} {α : Type v} {β : Type w}

/-- Steps that succeed with results in a relation to their arguments. -/
theorem exists_mapM_ok {f : α → Except ε β} {P : α → β → Prop} {l : List α}
    (ok : ∀ a ∈ l, ∃ b, f a = .ok b ∧ P a b) :
    ∃ bs, l.mapM f = .ok bs ∧ List.Forall₂ P l bs := by
  induction l with
  | nil => exact ⟨[], rfl, .nil⟩
  | cons a l ih =>
    obtain ⟨b, here, related⟩ := ok a List.mem_cons_self
    obtain ⟨bs, rest, all⟩ := ih fun a' mem => ok a' (List.mem_cons_of_mem a mem)
    refine ⟨b :: bs, ?_, .cons related all⟩
    rw [List.mapM_cons, here, rest]
    rfl

/-- Steps that all succeed give one result for each argument. -/
theorem forall₂_of_mapM_ok {f : α → Except ε β} {l : List α} {bs : List β}
    (ok : l.mapM f = .ok bs) : List.Forall₂ (fun a b => f a = .ok b) l bs := by
  induction l generalizing bs with
  | nil =>
    cases ok
    exact .nil
  | cons a l ih =>
    rw [List.mapM_cons] at ok
    cases here : f a with
    | error e =>
      rw [here] at ok
      cases ok
    | ok b =>
      cases rest : l.mapM f with
      | error e =>
        rw [here, rest] at ok
        cases ok
      | ok bs' =>
        rw [here, rest] at ok
        cases ok
        exact .cons here (ih rest)

theorem forall₂_of_mapM_some {f : α → Option β} {l : List α} {bs : List β}
    (done : l.mapM f = some bs) : List.Forall₂ (fun a b => f a = some b) l bs := by
  induction l generalizing bs with
  | nil =>
    cases done
    exact .nil
  | cons a l ih =>
    rw [List.mapM_cons] at done
    obtain ⟨b, here, done⟩ := Option.bind_eq_some_iff.mp done
    obtain ⟨bs', rest, done⟩ := Option.bind_eq_some_iff.mp done
    cases done
    exact .cons here (ih rest)

theorem exists_of_mem_right {R : α → β → Prop} {l : List α} {bs : List β}
    (related : List.Forall₂ R l bs) {b : β} (mem : b ∈ bs) : ∃ a ∈ l, R a b := by
  induction related with
  | nil => cases mem
  | @cons a b' l bs here rest ih =>
    rcases List.mem_cons.mp mem with rfl | later
    · exact ⟨a, List.mem_cons_self, here⟩
    · obtain ⟨a', inside, related⟩ := ih later
      exact ⟨a', List.mem_cons_of_mem a inside, related⟩

theorem exists_of_mem_left {R : α → β → Prop} {l : List α} {bs : List β}
    (related : List.Forall₂ R l bs) {a : α} (mem : a ∈ l) : ∃ b ∈ bs, R a b := by
  obtain ⟨b, inside, back⟩ := exists_of_mem_right related.flip mem
  exact ⟨b, inside, back⟩

theorem rel_mono {R S : α → β → Prop} (mono : ∀ a b, R a b → S a b) {x : Option α}
    {y : Option β} (xy : Option.Rel R x y) : Option.Rel S x y := by
  cases xy with
  | none => exact .none
  | some here => exact .some (mono _ _ here)

theorem isSome_of_rel {R : α → β → Prop} {x : Option α} {y : Option β}
    (xy : Option.Rel R x y) : x.isSome = y.isSome := by
  cases xy <;> rfl

theorem exists_of_rel_some {R : α → β → Prop} {x : Option α} {b : β}
    (xy : Option.Rel R x (some b)) : ∃ a, x = some a ∧ R a b := by
  cases xy with
  | some here => exact ⟨_, rfl, here⟩

/-- Options that are related one after the other are related. -/
theorem rel_trans {γ : Type v} {R : α → β → Prop} {S : β → γ → Prop} {T : α → γ → Prop}
    (comp : ∀ a b c, R a b → S b c → T a c) {x : Option α} {y : Option β} {z : Option γ}
    (xy : Option.Rel R x y) (yz : Option.Rel S y z) : Option.Rel T x z := by
  cases xy with
  | none =>
    cases yz
    exact .none
  | some here =>
    cases yz with
    | some there => exact .some (comp _ _ _ here there)

section Sorted

universe x

variable {κ : Type x} [LinearOrder κ] {key : α → κ} {key' : β → κ} {R : α → β → Prop}
  {l : List α} {bs : List β}

/-- Lists that are related element by element, with equal keys, are related lookup by
lookup. -/
theorem rel_lookup (related : List.Forall₂ R l bs) (keyed : ∀ a b, R a b → key' b = key a)
    (k : κ) : Option.Rel R (lookup key k l) (lookup key' k bs) := by
  induction related with
  | nil => exact .none
  | @cons a b l bs here rest ih =>
    rw [lookup_cons, lookup_cons, keyed a b here]
    split
    · exact .some here
    · exact ih

theorem SortedBy.of_forall₂ (sorted : SortedBy key l) (related : List.Forall₂ R l bs)
    (keyed : ∀ a b, R a b → key' b = key a) : SortedBy key' bs := by
  have keys : bs.map key' = l.map key := by
    induction related with
    | nil => rfl
    | @cons a b l bs here rest ih =>
      rw [List.map_cons, List.map_cons, keyed a b here, ih sorted.tail]
  have mapped : (bs.map key').Pairwise (· < ·) := keys ▸ List.pairwise_map.mpr sorted
  exact List.pairwise_map.mp mapped

end Sorted

/-- A traversal succeeds when every element does. -/
theorem forM_ok_iff {f : α → Except ε PUnit} {l : List α} :
    l.forM f = .ok ⟨⟩ ↔ ∀ a ∈ l, f a = .ok ⟨⟩ := by
  induction l with
  | nil => exact ⟨fun _ a mem => absurd mem List.not_mem_nil, fun _ => rfl⟩
  | cons a l ih =>
    rw [List.forall_mem_cons, ← ih]
    change (f a >>= fun _ => l.forM f) = _ ↔ _
    cases f a <;> simp [bind, Except.bind]

/-- A traversal that collects only good results is one whose elements all do. -/
theorem forM_ok_iff_collect {check : α → Except ε PUnit} {collect : α → Except ε (List β)}
    {P : β → Prop} {l : List α}
    (agree : ∀ a ∈ l, check a = .ok ⟨⟩ ↔ ∃ bs, collect a = .ok bs ∧ ∀ b ∈ bs, P b) :
    l.forM check = .ok ⟨⟩ ↔
      ∃ found, l.mapM collect = .ok found ∧ ∀ b ∈ found.flatten, P b := by
  rw [forM_ok_iff]
  constructor
  · intro all
    obtain ⟨found, collected, good⟩ := exists_mapM_ok fun a mem => (agree a mem).mp (all a mem)
    refine ⟨found, collected, fun b inside => ?_⟩
    obtain ⟨bs, mem, inside⟩ := List.mem_flatten.mp inside
    obtain ⟨a, -, goodAt⟩ := exists_of_mem_right good mem
    exact goodAt b inside
  · rintro ⟨found, collected, good⟩ a mem
    obtain ⟨bs, here, there⟩ := exists_of_mem_left (forall₂_of_mapM_ok collected) mem
    exact (agree a mem).mpr ⟨bs, there, fun b inside => good b (List.mem_flatten_of_mem here inside)⟩

section Sequence

variable {γ : Type v} {x : Except ε α} {f : α → Except ε γ}

@[simp] theorem ok_bind {a : α} : ((.ok a : Except ε α) >>= f) = f a := rfl

@[simp] theorem error_bind {e : ε} : ((.error e : Except ε α) >>= f) = .error e := rfl

/-- A sequence of two steps succeeds when both do. -/
theorem bind_eq_ok {c : γ} : (x >>= f) = .ok c ↔ ∃ a, x = .ok a ∧ f a = .ok c := by
  cases x <;> simp [bind, Except.bind]

theorem map_eq_ok {g : α → γ} {c : γ} : x.map g = .ok c ↔ ∃ a, x = .ok a ∧ g a = c := by
  cases x <;> simp [Except.map]

variable {step : γ → α → Except ε γ} {s t : γ}

theorem foldlM_cons_eq_ok {a : α} {l : List α} :
    (a :: l).foldlM step s = .ok t ↔ ∃ u, step s a = .ok u ∧ l.foldlM step u = .ok t := by
  rw [List.foldlM_cons, bind_eq_ok]

theorem foldlM_append_eq_ok {l m : List α} :
    (l ++ m).foldlM step s = .ok t ↔ ∃ u, l.foldlM step s = .ok u ∧ m.foldlM step u = .ok t := by
  rw [List.foldlM_append, bind_eq_ok]

/-- An invariant that relates the state to the list read so far holds at the end of the
list. -/
theorem foldlM_invariant {I : List α → γ → Prop} {l : List α} (start : I [] s)
    (preserved : ∀ front a u v, I front u → step u a = .ok v → I (front ++ [a]) v)
    (run : l.foldlM step s = .ok t) : I l t := by
  induction l using List.reverseRecOn generalizing t with
  | nil =>
    cases run
    exact start
  | append_singleton front a ih =>
    obtain ⟨u, before, last⟩ := foldlM_append_eq_ok.mp run
    obtain ⟨v, here, done⟩ := foldlM_cons_eq_ok.mp last
    cases done
    exact preserved front a u _ (ih before) here

end Sequence

end Duet.Lib
