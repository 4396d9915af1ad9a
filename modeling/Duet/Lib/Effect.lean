import Mathlib.Data.List.Infix

/-!
# Steps that change a state and may fail

An effect runs from a state to an answer or an error, and leaves a state behind in both
cases: what a failed run has already changed stays changed. `Ends` is its weakest
precondition, with a postcondition for the answer and one for the error.
-/

namespace Duet.Lib

/-- A step over states `σ` that answers with an `α` or fails with an `ε`. -/
def Effect (ε σ α : Type) := σ → Except ε α × σ

namespace Effect

variable {ε σ α β : Type}

def bind (m : Effect ε σ α) (f : α → Effect ε σ β) : Effect ε σ β := fun s =>
  match m s with
  | (.ok a, t) => f a t
  | (.error e, t) => (.error e, t)

instance : Monad (Effect ε σ) where
  pure a := fun s => (.ok a, s)
  bind := bind

/-- A run that failed goes on failing. -/
instance : LawfulMonad (Effect ε σ) := by
  refine LawfulMonad.mk' _ ?_ (fun _ _ => rfl) ?_
  · intro α m
    funext s
    change Effect.bind m (fun a s => (.ok a, s)) s = m s
    unfold Effect.bind
    generalize m s = run
    rcases run with ⟨e | a, t⟩
    · rfl
    · rfl
  · intro α β γ m f g
    funext s
    change Effect.bind (Effect.bind m f) g s = Effect.bind m (fun a => Effect.bind (f a) g) s
    unfold Effect.bind
    generalize m s = run
    rcases run with ⟨e | a, t⟩
    · rfl
    · rfl

def fail (e : ε) : Effect ε σ α := fun s => (.error e, s)

def read : Effect ε σ σ := fun s => (.ok s, s)

def write (s : σ) : Effect ε σ Unit := fun _ => (.ok (), s)

/-- A check that reads nothing of the state. -/
def check (x : Except ε α) : Effect ε σ α := fun s => (x, s)

/-- From `s` the effect answers with `Q`, or fails with `E`. -/
def Ends (m : Effect ε σ α) (Q : α → σ → Prop) (E : ε → σ → Prop) (s : σ) : Prop :=
  match m s with
  | (.ok a, t) => Q a t
  | (.error e, t) => E e t

section Rules

variable {m : Effect ε σ α} {f : α → Effect ε σ β} {Q Q' : α → σ → Prop} {R : β → σ → Prop}
  {E E' : ε → σ → Prop} {s : σ}

@[simp] theorem ends_pure {a : α} : (pure a : Effect ε σ α).Ends Q E s ↔ Q a s := Iff.rfl

@[simp] theorem ends_fail {e : ε} : (fail e : Effect ε σ α).Ends Q E s ↔ E e s := Iff.rfl

@[simp] theorem ends_read {Q : σ → σ → Prop} : (read : Effect ε σ σ).Ends Q E s ↔ Q s s := Iff.rfl

@[simp] theorem ends_write {Q : Unit → σ → Prop} {t : σ} :
    (write t : Effect ε σ Unit).Ends Q E s ↔ Q () t :=
  Iff.rfl

@[simp] theorem ends_check_ok {a : α} :
    (check (.ok a) : Effect ε σ α).Ends Q E s ↔ Q a s :=
  Iff.rfl

@[simp] theorem ends_check_error {e : ε} :
    (check (.error e) : Effect ε σ α).Ends Q E s ↔ E e s :=
  Iff.rfl

@[simp] theorem ends_bind : (m >>= f).Ends R E s ↔ m.Ends (fun a => (f a).Ends R E) E s := by
  change (Effect.bind m f).Ends R E s ↔ _
  unfold Ends Effect.bind
  generalize m s = run
  rcases run with ⟨e | a, t⟩
  · exact Iff.rfl
  · exact Iff.rfl

/-- The postcondition of a run that is known. -/
theorem ends_ok {a : α} {t : σ} (run : m s = (.ok a, t)) : m.Ends Q E s ↔ Q a t := by
  unfold Ends
  rw [run]

theorem ends_error {e : ε} {t : σ} (run : m s = (.error e, t)) : m.Ends Q E s ↔ E e t := by
  unfold Ends
  rw [run]

theorem Ends.mono (holds : m.Ends Q E s) (answer : ∀ a t, Q a t → Q' a t)
    (error : ∀ e t, E e t → E' e t) : m.Ends Q' E' s := by
  unfold Ends at holds ⊢
  generalize m s = run at holds ⊢
  rcases run with ⟨e | a, t⟩
  · exact error e t holds
  · exact answer a t holds

/-- The run itself, beside what is known about it. -/
theorem Ends.with_run (holds : m.Ends Q E s) :
    m.Ends (fun a t => m s = (.ok a, t) ∧ Q a t) (fun e t => m s = (.error e, t) ∧ E e t) s := by
  unfold Ends at holds ⊢
  generalize m s = run at holds ⊢
  rcases run with ⟨e | a, t⟩
  · exact ⟨rfl, holds⟩
  · exact ⟨rfl, holds⟩

/-- A run of two steps is one run after the other. -/
theorem bind_run_eq_ok {b : β} {u : σ} :
    (m >>= f) s = (.ok b, u) ↔ ∃ a t, m s = (.ok a, t) ∧ f a t = (.ok b, u) := by
  change Effect.bind m f s = _ ↔ _
  unfold Effect.bind
  generalize m s = run
  rcases run with ⟨e | a, t⟩
  · simp
  · simp

/-- A run that does not fail answers. -/
theorem exists_of_isOk (answers : (m s).1.isOk = true) : ∃ a t, m s = (.ok a, t) := by
  generalize m s = run at answers ⊢
  rcases run with ⟨e | a, t⟩
  · cases answers
  · exact ⟨a, t, rfl⟩

/-- A run that answers has the first postcondition. -/
theorem Ends.of_ok (holds : m.Ends Q E s) {a : α} {t : σ} (run : m s = (.ok a, t)) : Q a t := by
  unfold Ends at holds
  rwa [run] at holds

/-- A run that fails has the second one. -/
theorem Ends.of_error (holds : m.Ends Q E s) {e : ε} {t : σ} (run : m s = (.error e, t)) :
    E e t := by
  unfold Ends at holds
  rwa [run] at holds

/-- The invariant of a loop speaks about the elements that are left. -/
theorem ends_forM {f : α → Effect ε σ PUnit} {I : List α → σ → Prop} {l : List α}
    (start : I l s)
    (step : ∀ a rest t, a :: rest <:+ l → I (a :: rest) t →
      (f a).Ends (fun _ u => I rest u) E t) :
    (l.forM f).Ends (fun _ t => I [] t) E s := by
  induction l generalizing s with
  | nil => exact start
  | cons a rest ih =>
    change (f a >>= fun _ => rest.forM f).Ends _ E s
    rw [ends_bind]
    refine (step a rest s (List.suffix_refl _) start).mono (fun _ t holds => ?_) fun _ _ => id
    exact ih holds fun b rest' u inside => step b rest' u (inside.trans (List.suffix_cons a rest))

/-- Steps for lists of elements are steps for the elements in a row. -/
theorem forM_flatMap (f : β → Effect ε σ PUnit) (g : α → List β) (l : List α) :
    (l.flatMap g).forM f = l.forM fun a => (g a).forM f := by
  induction l with
  | nil => rfl
  | cons a l ih =>
    rw [List.flatMap_cons]
    change forM (g a ++ l.flatMap g) f = _
    rw [List.forM_append]
    change ((g a).forM f >>= fun _ => (l.flatMap g).forM f) = _
    rw [ih]
    rfl

end Rules

end Effect

end Duet.Lib
