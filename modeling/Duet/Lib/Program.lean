import Mathlib.Logic.Relation
import Mathlib.Order.Basic

/-!
# Programs over atomic operations

A program performs one atomic operation after another and goes on with what each of them
answers. Other programs may act between two operations: a contract says what they may do
(`rely`) and what the program promises to do in each operation (`guar`). The weakest
precondition `Contract.wp` is computed along the program. It is kept by every step of the
program and of its environment (`wp_step`, `wp_stable`).
-/

namespace Duet.Lib

universe u

/-- The operations that a program may perform, each with the type of its answers. -/
structure Effects where
  Op : Type
  Reply : Op → Type

inductive Program (E : Effects) (α : Type) where
  | ret (value : α)
  | call (op : E.Op) (next : E.Reply op → Program E α)

namespace Program

variable {E : Effects} {α β γ : Type}

def bind (p : Program E α) (f : α → Program E β) : Program E β :=
  match p with
  | .ret value => f value
  | .call op next => .call op fun reply => (next reply).bind f

instance : Monad (Program E) where
  pure := .ret
  bind := bind

/-- The program of one operation. -/
def perform (op : E.Op) : Program E (E.Reply op) := .call op .ret

@[simp] theorem ret_bind (value : α) (f : α → Program E β) :
    (Program.ret value : Program E α) >>= f = f value :=
  rfl

@[simp] theorem call_bind (op : E.Op) (next : E.Reply op → Program E α) (f : α → Program E β) :
    Program.call op next >>= f = .call op fun reply => next reply >>= f :=
  rfl

theorem bind_ret (p : Program E α) : p >>= Program.ret = p := by
  induction p with
  | ret value => rfl
  | call op next ih => exact congrArg (Program.call op) (funext ih)

theorem bind_bind (p : Program E α) (f : α → Program E β) (g : β → Program E γ) :
    p >>= f >>= g = p >>= fun value => f value >>= g := by
  induction p with
  | ret value => rfl
  | call op next ih => exact congrArg (Program.call op) (funext ih)

end Program

/-- What the operations do, what the environment of a program may do between two of them
and what the program promises about each of them. -/
structure Contract (E : Effects) (σ : Type u) where
  exec : (op : E.Op) → σ → E.Reply op → σ → Prop
  rely : σ → σ → Prop
  guar : σ → σ → Prop

namespace Contract

variable {E : Effects} {σ : Type u} {α β ε : Type} {C : Contract E σ}

/-- The environment may do nothing or one thing after another. -/
structure Lawful (C : Contract E σ) : Prop where
  refl : ∀ s, C.rely s s
  trans : ∀ {s t u}, C.rely s t → C.rely t u → C.rely s u

/-- The environment keeps `P`. -/
def Stable (C : Contract E σ) (P : σ → Prop) : Prop :=
  ∀ ⦃s t⦄, C.rely s t → P s → P t

/-- From `s` the program keeps its promise in every operation, whatever the environment
does in between, and returns values that satisfy `Q`. -/
def wp (C : Contract E σ) : Program E α → (α → σ → Prop) → σ → Prop
  | .ret value, Q, s => Q value s
  | .call op next, Q, s =>
    ∀ t, C.rely s t → ∀ reply u, C.exec op t reply u → C.guar t u ∧ wp C (next reply) Q u

@[simp] theorem wp_ret {value : α} {Q : α → σ → Prop} {s : σ} :
    C.wp (Program.ret value) Q s ↔ Q value s :=
  Iff.rfl

@[simp] theorem wp_pure {value : α} {Q : α → σ → Prop} {s : σ} :
    C.wp (pure value) Q s ↔ Q value s :=
  Iff.rfl

@[simp] theorem wp_perform {op : E.Op} {Q : E.Reply op → σ → Prop} {s : σ} :
    C.wp (Program.perform op) Q s ↔
      ∀ t, C.rely s t → ∀ reply u, C.exec op t reply u → C.guar t u ∧ Q reply u :=
  Iff.rfl

@[simp] theorem wp_bind {p : Program E α} {f : α → Program E β} {Q : β → σ → Prop} {s : σ} :
    C.wp (p >>= f) Q s ↔ C.wp p (fun value => C.wp (f value) Q) s := by
  induction p generalizing s with
  | ret value => exact Iff.rfl
  | call op next ih =>
    constructor
    · intro holds t related reply u done
      obtain ⟨promised, rest⟩ := holds t related reply u done
      exact ⟨promised, (ih reply).mp rest⟩
    · intro holds t related reply u done
      obtain ⟨promised, rest⟩ := holds t related reply u done
      exact ⟨promised, (ih reply).mpr rest⟩

/-- A program with a weaker postcondition. -/
theorem wp_mono {p : Program E α} {Q Q' : α → σ → Prop} {s : σ} (holds : C.wp p Q s)
    (weaker : ∀ value t, Q value t → Q' value t) : C.wp p Q' s := by
  induction p generalizing s with
  | ret value => exact weaker value s holds
  | call op next ih =>
    intro t related reply u done
    obtain ⟨promised, rest⟩ := holds t related reply u done
    exact ⟨promised, ih reply rest⟩

theorem wp_and {p : Program E α} {Q Q' : α → σ → Prop} {s : σ} (first : C.wp p Q s)
    (second : C.wp p Q' s) : C.wp p (fun value t => Q value t ∧ Q' value t) s := by
  induction p generalizing s with
  | ret value => exact ⟨first, second⟩
  | call op next ih =>
    intro t related reply u done
    obtain ⟨promised, rest⟩ := first t related reply u done
    exact ⟨promised, ih reply rest (second t related reply u done).2⟩

/-- The environment does not disturb a program whose postcondition it keeps. -/
theorem wp_stable (lawful : C.Lawful) {p : Program E α} {Q : α → σ → Prop}
    (stable : ∀ value, C.Stable (Q value)) : C.Stable (C.wp p Q) := by
  intro s t related holds
  cases p with
  | ret value => exact stable value related holds
  | call op next => exact fun u later => holds u (lawful.trans related later)

/-- One operation of a program keeps its weakest precondition. -/
theorem wp_step (lawful : C.Lawful) {op : E.Op} {next : E.Reply op → Program E α}
    {Q : α → σ → Prop} {s t : σ} {reply : E.Reply op} (holds : C.wp (.call op next) Q s)
    (done : C.exec op s reply t) : C.guar s t ∧ C.wp (next reply) Q t :=
  holds s (lawful.refl s) reply t done

/-! ## Programs that may fail -/

@[simp] theorem wp_run_pure {value : α} {Q : Except ε α → σ → Prop} {s : σ} :
    C.wp (pure value : ExceptT ε (Program E) α).run Q s ↔ Q (.ok value) s :=
  Iff.rfl

@[simp] theorem wp_run_throw {error : ε} {Q : Except ε α → σ → Prop} {s : σ} :
    C.wp (throw error : ExceptT ε (Program E) α).run Q s ↔ Q (.error error) s :=
  Iff.rfl

@[simp] theorem wp_run_mk {p : Program E (Except ε α)} {Q : Except ε α → σ → Prop} {s : σ} :
    C.wp (ExceptT.mk p).run Q s ↔ C.wp p Q s :=
  Iff.rfl

@[simp] theorem wp_run_lift {p : Program E α} {Q : Except ε α → σ → Prop} {s : σ} :
    C.wp (ExceptT.lift p : ExceptT ε (Program E) α).run Q s ↔
      C.wp p (fun value => Q (.ok value)) s := by
  change C.wp (p >>= fun value => pure (.ok value)) Q s ↔ _
  rw [wp_bind]
  rfl

/-- An error ends the program, a value goes on to the rest of it. -/
@[simp] theorem wp_run_bind {p : ExceptT ε (Program E) α} {f : α → ExceptT ε (Program E) β}
    {Q : Except ε β → σ → Prop} {s : σ} :
    C.wp (p >>= f).run Q s ↔
      C.wp p.run (fun result t => match result with
        | .ok value => C.wp (f value).run Q t
        | .error error => Q (.error error) t) s := by
  change C.wp (p.run >>= ExceptT.bindCont f) Q s ↔ _
  rw [wp_bind]
  constructor
  · refine fun holds => wp_mono holds fun result t rest => ?_
    cases result with
    | ok value => exact rest
    | error error => exact rest
  · refine fun holds => wp_mono holds fun result t rest => ?_
    cases result with
    | ok value => exact rest
    | error error => exact rest

end Contract

/-! ## The operations of a program -/

namespace Program

variable {E : Effects} {α β ε : Type} {allowed : E.Op → Prop}

/-- Every operation that the program may perform is allowed. -/
def Uses (allowed : E.Op → Prop) : Program E α → Prop
  | .ret _ => True
  | .call op next => allowed op ∧ ∀ reply, (next reply).Uses allowed

theorem Uses.bind {p : Program E α} {f : α → Program E β} (first : p.Uses allowed)
    (rest : ∀ value, (f value).Uses allowed) : (p >>= f).Uses allowed := by
  induction p with
  | ret value => exact rest value
  | call op next ih => exact ⟨first.1, fun reply => ih reply (first.2 reply)⟩

/-- The rest of a program that may fail is only performed with a value. -/
theorem Uses.run_bind {p : ExceptT ε (Program E) α} {f : α → ExceptT ε (Program E) β}
    (first : p.run.Uses allowed) (rest : ∀ value, (f value).run.Uses allowed) :
    (p >>= f).run.Uses allowed := by
  refine Uses.bind first fun result => ?_
  cases result with
  | ok value => exact rest value
  | error error => trivial

theorem Uses.run_lift {p : Program E α} (uses : p.Uses allowed) :
    (ExceptT.lift p : ExceptT ε (Program E) α).run.Uses allowed :=
  uses.bind fun _ => trivial

theorem Uses.mono {other : E.Op → Prop} {p : Program E α} (uses : p.Uses allowed)
    (weaker : ∀ op, allowed op → other op) : p.Uses other := by
  induction p with
  | ret value => trivial
  | call op next ih => exact ⟨weaker op uses.1, fun reply => ih reply (uses.2 reply)⟩

end Program

/-- A program keeps what every operation that it may perform keeps. -/
theorem Contract.wp_of_uses {E : Effects} {σ : Type u} {α : Type} {C : Contract E σ}
    {allowed : E.Op → Prop} {P : σ → Prop} {p : Program E α} (uses : p.Uses allowed)
    (stable : C.Stable P)
    (keeps : ∀ op s reply t, allowed op → C.exec op s reply t → P s → C.guar s t ∧ P t)
    {s : σ} (start : P s) : C.wp p (fun _ => P) s := by
  induction p generalizing s with
  | ret value => exact start
  | call op next ih =>
    intro t related reply u done
    obtain ⟨promised, kept⟩ := keeps op t reply u uses.1 done (stable related start)
    exact ⟨promised, ih reply (uses.2 reply) kept⟩

/-! ## Whole executions -/

/-- The program returns `value` when nothing acts in between. -/
inductive Runs {E : Effects} {σ : Type u} {α : Type}
    (exec : (op : E.Op) → σ → E.Reply op → σ → Prop) : Program E α → σ → α → σ → Prop where
  | ret (value : α) (s : σ) : Runs exec (.ret value) s value s
  | call {op : E.Op} {next : E.Reply op → Program E α} {s t u : σ} {reply : E.Reply op}
      {value : α} (done : exec op s reply t) (rest : Runs exec (next reply) t value u) :
      Runs exec (.call op next) s value u

/-- What a contract gives for an execution without interference. -/
theorem Runs.post {E : Effects} {σ : Type u} {α : Type} {C : Contract E σ} {p : Program E α}
    {Q : α → σ → Prop} {s t : σ} {value : α} (alone : ∀ s, C.rely s s)
    (run : Runs C.exec p s value t) (holds : C.wp p Q s) : Q value t := by
  induction run with
  | ret value s => exact holds
  | call done rest ih => exact ih (holds _ (alone _) _ _ done).2

/-- The execution in which each operation gets the answer that `answer` chooses. -/
def Program.eval {E : Effects} {σ : Type u} {α : Type}
    (answer : (op : E.Op) → σ → E.Reply op × σ) : Program E α → σ → α × σ
  | .ret value, s => (value, s)
  | .call op next, s => (next (answer op s).1).eval answer (answer op s).2

theorem Runs.eval {E : Effects} {σ : Type u} {α : Type}
    {exec : (op : E.Op) → σ → E.Reply op → σ → Prop}
    {answer : (op : E.Op) → σ → E.Reply op × σ}
    (sound : ∀ op s, exec op s (answer op s).1 (answer op s).2) (p : Program E α) (s : σ) :
    Runs exec p s (p.eval answer s).1 (p.eval answer s).2 := by
  induction p generalizing s with
  | ret value => exact .ret value s
  | call op next ih => exact .call (sound op s) (ih _ _)

end Duet.Lib
