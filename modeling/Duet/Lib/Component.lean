import Duet.Lib.Program

/-!
# Programs of a component

A program over the operations of one component also runs in a system that has the component:
its operations become operations of the system (`Program.embed`), and what a contract of the
component gives holds in the system (`Contract.wp_embed`). `Contract.keeping` is the contract
of a component that only its own program changes, and of which each operation keeps an
invariant. Two such contracts of one program are put together with `Contract.keeping_and`.
-/

namespace Duet.Lib

universe u v

variable {E F : Effects} {α β ε : Type}

/-! ## Embedding -/

/-- How the operations of a component are operations of a system. -/
structure Interface (E F : Effects) where
  op : E.Op → F.Op
  reply : (o : E.Op) → F.Reply (op o) → E.Reply o

/-- The program with the operations of the system. -/
def Program.embed (c : Interface E F) : Program E α → Program F α
  | .ret value => .ret value
  | .call o next => .call (c.op o) fun r => (next (c.reply o r)).embed c

/-- A program that may fail, with the operations of the system. -/
def Program.embedE (c : Interface E F) (p : ExceptT ε (Program E) α) : ExceptT ε (Program F) α :=
  ExceptT.mk (p.run.embed c)

/-- A program of a component in a system: `V` is the component, and `P` is what the system
keeps meanwhile. -/
theorem Contract.wp_embed {σ : Type u} {τ : Type v} {C : Contract F σ} {D : Contract E τ}
    {c : Interface E F} {V : σ → τ} {P : σ → Prop}
    (stable : C.Stable P) (rely : ∀ ⦃s t⦄, P s → C.rely s t → D.rely (V s) (V t))
    (step : ∀ o s r t, P s → C.exec (c.op o) s r t →
      D.exec o (V s) (c.reply o r) (V t) ∧ (D.guar (V s) (V t) → C.guar s t ∧ P t))
    {p : Program E α} {Q : α → τ → Prop} {s : σ} (start : P s) (holds : D.wp p Q (V s)) :
    C.wp (p.embed c) (fun value t => Q value (V t) ∧ P t) s := by
  induction p generalizing s with
  | ret value => exact ⟨holds, start⟩
  | call o next ih =>
    intro t related r u done
    have kept : P t := stable related start
    obtain ⟨run, keeps⟩ := step o t r u kept done
    obtain ⟨promised, rest⟩ := holds (V t) (rely start related) _ _ run
    obtain ⟨guaranteed, after⟩ := keeps promised
    exact ⟨guaranteed, ih _ after rest⟩

/-- Two conditions on the operations of a program. -/
theorem Program.Uses.and {p : Program E α} {allowed also : E.Op → Prop} (first : p.Uses allowed)
    (second : p.Uses also) : p.Uses fun op => allowed op ∧ also op := by
  induction p with
  | ret value => trivial
  | call op next ih =>
    exact ⟨⟨first.1, second.1⟩, fun reply => ih reply (first.2 reply) (second.2 reply)⟩

/-! ## Components that only their own program changes -/

namespace Contract

variable {σ : Type u} {exec : (op : E.Op) → σ → E.Reply op → σ → Prop} {I J : σ → Prop}
  {p : Program E α} {Q R : α → σ → Prop} {s : σ}

/-- Nothing else acts, and each operation ends in a state with `I`. -/
def keeping (exec : (op : E.Op) → σ → E.Reply op → σ → Prop) (I : σ → Prop) : Contract E σ where
  exec := exec
  rely := Eq
  guar _ t := I t

theorem keeping_stable {P : σ → Prop} : (keeping exec I).Stable P :=
  fun _ _ same holds => same ▸ holds

/-- One operation of a program that keeps an invariant. -/
theorem keeping_call {op : E.Op} {next : E.Reply op → Program E α} :
    (keeping exec I).wp (.call op next) Q s ↔
      ∀ reply t, exec op s reply t → I t ∧ (keeping exec I).wp (next reply) Q t :=
  ⟨fun holds reply t done => holds s rfl reply t done,
    fun holds _ same reply u done => holds reply u (same ▸ done)⟩

theorem keeping_perform {op : E.Op} {Q : E.Reply op → σ → Prop} :
    (keeping exec I).wp (Program.perform op) Q s ↔ ∀ reply t, exec op s reply t → I t ∧ Q reply t :=
  keeping_call

theorem keeping_mono (holds : (keeping exec I).wp p Q s) (invariant : ∀ t, I t → J t)
    (post : ∀ value t, Q value t → R value t) : (keeping exec J).wp p R s := by
  induction p generalizing s with
  | ret value => exact post value s holds
  | call op next ih =>
    rw [keeping_call] at holds ⊢
    intro reply t done
    obtain ⟨kept, rest⟩ := holds reply t done
    exact ⟨invariant t kept, ih reply rest⟩

/-- What two contracts give about the same program. -/
theorem keeping_and (first : (keeping exec I).wp p Q s) (second : (keeping exec J).wp p R s) :
    (keeping exec fun t => I t ∧ J t).wp p (fun value t => Q value t ∧ R value t) s := by
  induction p generalizing s with
  | ret value => exact ⟨first, second⟩
  | call op next ih =>
    rw [keeping_call] at first second ⊢
    intro reply t done
    obtain ⟨kept, rest⟩ := first reply t done
    obtain ⟨kept', rest'⟩ := second reply t done
    exact ⟨⟨kept, kept'⟩, ih reply rest rest'⟩

/-- A program of which every operation keeps the invariant. -/
theorem keeping_of_uses {allowed : E.Op → Prop} (uses : p.Uses allowed)
    (keeps : ∀ op s reply t, allowed op → exec op s reply t → I s → I t) (start : I s) :
    (keeping exec I).wp p (fun _ => I) s :=
  wp_of_uses uses keeping_stable
    (fun op s reply t permitted run holds =>
      have kept := keeps op s reply t permitted run holds
      ⟨kept, kept⟩) start

end Contract

end Duet.Lib
