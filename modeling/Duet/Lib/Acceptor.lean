import Duet.Lib.Effect
import Mathlib.Computability.MyhillNerode

/-!
# Machines that accept a language

A machine reads a word letter by letter and then finishes; each step may fail. It
accepts a language when every state it is in has a residual language, the words that may
still come: a letter takes the residual to its left quotient or is refused when the
quotient is empty, and finishing succeeds when the residual holds the empty word.
-/

namespace Duet.Lib

section Quotients

variable {α : Type} {L M : Language α} {a : α}

/-- A letter that no word of the language starts with. -/
def Refuses (L : Language α) (a : α) : Prop := ∀ w, a :: w ∉ L

/-- The first letter of a product is one of its first factor, unless that is skipped. -/
theorem leftQuotient_mul (nonempty : [] ∉ L) (M : Language α) (a : α) :
    (L * M).leftQuotient [a] = L.leftQuotient [a] * M := by
  ext w
  rw [Language.mem_leftQuotient, Language.mem_mul, Language.mem_mul]
  constructor
  · intro ⟨u, inL, v, inM, eq⟩
    cases u with
    | nil => exact absurd inL nonempty
    | cons b u =>
      cases eq
      exact ⟨u, inL, v, inM, rfl⟩
  · intro ⟨u, inL, v, inM, eq⟩
    exact ⟨a :: u, inL, v, inM, congrArg (a :: ·) eq⟩

theorem Refuses.mul (nonempty : [] ∉ L) (refuses : Refuses L a) (M : Language α) :
    Refuses (L * M) a := by
  intro w inside
  have quotient : w ∈ (L * M).leftQuotient [a] := inside
  rw [leftQuotient_mul nonempty] at quotient
  obtain ⟨u, inL, -⟩ := Language.mem_mul.mp quotient
  exact refuses u inL

theorem nil_notMem_mul (nonempty : [] ∉ L) : [] ∉ L * M := by
  intro inside
  obtain ⟨u, inL, v, -, eq⟩ := Language.mem_mul.mp inside
  obtain ⟨rfl, -⟩ := List.append_eq_nil_iff.mp eq
  exact nonempty inL

end Quotients

section Acceptor

variable {ε σ α : Type} (step : α → Effect ε σ PUnit) (finish : Effect ε σ PUnit)

/-- Read a word and finish. -/
def accept (word : List α) : Effect ε σ PUnit := do
  word.forM step
  finish

/-- In a state with the residual language `L`, the machine goes on as `L` says. It may
refuse a letter that is not `Served`, and it may refuse to finish unless `served`. -/
structure Residual (I : σ → Language α → Prop) (Served : α → Prop) (served : Prop) : Prop where
  step : ∀ s L a, I s L →
    (step a).Ends (fun _ t => I t (L.leftQuotient [a])) (fun _ _ => Served a → Refuses L a) s
  finish : ∀ s L, I s L →
    finish.Ends (fun _ _ => [] ∈ L) (fun _ _ => served → [] ∉ L) s

variable {step finish}

theorem ends_accept_cons {a : α} {word : List α} {Q : PUnit → σ → Prop} {E : ε → σ → Prop}
    {s : σ} :
    (accept step finish (a :: word)).Ends Q E s ↔
      (step a).Ends (fun _ t => (accept step finish word).Ends Q E t) E s := by
  unfold accept
  rw [Effect.ends_bind]
  change (step a >>= fun _ => word.forM step).Ends _ E s ↔ _
  simp only [Effect.ends_bind]

/-- A machine with residual languages accepts the words of its language: no other word,
and each of them that is served. -/
theorem Residual.ends_accept {I : σ → Language α → Prop} {Served : α → Prop} {served : Prop}
    (residual : Residual step finish I Served served) {s : σ} {L : Language α} (start : I s L)
    (word : List α) :
    (accept step finish word).Ends (fun _ _ => word ∈ L)
      (fun _ _ => (∀ a ∈ word, Served a) → served → word ∉ L) s := by
  induction word generalizing s L with
  | nil =>
    refine (residual.finish s L start).mono (fun _ _ inside => inside) ?_
    exact fun _ _ refused _ => refused
  | cons a word ih =>
    rw [ends_accept_cons]
    refine (residual.step s L a start).mono (fun _ t after => ?_) ?_
    · refine (ih after).mono (fun _ _ inside => inside) ?_
      intro _ _ refused all last inside
      exact refused (fun b mem => all b (List.mem_cons_of_mem a mem)) last inside
    · intro _ _ refused all _
      exact refused (all a List.mem_cons_self) word

end Acceptor

end Duet.Lib
