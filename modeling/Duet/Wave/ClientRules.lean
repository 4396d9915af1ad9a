import Duet.Wave.System

/-!
# Rules for the client

What the client knows at a point of its program is about its own host, about the server and
the host of the server, and about interrupts (`Holds`). While the server serves a call, its
part is a weakest precondition that its operations keep, whether the client is still there or
not. The rules are one for each way the client acts: on its own host, with the interrupt state,
and with a call.
-/

namespace Duet

open Lib Marker

/-! ## What the two sides keep -/

/-- What both hosts and the phase of interrupts satisfy in a stage of the synchronization. -/
structure Sides where
  here : Host → Prop
  there : Host → Prop
  phase : InterruptPhase → Prop
  steady : Steady phase
  lasting : Lasting phase

/-- The stages that are allowed once some waves have been begun. -/
abbrev Policy := List (Nat × String) → Sides → Prop

/-! ## The server -/

namespace ServerState

/-- The server keeps `I` on its host. It is idle with `K`, or it serves a call that is going to
be answered with `Q`. -/
def Ok (I : Host → Prop) (K : DuetServerImpl → Host → Prop)
    (Q : Except Report Reply → DuetServerImpl → Host → Prop) : ServerState → Host → Prop
  | .idle server, h => I h ∧ K server h
  | .serving rest, h => I h ∧ (Contract.keeping Host.exec I).wp rest (fun out h' => Q out.1 out.2 h') h
  | .replied result server, h => I h ∧ Q result server h
  | .orphan rest, h => I h ∧ (Contract.keeping Host.exec I).wp rest (fun _ _ => True) h
  | .gone, h => I h

variable {I J : Host → Prop} {K K' : DuetServerImpl → Host → Prop}
  {Q Q' : Except Report Reply → DuetServerImpl → Host → Prop} {state : ServerState} {h : Host}

theorem Ok.host (ok : state.Ok I K Q h) : I h := by
  cases state with
  | gone => exact ok
  | _ => exact ok.1

theorem Ok.mono (ok : state.Ok I K Q h) (keeps : ∀ h, I h → J h)
    (idle : ∀ server h, I h → K server h → K' server h)
    (answer : ∀ result server h, Q result server h → Q' result server h) : state.Ok J K' Q' h := by
  cases state with
  | idle server => exact ⟨keeps h ok.1, idle server h ok.1 ok.2⟩
  | serving rest =>
    exact ⟨keeps h ok.1, Contract.keeping_mono ok.2 keeps fun _ _ => answer _ _ _⟩
  | replied result server => exact ⟨keeps h ok.1, answer _ _ _ ok.2⟩
  | orphan rest => exact ⟨keeps h ok.1, Contract.keeping_mono ok.2 keeps fun _ _ _ => trivial⟩
  | gone => exact keeps h ok

theorem Ok.disconnected (ok : state.Ok I K Q h) : state.disconnected.Ok I K' Q' h := by
  cases state with
  | serving rest =>
    exact ⟨ok.1, Contract.keeping_mono ok.2 (fun _ kept => kept) fun _ _ _ => trivial⟩
  | orphan rest => exact ok
  | gone => exact ok
  | _ => exact ok.1

theorem Ok.of_lost (ok : state.Ok I K Q h) (lost : state.Lost) : state.Ok I K' Q' h := by
  rw [← lost]
  exact ok.disconnected

/-- The server is not busy with a call. -/
def Free (state : ServerState) : Prop := state.disconnected = .gone

/-- What the server has to know for its next reply. -/
def Answer (I : Reply → Host → Prop) (K : Reply → DuetServerImpl → Host → Prop)
    (failed : DuetServerImpl → Host → Prop) : Except Report Reply → DuetServerImpl → Host → Prop
  | .ok reply, server, h => I reply h ∧ K reply server h
  | .error _, server, h => failed server h

end ServerState

/-- No call is being served. -/
def Unserved : Except Report Reply → DuetServerImpl → Host → Prop := fun _ _ _ => False

/-- Nobody is idle. -/
def Unidle : DuetServerImpl → Host → Prop := fun _ _ => False

/-- What happens to the server keeps what is known of it. -/
theorem ServerState.Ok.moves {I : Host → Prop} {K : DuetServerImpl → Host → Prop}
    {Q : Except Report Reply → DuetServerImpl → Host → Prop} {w w' : World}
    (ok : w.server.Ok I K Q w.there) (moves : w.Moves w') : w'.server.Ok I K Q w'.there := by
  cases moves with
  | serve serving run =>
    rw [serving] at ok
    obtain ⟨-, rest⟩ := ok
    exact Contract.keeping_call.mp rest _ _ run
  | reply served =>
    rw [served] at ok
    exact ok
  | serveOrphan serving run =>
    rw [serving] at ok
    obtain ⟨-, rest⟩ := ok
    exact Contract.keeping_call.mp rest _ _ run
  | endOrphan served =>
    rw [served] at ok
    exact ok.1
  | lose => exact ok.disconnected
  | crash => exact ok.host
  | interrupt => exact ok

theorem ServerState.Free.moves {w w' : World} (free : w.server.Free) (moves : w.Moves w') :
    w'.server.Free := by
  cases moves with
  | serve serving =>
    rw [serving] at free
    cases free
  | reply served =>
    rw [served] at free
    cases free
  | serveOrphan serving =>
    rw [serving] at free
    cases free
  | endOrphan => exact rfl
  | lose =>
    have gone : w.server.disconnected = .gone := free
    change w.server.disconnected.disconnected = .gone
    rw [gone]
    rfl
  | crash => exact rfl
  | interrupt => exact free

/-! ## The client -/

section Client

variable (policy : Policy)

/-- The system is in a stage, and so it stays whatever the server does. -/
structure Safe (sides : Sides) (w : World) : Prop where
  here : sides.here w.here
  server : w.server.Ok sides.there (fun _ _ => True) (fun _ _ _ => True) w.there
  phase : sides.phase w.phase
  allowed : policy w.begun sides

/-- Every step of the client is one within a stage, and one that the phase allows: no wave is
begun once an interrupt is deferred. -/
structure Within (w w' : World) : Prop where
  stage : ∃ sides, Safe policy sides w ∧ Safe policy sides w'
  phase : w'.phase = w.phase ∨ w.phase.Next w'.phase
  begun : w'.begun = w.begun ∨ EarlyPhase w.phase

def clientContract : Contract clientEffects World where
  exec := World.exec
  rely := Relation.ReflTransGen World.Moves
  guar := Within policy

variable {policy} {w w' : World} {sides : Sides}

theorem World.Moves.here (moves : w.Moves w') : w'.here = w.here := by
  cases moves <;> rfl

theorem World.Moves.begun (moves : w.Moves w') : w'.begun = w.begun := by
  cases moves <;> rfl

theorem World.Moves.phase (moves : w.Moves w') : w'.phase = w.phase ∨ w.phase.Interrupted w'.phase := by
  cases moves with
  | interrupt interrupted => exact .inr interrupted
  | _ => exact .inl rfl

theorem Safe.moves (safe : Safe policy sides w) (moves : w.Moves w') : Safe policy sides w' := by
  refine ⟨moves.here ▸ safe.here, safe.server.moves moves, ?_, moves.begun ▸ safe.allowed⟩
  rcases moves.phase with same | interrupted
  · exact same ▸ safe.phase
  · exact sides.steady interrupted safe.phase

/-- What the client knows: about its host, the server, the phase of interrupts, and the waves
begun so far. -/
structure Holds (H I : Host → Prop) (K : DuetServerImpl → Host → Prop)
    (Q : Except Report Reply → DuetServerImpl → Host → Prop) (phases : InterruptPhase → Prop)
    (begun : List (Nat × String)) (w : World) : Prop where
  here : H w.here
  server : w.server.Ok I K Q w.there
  phase : phases w.phase
  begun : w.begun = begun

/-- The knowledge of the client is enough for a stage. -/
structure InStage (policy : Policy) (sides : Sides) (H I : Host → Prop)
    (phases : InterruptPhase → Prop) (begun : List (Nat × String)) : Prop where
  here : ∀ h, H h → sides.here h
  there : ∀ h, I h → sides.there h
  phase : ∀ phase, phases phase → sides.phase phase
  allowed : policy begun sides

variable {H G I J : Host → Prop} {K : DuetServerImpl → Host → Prop}
  {Q : Except Report Reply → DuetServerImpl → Host → Prop} {phases : InterruptPhase → Prop}
  {begun : List (Nat × String)}

theorem InStage.mono (inStage : InStage policy sides G J phases begun) (here : ∀ h, H h → G h)
    (there : ∀ h, I h → J h) : InStage policy sides H I phases begun :=
  ⟨fun h known => inStage.here h (here h known), fun h known => inStage.there h (there h known),
    inStage.phase, inStage.allowed⟩

theorem Holds.safe (holds : Holds H I K Q phases begun w)
    (inStage : InStage policy sides H I phases begun) : Safe policy sides w :=
  ⟨inStage.here _ holds.here,
    holds.server.mono inStage.there (fun _ _ _ _ => trivial) fun _ _ _ _ => trivial,
    inStage.phase _ holds.phase, holds.begun ▸ inStage.allowed⟩

theorem Holds.moves (steady : Steady phases) (holds : Holds H I K Q phases begun w)
    (moves : w.Moves w') : Holds H I K Q phases begun w' := by
  refine ⟨moves.here ▸ holds.here, holds.server.moves moves, ?_, moves.begun.trans holds.begun⟩
  rcases moves.phase with same | interrupted
  · exact same ▸ holds.phase
  · exact steady interrupted holds.phase

theorem Holds.stable (steady : Steady phases) :
    (clientContract policy).Stable (Holds H I K Q phases begun) := by
  intro w w' related holds
  induction related with
  | refl => exact holds
  | tail _ moves ih => exact ih.moves steady moves

theorem clientContract_lawful : (clientContract policy).Lawful :=
  ⟨fun _ => .refl, fun first second => first.trans second⟩

/-- What a part of the client ends with: a value or an error. -/
def Outcome {α : Type} (ok : α → World → Prop) (failed : World → Prop) : Except Report α → World → Prop
  | .ok value, w => ok value w
  | .error _, w => failed w

theorem wp_then {C : Contract clientEffects World} {α β : Type} {part : ClientM α}
    {rest : α → ClientM β} {R : α → World → Prop} {done : β → World → Prop} {failed : World → Prop}
    (first : C.wp part.run (Outcome R failed) w)
    (continues : ∀ value w', R value w' → C.wp (rest value).run (Outcome done failed) w') :
    C.wp (part >>= rest).run (Outcome done failed) w := by
  refine Contract.wp_run_bind.mpr (Contract.wp_mono first fun result w' outcome => ?_)
  cases result with
  | ok value => exact continues value w' outcome
  | error error => exact outcome

theorem wp_outcome {C : Contract clientEffects World} {α : Type} {part : ClientM α}
    {ok ok' : α → World → Prop} {failed failed' : World → Prop}
    (holds : C.wp part.run (Outcome ok failed) w) (succeeds : ∀ value w', ok value w' → ok' value w')
    (fails : ∀ w', failed w' → failed' w') : C.wp part.run (Outcome ok' failed') w := by
  refine Contract.wp_mono holds fun result w' outcome => ?_
  cases result with
  | ok value => exact succeeds value w' outcome
  | error error => exact fails w' outcome

/-- A part whose error the client handles. -/
theorem wp_result {C : Contract clientEffects World} {α : Type} {part : ClientM α}
    {Q : Except Report α → World → Prop} {failed : World → Prop} (holds : C.wp part.run Q w) :
    C.wp part.result.run (Outcome Q failed) w :=
  Contract.wp_run_lift.mpr holds

/-! ## The own host -/

/-- A program on the own host. -/
theorem wp_embed_here {α : Type} {program : Program hostEffects α} {R : α → Host → Prop}
    (steady : Steady phases) (inStage : InStage policy sides G I phases begun)
    (weaker : ∀ h, H h → G h) (holds : Holds H I K Q phases begun w)
    (spec : ∀ h, H h → (Contract.keeping Host.exec G).wp program R h) :
    (clientContract policy).wp (program.embed hereInterface)
      (fun value w' => Holds (fun h => G h ∧ R value h) I K Q phases begun w') w := by
  have start' : Holds G I K Q phases begun w := { holds with here := weaker _ holds.here }
  have embedded := Contract.wp_embed (C := clientContract policy) (D := Contract.keeping Host.exec G)
    (c := hereInterface) (V := World.here) (P := Holds G I K Q phases begun)
    (Holds.stable steady) (fun s t _ related => by
      induction related with
      | refl => rfl
      | tail _ moves ih => exact ih.trans moves.here.symm)
    (fun o s r t before run => by
      obtain ⟨h, done, rfl⟩ := run
      refine ⟨done, fun kept => ?_⟩
      have after : Holds G I K Q phases begun { s with here := h } := { before with here := kept }
      exact ⟨⟨⟨sides, before.safe inStage, after.safe inStage⟩, .inl rfl, .inl rfl⟩, after⟩)
    start' (spec _ holds.here)
  exact Contract.wp_mono embedded fun value w' outcome =>
    { outcome.2 with here := ⟨outcome.2.here, outcome.1⟩ }

/-- A call on the own host. -/
theorem wp_here {α : Type} {call : HostM α} {R : Except Report α → Host → Prop}
    (steady : Steady phases) (inStage : InStage policy sides G I phases begun)
    (weaker : ∀ h, H h → G h) (holds : Holds H I K Q phases begun w)
    (spec : ∀ h, H h → (Contract.keeping Host.exec G).wp call.run R h) :
    (clientContract policy).wp (here call).run
      (fun result w' => Holds (fun h => G h ∧ R result h) I K Q phases begun w') w :=
  wp_embed_here steady inStage weaker holds spec

/-! ## Interrupts -/

/-- A program on the word, which keeps the phases of a stage. -/
theorem wp_interrupt {α : Type} {program : PhaseM α} {kept : InterruptPhase → Prop}
    {after : α → InterruptPhase → Prop} {failed : World → Prop} (steady : Steady kept)
    (inStage : InStage policy sides H I kept begun) (weaker : ∀ phase, phases phase → kept phase)
    (holds : Holds H I K Q phases begun w)
    (spec : ∀ phase, phases phase → (phaseContract kept).wp program after phase) :
    (clientContract policy).wp (interrupt program).run
      (Outcome (fun value w' => Holds H I K Q (after value) begun w') failed) w := by
  have start' : Holds H I K Q kept begun w := { holds with phase := weaker _ holds.phase }
  have embedded := Contract.wp_embed (C := clientContract policy) (D := phaseContract kept)
    (c := phaseInterface) (V := World.phase) (P := Holds H I K Q kept begun)
    (Holds.stable steady) (fun s t _ related => by
      induction related with
      | refl => exact .refl
      | tail _ moves ih =>
        rcases moves.phase with same | interrupted
        · rw [same]
          exact ih
        · exact ih.tail interrupted)
    (fun o s r t before run => by
      obtain ⟨phase, done, rfl⟩ := run
      refine ⟨done, fun promised => ?_⟩
      have after : Holds H I K Q kept begun { s with phase := phase } :=
        { before with phase := promised.1 }
      exact ⟨⟨⟨sides, before.safe inStage, after.safe inStage⟩, promised.2, .inl rfl⟩, after⟩)
    start' (spec _ holds.phase)
  refine Contract.wp_run_lift.mpr (Contract.wp_mono embedded fun value w' outcome => ?_)
  exact { outcome.2 with phase := outcome.1 }

/-! ## Calls -/

variable {A : Reply → Host → Prop} {B : Reply → DuetServerImpl → Host → Prop}
  {D : DuetServerImpl → Host → Prop}

/-- The server serves a call once it is sent. -/
theorem wp_send {request : Request} {failed : World → Prop} (steady : Steady phases)
    (inStage : InStage policy sides H J phases begun) (weaker : ∀ h, I h → J h)
    (holds : Holds H I K Unserved phases begun w)
    (call : ∀ server h, I h → K server h →
      (Contract.keeping Host.exec J).wp ((serve request).run server)
        (fun out h' => Q out.1 out.2 h') h) :
    (clientContract policy).wp (perform (.send request)).run
      (Outcome (fun _ w' => Holds H J Unidle Q phases begun w') failed) w := by
  refine Contract.wp_run_lift.mpr ?_
  rw [Contract.wp_perform]
  intro s related reply t run
  have before := (Holds.stable steady : (clientContract policy).Stable _) related holds
  have after : Holds H J Unidle Q phases begun t := by
    rcases run with ⟨server, idle, rfl⟩ | ⟨lost, rfl⟩
    · have known := before.server
      rw [idle] at known
      exact { before with server := ⟨weaker _ known.1, call server _ known.1 known.2⟩ }
    · have known : t.server.Ok I Unidle Q t.there := before.server.of_lost lost
      exact { before with
        server := known.mono weaker (fun _ _ _ idle => idle) fun _ _ _ answer => answer }
  have same : t.phase = s.phase ∧ t.begun = s.begun := by
    rcases run with ⟨server, idle, rfl⟩ | ⟨lost, rfl⟩ <;> exact ⟨rfl, rfl⟩
  refine ⟨⟨⟨sides, ?_, after.safe inStage⟩, .inl same.1, .inl same.2⟩, after⟩
  exact before.safe (inStage.mono (fun _ known => known) weaker)

/-- The reply of a call. With a reply the server is not busy any more. -/
theorem wp_await_free (steady : Steady phases) (inStage : InStage policy sides H J phases begun)
    (holds : Holds H J Unidle (ServerState.Answer A B D) phases begun w) :
    (clientContract policy).wp await.run
      (Outcome (fun reply w' => Holds H (A reply) (B reply) Unserved phases begun w' ∧
          w'.server.Free)
        fun w' => Holds H J D Unserved phases begun w') w := by
  unfold await
  rw [Contract.wp_run_mk, Contract.wp_perform]
  intro s related reply t run
  have before := (Holds.stable steady : (clientContract policy).Stable _) related holds
  rcases run with ⟨server, replied, rfl⟩ | ⟨lost, rfl, error, rfl⟩
  · have known := before.server
    rw [replied] at known
    have safe : Safe policy sides { s with server := .idle server } :=
      ⟨inStage.here _ before.here, ⟨inStage.there _ known.1, trivial⟩,
        inStage.phase _ before.phase, before.begun ▸ inStage.allowed⟩
    refine ⟨⟨⟨sides, before.safe inStage, safe⟩, .inl rfl, .inl rfl⟩, ?_⟩
    cases reply with
    | ok reply => exact ⟨{ before with server := known.2 }, rfl⟩
    | error error => exact { before with server := ⟨known.1, known.2⟩ }
  · exact ⟨⟨⟨sides, before.safe inStage, before.safe inStage⟩, .inl rfl, .inl rfl⟩,
      { before with server := before.server.of_lost lost }⟩

theorem wp_await (steady : Steady phases) (inStage : InStage policy sides H J phases begun)
    (holds : Holds H J Unidle (ServerState.Answer A B D) phases begun w) :
    (clientContract policy).wp await.run
      (Outcome (fun reply w' => Holds H (A reply) (B reply) Unserved phases begun w')
        fun w' => Holds H J D Unserved phases begun w') w :=
  wp_outcome (wp_await_free steady inStage holds) (fun _ _ free => free.1) fun _ failed => failed

/-- A call and its reply. -/
theorem wp_remote_free {request : Request} (steady : Steady phases)
    (inStage : InStage policy sides H J phases begun) (weaker : ∀ h, I h → J h)
    (holds : Holds H I K Unserved phases begun w)
    (call : ∀ server h, I h → K server h →
      (Contract.keeping Host.exec J).wp ((serve request).run server)
        (fun out h' => ServerState.Answer A B D out.1 out.2 h') h) :
    (clientContract policy).wp (remote request).run
      (Outcome (fun reply w' => Holds H (A reply) (B reply) Unserved phases begun w' ∧
          w'.server.Free)
        fun w' => Holds H J D Unserved phases begun w') w :=
  wp_then (wp_send steady inStage weaker holds call) fun _ _ sent => wp_await_free steady inStage sent

theorem wp_remote {request : Request} (steady : Steady phases)
    (inStage : InStage policy sides H J phases begun) (weaker : ∀ h, I h → J h)
    (holds : Holds H I K Unserved phases begun w)
    (call : ∀ server h, I h → K server h →
      (Contract.keeping Host.exec J).wp ((serve request).run server)
        (fun out h' => ServerState.Answer A B D out.1 out.2 h') h) :
    (clientContract policy).wp (remote request).run
      (Outcome (fun reply w' => Holds H (A reply) (B reply) Unserved phases begun w')
        fun w' => Holds H J D Unserved phases begun w') w :=
  wp_outcome (wp_remote_free steady inStage weaker holds call) (fun _ _ free => free.1)
    fun _ failed => failed

/-- A task on the own host while the server serves a call. -/
theorem wp_join {α : Type} {task : HostM α} {request : Request}
    {R : Except Report α → Host → Prop} {E : World → Prop} (steady : Steady phases)
    (inStage : InStage policy sides G J phases begun) (weaker : ∀ h, I h → J h)
    (weakerHere : ∀ h, H h → G h) (holds : Holds H I K Unserved phases begun w)
    (call : ∀ server h, I h → K server h →
      (Contract.keeping Host.exec J).wp ((serve request).run server)
        (fun out h' => ServerState.Answer A B D out.1 out.2 h') h)
    (spec : ∀ h, H h → (Contract.keeping Host.exec G).wp task.run R h) :
    (clientContract policy).wp (join task request).run
      (Outcome (fun results w' => Outcome
        (fun reply w' => Holds (fun h => G h ∧ R results.1 h) (A reply) (B reply) Unserved
          phases begun w')
        (fun w' => Holds (fun h => G h ∧ R results.1 h) J D Unserved phases begun w')
        results.2 w') E) w := by
  have inStageStart : InStage policy sides H J phases begun :=
    inStage.mono weakerHere fun _ known => known
  refine wp_then (wp_send steady inStageStart weaker holds call) fun _ w₁ sent => ?_
  refine wp_then (wp_result (wp_here steady inStage weakerHere sent spec)) fun mine w₂ done => ?_
  have inStageEnd : InStage policy sides (fun h => G h ∧ R mine h) J phases begun :=
    inStage.mono (fun _ known => known.1) fun _ known => known
  exact wp_then (wp_result (wp_await steady inStageEnd done)) fun theirs w₃ outcome => outcome

/-- The end of the connection. -/
theorem wp_wait {L : DuetServerImpl → Host → Prop}
    {R : Except Report Reply → DuetServerImpl → Host → Prop} {failed : World → Prop}
    (steady : Steady phases) (inStage : InStage policy sides H I phases begun)
    (holds : Holds H I K Q phases begun w) :
    (clientContract policy).wp (perform .wait).run
      (Outcome (fun _ w' => Holds H I L R phases begun w') failed) w := by
  refine Contract.wp_run_lift.mpr ?_
  rw [Contract.wp_perform]
  intro s related reply t run
  obtain rfl : t = { s with server := s.server.disconnected } := run
  have before := (Holds.stable steady : (clientContract policy).Stable _) related holds
  have after : Holds H I L R phases begun { s with server := s.server.disconnected } :=
    { before with server := before.server.disconnected }
  exact ⟨⟨⟨sides, before.safe inStage, after.safe inStage⟩, .inl rfl, .inl rfl⟩, after⟩

/-- A wave is begun while nothing is being served. -/
theorem wp_beginWave {attemptId : String} {failed : World → Prop} (steady : Steady phases)
    (early : ∀ phase, phases phase → EarlyPhase phase)
    {J : Host → Prop} {L : DuetServerImpl → Host → Prop}
    (inStage : InStage policy sides H I phases begun)
    (inStage' : ∀ begun, InStage policy sides G J phases begun) (free : w.server.Free)
    (holds : Holds H I K Unserved phases begun w)
    (here : ∀ h n, H h → G { h with wave := n }) (there : ∀ h n, I h → J { h with wave := n })
    (idle : ∀ server h n, K server h → L server { h with wave := n }) :
    (clientContract policy).wp (perform (.beginWave attemptId)).run
      (Outcome (fun _ w' => Holds (fun h => G h ∧ h.wave = begun.length + 1)
        (fun h => J h ∧ h.wave = begun.length + 1) L Unserved phases
        ((begun.length + 1, attemptId) :: begun) w') failed) w := by
  refine Contract.wp_run_lift.mpr ?_
  rw [Contract.wp_perform]
  intro s related reply t run
  obtain rfl : t = s.beginWave attemptId := run
  have before := (Holds.stable steady : (clientContract policy).Stable _) related holds
  have stillFree : s.server.Free := by
    clear before
    induction related with
    | refl => exact free
    | tail _ moves ih => exact ih.moves moves
  have number : s.begun.length + 1 = begun.length + 1 := by rw [before.begun]
  have after : Holds (fun h => G h ∧ h.wave = begun.length + 1)
      (fun h => J h ∧ h.wave = begun.length + 1) L Unserved phases
      ((begun.length + 1, attemptId) :: begun) (s.beginWave attemptId) := by
    refine ⟨⟨here _ _ before.here, number⟩, ?_, before.phase, ?_⟩
    · have known := before.server
      change s.server.Ok _ _ _ { s.there with wave := s.begun.length + 1 }
      cases state : s.server with
      | idle server =>
        rw [state] at known
        exact ⟨⟨there _ _ known.1, number⟩, idle _ _ _ known.2⟩
      | gone =>
        rw [state] at known
        exact ⟨there _ _ known, number⟩
      | replied result server =>
        rw [state] at known
        exact known.2.elim
      | serving | orphan =>
        rw [state] at stillFree
        cases stillFree
    · change (s.begun.length + 1, attemptId) :: s.begun = _
      rw [before.begun]
  exact ⟨⟨⟨sides, before.safe inStage, after.safe ((inStage' _).mono (fun _ known => known.1)
    fun _ known => known.1)⟩, .inl rfl, .inr (early _ before.phase)⟩, after⟩

end Client

end Duet
