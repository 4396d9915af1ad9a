import Duet.Wave.Reachable

/-!
# A system that can be run

The run of a synchronization on hosts where every operation succeeds, without interrupts: the
server serves a call as soon as it is sent. It is one of the runs of the system.
-/

namespace Duet

open Lib Marker

namespace InterruptPhase

/-- One operation on the word, as a function. -/
def answer : (op : PhaseOp) → InterruptPhase → op.Value × InterruptPhase
  | .load, phase => (phase, phase)
  | .compareExchange expected next, phase =>
    if phase = expected then (.ok (), next) else (.error phase, phase)

theorem answer_sound (op : PhaseOp) (phase : InterruptPhase) :
    exec op phase (answer op phase).1 (answer op phase).2 := by
  cases op with
  | load => exact ⟨rfl, rfl⟩
  | compareExchange expected next =>
    by_cases same : phase = expected
    · simp [exec, answer, same]
    · simp [exec, answer, same]

end InterruptPhase

/-- What the scans of the two sides find. -/
structure Scans where
  here : State.ScanContext
  there : State.ScanContext

namespace World

variable (scans : Scans)

/-- The server serves a call to its end. -/
def serveAll (w : World) (request : Request) (server : DuetServerImpl) : World :=
  let out := ((serve request).run server).eval (fun op h => h.answer scans.there op) w.there
  { w with there := out.2, server := .replied out.1.1 out.1.2 }

/-- One operation of the client, with the call that it sends. -/
def answer (w : World) : (op : ClientOp) → op.Value × World
  | .here op =>
    let out := w.here.answer scans.here op
    (out.1, { w with here := out.2 })
  | .send request =>
    match w.server with
    | .idle server => ((), w.serveAll scans request server)
    | state => ((), { w with server := state.disconnected })
  | .await =>
    match w.server with
    | .replied result server => (result, { w with server := .idle server })
    | state => (.error "the connection is lost", { w with server := state.disconnected })
  | .phase op =>
    let out := InterruptPhase.answer op w.phase
    (out.1, { w with phase := out.2 })
  | .beginWave attemptId => ((), w.beginWave attemptId)
  | .wait => (.ok (), { w with server := w.server.disconnected })

end World

namespace System

/-- The system after so many operations of the client. -/
def advance (scans : Scans) : Nat → System → System
  | 0, s => s
  | operations + 1, s =>
    match s.client with
    | some (.call op next) =>
      advance scans operations ⟨(s.world.answer scans op).2, some (next (s.world.answer scans op).1)⟩
    | _ => s

variable {scans : Scans} {p : Profile} {w : World}
  {client : Option (Program clientEffects (Except Report SyncOutcome))}

/-- What the server does by itself are steps of the system. -/
theorem steps_of_moves {w' : World} (moves : Relation.ReflTransGen World.Moves w w') :
    Relation.ReflTransGen (Continues p) ⟨w, client⟩ ⟨w', client⟩ := by
  induction moves with
  | refl => exact .refl
  | tail _ moves ih => exact ih.tail (.moves moves)

/-- A call that is being served is served to its end. -/
theorem served_moves (rest : ServedCall) (serving : w.server = .serving rest) :
    Relation.ReflTransGen World.Moves w
      { w with
        there := (rest.eval (fun op h => h.answer scans.there op) w.there).2
        server := .replied (rest.eval (fun op h => h.answer scans.there op) w.there).1.1
          (rest.eval (fun op h => h.answer scans.there op) w.there).1.2 } := by
  induction rest generalizing w with
  | ret out => exact .single (.reply serving)
  | call op next ih =>
    have first := World.Moves.serve serving (w.there.answer_sound scans.there op)
    exact .head first (ih _ (w := { w with
      there := (w.there.answer scans.there op).2
      server := .serving (next (w.there.answer scans.there op).1) }) rfl)

theorem disconnected_lost (state : ServerState) : state.disconnected.Lost := by
  cases state <;> rfl

/-- One operation of the client, with the call that it sends, is a run of the system. -/
theorem answer_steps (op : ClientOp) (next : op.Value → Program clientEffects _) :
    Relation.ReflTransGen (Continues p) ⟨w, some (.call op next)⟩
      ⟨(w.answer scans op).2, some (next (w.answer scans op).1)⟩ := by
  have lose : Relation.ReflTransGen (Continues p) ⟨w, some (.call op next)⟩
      ⟨{ w with server := w.server.disconnected }, some (.call op next)⟩ := .single (.moves .lose)
  have lost := disconnected_lost w.server
  cases op with
  | here op => exact .single (.client ⟨_, w.here.answer_sound scans.here op, rfl⟩)
  | send request =>
    cases server : w.server with
    | idle session =>
      have sent : Continues p ⟨w, some (.call (.send request) next)⟩
          ⟨{ w with server := .serving ((serve request).run session) }, some (next ())⟩ :=
        .client (.inl ⟨session, server, rfl⟩)
      refine .head sent ?_
      have served := @served_moves scans
        { w with server := .serving ((serve request).run session) } _ rfl
      simp only [World.answer, server]
      exact steps_of_moves served
    | _ =>
      rw [server] at lose lost
      refine .tail lose ?_
      simp only [World.answer, server]
      exact .client (.inr ⟨lost, rfl⟩)
  | await =>
    cases server : w.server with
    | replied result session =>
      simp only [World.answer, server]
      exact .single (.client (.inl ⟨session, server, rfl⟩))
    | _ =>
      rw [server] at lose lost
      refine .tail lose ?_
      simp only [World.answer, server]
      exact .client (.inr ⟨lost, rfl, _, rfl⟩)
  | phase op => exact .single (.client ⟨_, InterruptPhase.answer_sound op w.phase, rfl⟩)
  | beginWave attemptId => exact .single (.client rfl)
  | wait => exact .single (.client rfl)

theorem advance_steps (operations : Nat) (s : System) :
    Relation.ReflTransGen (Continues p) s (s.advance scans operations) := by
  induction operations generalizing s with
  | zero => exact .refl
  | succ operations ih =>
    obtain ⟨w, client⟩ := s
    rcases client with _ | ⟨result | ⟨op, next⟩⟩
    · exact .refl
    · exact .refl
    · exact (answer_steps op next).trans (ih _)

/-- The next operation of the client is one on its own host. -/
def nextHere (s : System) : Bool :=
  match s.client with
  | some (.call (.here _) _) => true
  | _ => false

theorem advance_here {s : System} (here : s.nextHere = true) : Step p s (s.advance scans 1) := by
  obtain ⟨w, client⟩ := s
  rcases client with _ | ⟨result | ⟨op, next⟩⟩
  · cases here
  · cases here
  · cases op with
    | here op => exact .client ⟨_, w.here.answer_sound scans.here op, rfl⟩
    | _ => cases here

theorem advance_succ (operations : Nat) (s : System) :
    s.advance scans (operations + 1) = (s.advance scans operations).advance scans 1 := by
  induction operations generalizing s with
  | zero => rfl
  | succ operations ih =>
    obtain ⟨w, client⟩ := s
    rcases client with _ | ⟨result | ⟨op, next⟩⟩
    · rfl
    · rfl
    · exact ih _

/-- The outcome of a client that has returned. -/
def outcome (s : System) : Option SyncOutcome :=
  match s.client with
  | some (.ret (.ok outcome)) => some outcome
  | _ => none

theorem returned_of {s : System} {outcome : SyncOutcome} (returned : s.outcome = some outcome) :
    s.client = some (.ret (.ok outcome)) := by
  obtain ⟨w, client⟩ := s
  rcases client with _ | ⟨⟨error | found⟩ | ⟨op, next⟩⟩
  · cases returned
  · cases returned
  · cases returned
    rfl
  · cases returned

end System

end Duet
