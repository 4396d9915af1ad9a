import Duet.Orchestrator.WaveLoop
import Duet.Wave.ServerCalls

/-!
# Two hosts in a synchronization

The system of a client with its host and a server with the other one. A call of the client and
the work of the server on it interleave; the connection may be lost while a call is being served,
which goes on then; an interrupt may arrive, and either process may crash, between any two
operations. A run that ended or crashed is followed by another one, with a plan of its own.

Every run goes by the staged strategy. The runs have one profile and one scope, and a run starts
only when the server of the one before has ended.
-/

namespace Duet

open Lib Marker

abbrev ServedCall := Program hostEffects (Except Report Reply × DuetServerImpl)

/-- What the server does. Without its client it ends the call it serves. -/
inductive ServerState where
  | idle (server : DuetServerImpl)
  | serving (rest : ServedCall)
  | replied (result : Except Report Reply) (server : DuetServerImpl)
  | orphan (rest : ServedCall)
  | gone

/-- The server after its connection is gone. -/
def ServerState.disconnected : ServerState → ServerState
  | .serving rest | .orphan rest => .orphan rest
  | .idle _ | .replied _ _ | .gone => .gone

/-- No reply will come any more. -/
def ServerState.Lost (state : ServerState) : Prop := state.disconnected = state

structure World where
  here : Host
  there : Host
  server : ServerState
  phase : InterruptPhase
  /-- the waves that were begun, each with its number -/
  begun : List (Nat × String)

namespace World

/-- Both hosts note what they do for the next wave under its number. -/
def beginWave (w : World) (attemptId : String) : World :=
  let wave := w.begun.length + 1
  { w with
    here := { w.here with wave := wave }
    there := { w.there with wave := wave }
    begun := (wave, attemptId) :: w.begun }

/-- One operation of the client. -/
def exec : (op : ClientOp) → World → op.Value → World → Prop
  | .here op, w, reply, w' => ∃ h, w.here.exec op reply h ∧ w' = { w with here := h }
  | .send request, w, _, w' =>
    (∃ server, w.server = .idle server ∧
      w' = { w with server := .serving ((serve request).run server) }) ∨
    (w.server.Lost ∧ w' = w)
  | .await, w, reply, w' =>
    (∃ server, w.server = .replied reply server ∧ w' = { w with server := .idle server }) ∨
    (w.server.Lost ∧ w' = w ∧ ∃ error, reply = .error error)
  | .phase op, w, reply, w' =>
    ∃ phase, InterruptPhase.exec op w.phase reply phase ∧ w' = { w with phase := phase }
  | .beginWave attemptId, w, _, w' => w' = w.beginWave attemptId
  | .wait, w, _, w' => w' = { w with server := w.server.disconnected }

/-- What happens besides the operations of the client. -/
inductive Moves (w : World) : World → Prop where
  /-- one operation of the call that the server serves -/
  | serve {op : HostOp} {next : Except Report op.Value → ServedCall} {reply : Except Report op.Value}
      {h : Host} (serving : w.server = .serving (.call op next)) (run : w.there.exec op reply h) :
      Moves w { w with there := h, server := .serving (next reply) }
  | reply {result : Except Report Reply} {server : DuetServerImpl}
      (served : w.server = .serving (.ret (result, server))) :
      Moves w { w with server := .replied result server }
  /-- the server goes on with a call whose reply nobody awaits -/
  | serveOrphan {op : HostOp} {next : Except Report op.Value → ServedCall}
      {reply : Except Report op.Value} {h : Host} (serving : w.server = .orphan (.call op next))
      (run : w.there.exec op reply h) :
      Moves w { w with there := h, server := .orphan (next reply) }
  | endOrphan {out : Except Report Reply × DuetServerImpl} (served : w.server = .orphan (.ret out)) :
      Moves w { w with server := .gone }
  | lose : Moves w { w with server := w.server.disconnected }
  | crash : Moves w { w with server := .gone }
  | interrupt {phase : InterruptPhase} (interrupted : w.phase.Interrupted phase) :
      Moves w { w with phase := phase }

end World

/-- The hosts as a new process finds them: what an earlier one moved to a name of its own is
not looked at again. -/
def Host.restarted (h : Host) : Host := { h with quarantined := [] }

/-- What all runs have in common: the profile of the client, and where the server keeps its
states unless it is told. -/
structure Profile where
  context : SyncContext
  serverDir : Path

namespace Profile

variable (p : Profile)

def localState : StatePath := p.context.localState

def remoteState : StatePath :=
  remoteStateIn (p.context.remoteStateDir.getD p.serverDir) p.context.remoteId

end Profile

/-- The world with the client that runs in it, if any. -/
structure System where
  world : World
  client : Option (Program clientEffects (Except Report SyncOutcome))

namespace System

inductive Step (p : Profile) : System → System → Prop where
  | client {w w' : World} {op : ClientOp} {next : op.Value → Program clientEffects _}
      {reply : op.Value} (run : w.exec op reply w') :
      Step p ⟨w, some (.call op next)⟩ ⟨w', some (next reply)⟩
  | moves {w w' : World} {client : Option (Program clientEffects _)} (moves : w.Moves w') :
      Step p ⟨w, client⟩ ⟨w', client⟩
  /-- The client returns, crashes, or is forced to exit. -/
  | ends (w : World) (client : Program clientEffects _) :
      Step p ⟨w, some client⟩ ⟨{ w with server := w.server.disconnected }, none⟩
  /-- A run starts when the server of the run before has ended. -/
  | starts (w : World) (gone : w.server = .gone) (plan : RunPlan) :
      Step p ⟨w, none⟩
        ⟨{ w with
            here := w.here.restarted
            there := w.there.restarted
            server := .idle (.new p.serverDir)
            phase := .preCommit },
          some (sync p.context plan).run⟩

/-- Two hosts that are not being synchronized, without any marker. -/
structure Initial (p : Profile) (s : System) : Prop where
  client : s.client = none
  server : s.world.server = .gone
  begun : s.world.begun = []
  hereMarker : s.world.here.files (applyAttemptPath p.localState) = none
  thereMarker : s.world.there.files (applyAttemptPath p.remoteState) = none
  hereAside : s.world.here.quarantined = []
  thereAside : s.world.there.quarantined = []
  hereTree : ∃ entries, s.world.here.tree = .settled 0 entries
  thereTree : ∃ entries, s.world.there.tree = .settled 0 entries

/-- A step within a run. -/
def Continues (p : Profile) (s s' : System) : Prop :=
  Step p s s' ∧ (s.client = none → s'.client = none)

theorem Continues.client {p : Profile} {w w' : World} {op : ClientOp}
    {next : op.Value → Program clientEffects _} {reply : op.Value} (run : w.exec op reply w') :
    Continues p ⟨w, some (.call op next)⟩ ⟨w', some (next reply)⟩ :=
  ⟨.client run, nofun⟩

theorem Continues.moves {p : Profile} {w w' : World} {client : Option (Program clientEffects _)}
    (moves : w.Moves w') : Continues p ⟨w, client⟩ ⟨w', client⟩ :=
  ⟨.moves moves, fun ended => ended⟩

theorem Continues.steps {p : Profile} {s s' : System}
    (continues : Relation.ReflTransGen (Continues p) s s') : Relation.ReflTransGen (Step p) s s' := by
  induction continues with
  | refl => exact .refl
  | tail _ step ih => exact ih.tail step.1

/-- What can be reached in any number of runs. -/
inductive Reaches (p : Profile) (start : System) : System → Prop where
  | start (initial : start.Initial p) : Reaches p start start
  | step {s s' : System} (reached : Reaches p start s) (step : Step p s s') : Reaches p start s'

theorem Reaches.continues {p : Profile} {start s s' : System} (reached : Reaches p start s)
    (steps : Relation.ReflTransGen (Continues p) s s') : Reaches p start s' := by
  induction steps with
  | refl => exact reached
  | tail _ step ih => exact ih.step step.1

theorem Reaches.initial {p : Profile} {start s : System} (reached : Reaches p start s) :
    start.Initial p := by
  induction reached with
  | start initial => exact initial
  | step _ _ ih => exact ih

end System

end Duet
