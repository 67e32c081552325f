import HoprUtilities.Network.CopyStep

/-!
# Two directions with aborts and shutdown

The embedding of `TransferState`, `transfer_one_direction` and of the future
behind `copy_duplex_abortable_with_datagram`.  The calls of the two directions
never meet at the same half of an endpoint: `a_to_b` reads from A and writes
to, flushes and shuts down B, and `b_to_a` does the reverse.  Each direction
therefore carries its own script and its own log.
-/

namespace HoprUtilities.Network

open HoprUtilities.Lib

inductive TransferState where
  | running (buf : CopyBuffer)
  | shuttingDown (count : Nat)
  | done (count : Nat)
  deriving DecidableEq, Repr

structure Direction where
  state : TransferState
  wire : Wire
  deriving DecidableEq, Repr

abbrev DirectionM (α : Type) := EStateM Call Direction α

namespace Direction

def new (bufSize : Nat) (datagram : Bool) (script : Script) : Direction :=
  { state := .running (CopyBuffer.new bufSize datagram)
    wire := { script := script, log := [] } }

/-- Poll the copy buffer of a running direction. -/
def onBuffer {α : Type} (buf : CopyBuffer) (code : CopyM α) : DirectionM α :=
  zoom id (fun direction => { buf := buf, wire := direction.wire })
    (fun copying _ => { state := .running copying.buf, wire := copying.wire })
    code

def onWire {α : Type} (code : EStateM Call Wire α) : DirectionM α :=
  zoom id Direction.wire
    (fun wire direction => { direction with wire := wire }) code

def note (direction : Direction) (state : TransferState)
    (events : List Event) : Direction :=
  { state := state
    wire := { direction.wire with log := direction.wire.log ++ events } }

/-- `*state = TransferState::ShuttingDown(count)`. -/
def shutDown (direction : Direction) (count : Nat) : Direction :=
  direction.note (.shuttingDown count) [.leftRunning count]

/-- One round of the loop of `transfer_one_direction`; `again` is the next
round. -/
def transferRound (again : DirectionM (Poll (IoResult Nat))) :
    DirectionM (Poll (IoResult Nat)) := do
  let direction ← get
  match direction.state with
  | .running buf =>
      match ← onBuffer buf Copying.pollCopy with
      | .pending => return .pending
      | .ready (.error err) => return .ready (.error err)
      | .ready (.ok count) => do
          -- "direction copy complete"
          modify fun direction =>
            direction.note (.shuttingDown count)
              [.copied count, .leftRunning count]
          again
  | .shuttingDown count =>
      match ← onWire Wire.pollShutdown with
      | .pending => return .pending
      | .ready (.error err) => return .ready (.error err)
      | .ready (.ok ()) => do
          -- "direction shutdown complete"
          modify fun direction =>
            direction.note (.done count) [.reachedDone count]
          again
  | .done count => return .ready (.ok count)

/-- `transfer_one_direction`: each round returns or advances the state, so
three rounds are enough. -/
def transferOneDirection : DirectionM (Poll (IoResult Nat)) :=
  transferRound (transferRound (transferRound (throw .horizon)))

end Direction

/-- The two sides of the duplex copy.  The direction of a side is the one that
reads from it. -/
inductive Side where
  | a
  | b
  deriving DecidableEq, Repr

/-- A call of the duplex future: an endpoint call of one of the directions, or
the poll of an abort registration. -/
inductive DuplexCall where
  | direction (side : Side) (call : Call)
  | abort (side : Side)
  deriving DecidableEq, Repr

/-- The state of the duplex future.  `abortScript` says, poll by poll, whether
the handle of a side has been aborted by then; `aborted` remembers that it
was, as the abort futures are fused. -/
structure Duplex where
  direction : Side → Direction
  abortScript : Side → List Bool
  aborted : Side → Bool

abbrev DuplexM (α : Type) := EStateM DuplexCall Duplex α

namespace Duplex

def new (bufferSize : Side → Nat) (datagram : Bool)
    (script : Side → Script) (abortScript : Side → List Bool) : Duplex :=
  { direction := fun side =>
      Direction.new (bufferSize side) datagram (script side)
    abortScript := abortScript
    aborted := fun _ => false }

def setDirection (duplex : Duplex) (side : Side) (direction : Direction) :
    Duplex :=
  { duplex with
    direction := fun current =>
      if current = side then direction else duplex.direction current }

def onDirection {α : Type} (side : Side) (code : DirectionM α) : DuplexM α :=
  zoom (.direction side) (fun duplex => duplex.direction side)
    (fun direction duplex => duplex.setDirection side direction) code

def pollAbort (side : Side) : DuplexM Bool := fun duplex =>
  match duplex.abortScript side with
  | [] => .error (.abort side) duplex
  | fired :: rest =>
      let aborted := duplex.aborted side || fired
      .ok aborted
        { duplex with
          abortScript := fun current =>
            if current = side then rest else duplex.abortScript current
          aborted := fun current =>
            if current = side then aborted else duplex.aborted current }

/-- The result of one poll of the duplex future. -/
abbrev Transferred := Poll (IoResult (Nat × Nat))

/-- `transfer_one_direction(..)?`: an error ends the poll. -/
def transfer (side : Side) (next : Poll Nat → DuplexM Transferred) :
    DuplexM Transferred := do
  match ← onDirection side Direction.transferOneDirection with
  | .ready (.error err) => return .ready (.error err)
  | .ready (.ok count) => next (.ready count)
  | .pending => next .pending

/-- `ShuttingDown(buf.amt)` for a direction that is still running. -/
def stopRunning (duplex : Duplex) (side : Side) : Duplex :=
  match (duplex.direction side).state with
  | .running buf =>
      duplex.setDirection side ((duplex.direction side).shutDown buf.amt)
  | _ => duplex

/-- Initiate the shutdown of a side that was aborted while running. -/
def initiateAbort (side : Side) (next : DuplexM Transferred) :
    DuplexM Transferred := do
  match ← pollAbort side with
  | true => do
      modify fun duplex => duplex.stopRunning side
      next
  | false => next

/-- Once the other side is done, terminate a side that is still running. -/
def terminate (side other : Side) (result : Poll Nat)
    (next : Poll Nat → DuplexM Transferred) : DuplexM Transferred := do
  let duplex ← get
  match (duplex.direction other).state, (duplex.direction side).state with
  | .done _, .running _ => do
      modify fun duplex => duplex.stopRunning side
      transfer side next
  | _, _ => next result

/-- One poll of the future of `copy_duplex_abortable_with_datagram`. -/
def pollDuplex : DuplexM Transferred :=
  transfer .a fun aToBResult =>
  transfer .b fun bToAResult =>
  initiateAbort .a <|
  initiateAbort .b <|
  terminate .a .b aToBResult fun aToBResult =>
  terminate .b .a bToAResult fun bToAResult =>
  match aToBResult, bToAResult with
  | .ready aToB, .ready bToA => return .ready (.ok (aToB, bToA))
  | _, _ => return .pending

/-- `copy_duplex_abortable_with_datagram`, polled until it is ready, at most
`polls` times. -/
def copyDuplexAbortableWithDatagram : Nat → DuplexM Transferred
  | 0 => return .pending
  | polls + 1 => do
      match ← pollDuplex with
      | .pending => copyDuplexAbortableWithDatagram polls
      | .ready res => return .ready res

end Duplex

end HoprUtilities.Network
