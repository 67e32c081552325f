import HoprUtilities.Lib.Suspension

/-!
# One direction of a copy: endpoints and `CopyBuffer`

The embedding of `CopyBuffer` from `src/network_types/utils.rs`.  Endpoints
are arbitrary: every poll is answered from a script, and a script that has run
out leaves the code stopped at the unanswered call.  Since the scripts are
arbitrary lists, the places where the code can stop are exactly the points of
all runs.

Each answered call is appended to the log of the wire, together with the
bytes it moved.  The wake-ups a real endpoint arranges for are not modelled:
the future may be polled again at any time.
-/

namespace HoprUtilities.Network

open HoprUtilities.Lib

abbrev Bytes := List UInt8

inductive Poll (α : Type) where
  | ready (value : α)
  | pending
  deriving DecidableEq, Repr

/-- The kinds of `std::io::Error` the copy code makes itself, and any other
kind an endpoint may report. -/
inductive ErrorKind where
  | brokenPipe
  | writeZero
  | other (code : Nat)
  deriving DecidableEq, Repr

/-- `std::io::Error`: a bare kind, a kind with a text, or an error wrapped
into a new one. -/
inductive IoError where
  | simple (kind : ErrorKind)
  | message (kind : ErrorKind) (text : String)
  | wrapped (kind : ErrorKind) (inner : IoError)
  deriving DecidableEq, Repr

abbrev IoResult (α : Type) := Except IoError α

/-- The calls a direction makes.  `horizon` is no call of the source: it marks
the end of a bounded unrolling of a loop. -/
inductive Call where
  | read (room : Nat)
  | write (slice : Bytes)
  | flush
  | shutdown
  | proceed
  | horizon
  deriving DecidableEq, Repr

/-- What the log of a direction records: the answered calls, the completion of
`poll_copy`, and every assignment of a new state to the direction. -/
inductive Event where
  | read (room : Nat) (answer : Poll (IoResult Bytes))
  | write (slice : Bytes) (answer : Poll (IoResult Nat))
  | flush (answer : Poll (IoResult Unit))
  | shutdown (answer : Poll (IoResult Unit))
  | copied (count : Nat)
  | leftRunning (count : Nat)
  | reachedDone (count : Nat)
  deriving DecidableEq, Repr

/-- The answers the reader and the writer of one direction are going to give.
`tokioUnstable` is the compile-time switch that puts the task budget into the
write loop, and `budget` what `coop::poll_proceed` answers then. -/
structure Script where
  reads : List (Poll (IoResult Bytes))
  writes : List (Poll (IoResult Nat))
  flushes : List (Poll (IoResult Unit))
  shutdowns : List (Poll (IoResult Unit))
  tokioUnstable : Bool
  budget : List (Poll Unit)
  deriving DecidableEq, Repr

def Script.answers (script : Script) : Nat :=
  script.reads.length + script.writes.length + script.flushes.length +
    script.shutdowns.length + script.budget.length

/-- The endpoints of one direction as the code sees them. -/
structure Wire where
  script : Script
  log : List Event
  deriving DecidableEq, Repr

/-- A reader fills at most the room it is given. -/
def fitRead (room : Nat) : Poll (IoResult Bytes) → Poll (IoResult Bytes)
  | .ready (.ok data) => .ready (.ok (data.take room))
  | answer => answer

/-- A writer accepts at most the slice it is given. -/
def fitWrite (slice : Bytes) : Poll (IoResult Nat) → Poll (IoResult Nat)
  | .ready (.ok count) => .ready (.ok (min count slice.length))
  | answer => answer

namespace Wire

def pollRead (room : Nat) : EStateM Call Wire (Poll (IoResult Bytes)) :=
  fun wire =>
    match wire.script.reads with
    | [] => .error (.read room) wire
    | answer :: rest =>
        .ok (fitRead room answer)
          { script := { wire.script with reads := rest }
            log := wire.log ++ [.read room (fitRead room answer)] }

def pollWrite (slice : Bytes) : EStateM Call Wire (Poll (IoResult Nat)) :=
  fun wire =>
    match wire.script.writes with
    | [] => .error (.write slice) wire
    | answer :: rest =>
        .ok (fitWrite slice answer)
          { script := { wire.script with writes := rest }
            log := wire.log ++ [.write slice (fitWrite slice answer)] }

def pollFlush : EStateM Call Wire (Poll (IoResult Unit)) :=
  fun wire =>
    match wire.script.flushes with
    | [] => .error .flush wire
    | answer :: rest =>
        .ok answer
          { script := { wire.script with flushes := rest }
            log := wire.log ++ [.flush answer] }

def pollShutdown : EStateM Call Wire (Poll (IoResult Unit)) :=
  fun wire =>
    match wire.script.shutdowns with
    | [] => .error .shutdown wire
    | answer :: rest =>
        .ok answer
          { script := { wire.script with shutdowns := rest }
            log := wire.log ++ [.shutdown answer] }

/-- `coop::poll_proceed`, compiled in only under `tokio_unstable`. -/
def pollProceed : EStateM Call Wire (Poll Unit) :=
  fun wire =>
    if wire.script.tokioUnstable then
      match wire.script.budget with
      | [] => .error .proceed wire
      | answer :: rest =>
          .ok answer { wire with script := { wire.script with budget := rest } }
    else .ok (.ready ()) wire

end Wire

/-- `CopyBuffer`.  The count `amt` is a `u64` in the source, which no run
lives long enough to wrap. -/
structure CopyBuffer where
  readDone : Bool
  needFlush : Bool
  datagram : Bool
  pos : Nat
  cap : Nat
  amt : Nat
  buf : Bytes
  deriving DecidableEq, Repr

namespace CopyBuffer

def new (bufSize : Nat) (datagram : Bool) : CopyBuffer :=
  { readDone := false
    needFlush := false
    datagram := datagram
    pos := 0
    cap := 0
    amt := 0
    buf := List.replicate bufSize 0 }

/-- `&self.buf[self.pos..self.cap]`. -/
def slice (self : CopyBuffer) : Bytes :=
  (self.buf.drop self.pos).take (self.cap - self.pos)

/-- What a successful read leaves behind: the data stands after the first
`cap` bytes, and an empty read is the end of the input. -/
def fill (me : CopyBuffer) (data : Bytes) : CopyBuffer :=
  let filledLen := me.cap + data.length
  { me with
    buf := me.buf.take me.cap ++ data ++ me.buf.drop filledLen
    readDone := me.cap == filledLen
    cap := filledLen }

/-- The bookkeeping after a write of `count` bytes. -/
def advance (self : CopyBuffer) (count : Nat) : CopyBuffer :=
  { self with
    pos := self.pos + count
    amt := self.amt + count
    needFlush := true }

end CopyBuffer

/-- A copy buffer together with the endpoints it is polled with. -/
structure Copying where
  buf : CopyBuffer
  wire : Wire
  deriving DecidableEq, Repr

abbrev CopyM (α : Type) := EStateM Call Copying α

namespace Copying

def onWire {α : Type} (code : EStateM Call Wire α) : CopyM α :=
  zoom id Copying.wire (fun wire copying => { copying with wire := wire }) code

def modifyBuf (update : CopyBuffer → CopyBuffer) : CopyM PUnit :=
  modify fun copying => { copying with buf := update copying.buf }

def pollFillBuf : CopyM (Poll (IoResult Unit)) := do
  let copying ← get
  match ← onWire (Wire.pollRead (copying.buf.buf.length - copying.buf.cap)) with
  | .ready (.ok data) => do
      modifyBuf fun me => me.fill data
      return .ready (.ok ())
  | .ready (.error err) => return .ready (.error err)
  | .pending => return .pending

def pollWriteBuf : CopyM (Poll (IoResult Nat)) := do
  let copying ← get
  match ← onWire (Wire.pollWrite copying.buf.slice) with
  | .pending =>
      -- In datagram mode the buffer is never topped up (hoprnet#8421).
      if !copying.buf.datagram && !copying.buf.readDone &&
          decide (copying.buf.cap < copying.buf.buf.length) then
        match ← pollFillBuf with
        | .pending => return .pending
        | .ready (.error err) => return .ready (.error err)
        | .ready (.ok ()) => return .pending
      else return .pending
  | .ready res => return .ready res

/-- The result of one `poll_copy`. -/
abbrev Copied := Poll (IoResult Nat)

/-! The body of the loop of `poll_copy`, cut into its four parts.  The part
after the current one is its argument `next`: an early `return` of the source
is a branch that does not go on to it. -/

/-- `ready!(writer.poll_flush(cx))?; self.need_flush = false`. -/
def clearFlush (next : CopyM Copied) : CopyM Copied := do
  match ← onWire Wire.pollFlush with
  | .pending => return .pending
  | .ready (.error err) => return .ready (.error err)
  | .ready (.ok ()) => do
      modifyBuf fun self => { self with needFlush := false }
      next

/-- In datagram mode, flush what was written before going on. -/
def flushHead (next : CopyM Copied) : CopyM Copied := do
  let copying ← get
  if copying.buf.datagram && copying.buf.needFlush then clearFlush next
  else next

/-- If the buffer is empty, read into it; while the reader has nothing, flush
what a buffered writer may still hold. -/
def fillEmpty (next : CopyM Copied) : CopyM Copied := do
  let copying ← get
  if copying.buf.pos == copying.buf.cap && !copying.buf.readDone then
    modifyBuf fun self => { self with pos := 0, cap := 0 }
    match ← pollFillBuf with
    | .ready (.ok ()) => next
    | .ready (.error err) => return .ready (.error (.wrapped .brokenPipe err))
    | .pending => do
        let copying ← get
        if copying.buf.needFlush then clearFlush (return .pending)
        else return .pending
  else next

/-- Write out what the buffer holds. -/
def writeWhile : Nat → CopyM Copied → CopyM Copied
  | 0, _ => throw .horizon
  | fuel + 1, next => do
      let copying ← get
      if copying.buf.pos < copying.buf.cap then
        match ← onWire Wire.pollProceed with
        | .pending => return .pending
        | .ready () =>
            match ← pollWriteBuf with
            | .pending => return .pending
            | .ready (.error err) => return .ready (.error err)
            | .ready (.ok i) =>
                if i == 0 then
                  return .ready (.error (.message .writeZero "write zero byte"))
                else do
                  modifyBuf fun self => self.advance i
                  writeWhile fuel next
      else next

/-- Once everything is written and the input has ended, flush and finish. -/
def finish (again : CopyM Copied) : CopyM Copied := do
  let copying ← get
  if copying.buf.pos == copying.buf.cap && copying.buf.readDone then
    match ← onWire Wire.pollFlush with
    | .pending => return .pending
    | .ready (.error err) => return .ready (.error err)
    | .ready (.ok ()) => return .ready (.ok copying.buf.amt)
  else again

def pollCopyLoop : Nat → CopyM Copied
  | 0 => throw .horizon
  | fuel + 1 =>
      flushHead (fillEmpty (writeWhile (fuel + 1) (finish (pollCopyLoop fuel))))

/-- `poll_copy`.  A round of its loops that comes back to the head has used up
an answer, so the answers run out before the rounds do. -/
def pollCopy : CopyM Copied := fun copying =>
  pollCopyLoop (copying.wire.script.answers + 1) copying

/-- A future that polls `poll_copy` until it is ready, at most `polls`
times. -/
def copyRun : Nat → CopyM Copied
  | 0 => return .pending
  | polls + 1 => do
      match ← pollCopy with
      | .pending => copyRun polls
      | .ready res => return .ready res

end Copying

end HoprUtilities.Network
