import HoprUtilities.Lib.Transition
import HoprUtilities.Network.CopyBuffer

/-!
# A captured connection

The embedding of `PcapIO` from `src/network_types/capture.rs`.  The inner
connection is arbitrary, and its answer is part of every call.  What it accepts
and delivers is kept beside the packets that the capture channel takes in.
The task that writes the file takes them out of it, or gives up.
-/

namespace HoprUtilities.Network

open HoprUtilities.Lib

inductive CapturedPacket where
  | incoming (timestamp : Nat) (data : Bytes)
  | outgoing (timestamp : Nat) (data : Bytes)
  deriving DecidableEq, Repr

namespace CapturedPacket

def incomingData : CapturedPacket → Bytes
  | incoming _ data => data
  | outgoing _ _ => []

def outgoingData : CapturedPacket → Bytes
  | incoming _ _ => []
  | outgoing _ data => data

end CapturedPacket

/-- `mpsc::channel`, of which there is one sender.  `sent` are the packets it
has taken in, also those that have been received since. -/
structure CaptureChannel where
  sent : List CapturedPacket
  received : Nat
  closed : Bool
  dropped : Bool
  deriving DecidableEq, Repr

namespace CaptureChannel

/-- The buffer, and the slot that every sender has. -/
def capacity : Nat := 10000 + 1

def full (self : CaptureChannel) : Bool :=
  decide (capacity ≤ self.sent.length - self.received)

def connected (self : CaptureChannel) : Bool :=
  !self.closed && !self.dropped

def trySend (self : CaptureChannel) (packet : CapturedPacket) :
    CaptureChannel :=
  if self.connected && !self.full then
    { self with sent := self.sent ++ [packet] }
  else self

def closeChannel (self : CaptureChannel) : CaptureChannel :=
  { self with closed := true }

end CaptureChannel

structure PcapIO where
  writeClosed : Bool
  readClosed : Bool
  sender : CaptureChannel
  deriving DecidableEq, Repr

namespace PcapIO

def new : PcapIO where
  writeClosed := false
  readClosed := false
  sender :=
    { sent := []
      received := 0
      closed := false
      dropped := false }

/-- The data is captured before it is passed on. -/
def pollWrite (self : PcapIO) (timestamp : Nat) (buf : Bytes)
    (inner : Poll (IoResult Nat)) : PcapIO × Poll (IoResult Nat) :=
  ({ self with sender := self.sender.trySend (.outgoing timestamp buf) },
    fitWrite buf inner)

def pollFlush (self : PcapIO) (inner : Poll (IoResult Unit)) :
    PcapIO × Poll (IoResult Unit) := (self, inner)

def pollClose (self : PcapIO) (inner : Poll (IoResult Unit)) :
    PcapIO × Poll (IoResult Unit) :=
  ({ self with
      writeClosed := true
      sender :=
        if self.readClosed then self.sender.closeChannel else self.sender },
    inner)

def pollRead (self : PcapIO) (timestamp room : Nat)
    (inner : Poll (IoResult Bytes)) : PcapIO × Poll (IoResult Bytes) :=
  match fitRead room inner with
  | .pending => (self, .pending)
  | .ready (.ok []) =>
      ({ self with
          readClosed := true
          sender :=
            if self.writeClosed then self.sender.closeChannel
            else self.sender },
        .ready (.ok []))
  | .ready (.ok data) =>
      ({ self with sender := self.sender.trySend (.incoming timestamp data) },
        .ready (.ok data))
  | .ready (.error error) => (self, .ready (.error error))

end PcapIO

/-- The bytes of a buffer that a writer took. -/
def acceptedOf (buf : Bytes) : Poll (IoResult Nat) → Bytes
  | .ready (.ok count) => buf.take count
  | _ => []

def deliveredOf : Poll (IoResult Bytes) → Bytes
  | .ready (.ok data) => data
  | _ => []

/-- The calls with the answer of the inner connection, and what the task that
writes the file does. -/
inductive CaptureCall where
  | write (timestamp : Nat) (buf : Bytes) (inner : Poll (IoResult Nat))
  | flush (inner : Poll (IoResult Unit))
  | close (inner : Poll (IoResult Unit))
  | read (timestamp room : Nat) (inner : Poll (IoResult Bytes))
  | receive
  | giveUp
  deriving DecidableEq, Repr

/-- A captured connection and what it has transferred. -/
structure Capturing where
  io : PcapIO
  accepted : Bytes
  delivered : Bytes
  deriving DecidableEq, Repr

namespace Capturing

def new : Capturing where
  io := .new
  accepted := []
  delivered := []

def step (state : Capturing) : CaptureCall → Option Capturing
  | .write timestamp buf inner =>
      let (io, answer) := state.io.pollWrite timestamp buf inner
      some
        { state with
          io := io
          accepted := state.accepted ++ acceptedOf buf answer }
  | .flush inner => some { state with io := (state.io.pollFlush inner).1 }
  | .close inner => some { state with io := (state.io.pollClose inner).1 }
  | .read timestamp room inner =>
      let (io, answer) := state.io.pollRead timestamp room inner
      some
        { state with
          io := io
          delivered := state.delivered ++ deliveredOf answer }
  | .receive =>
      let sender := state.io.sender
      if sender.received < sender.sent.length ∧ sender.dropped = false then
        some
          { state with
            io :=
              { state.io with
                sender := { sender with received := sender.received + 1 } } }
      else none
  | .giveUp =>
      some
        { state with
          io :=
            { state.io with
              sender := { state.io.sender with dropped := true } } }

/-- What was captured is what was transferred. -/
structure Mirrors (state : Capturing) : Prop where
  outgoing : state.io.sender.sent.flatMap CapturedPacket.outgoingData =
    state.accepted
  incoming : state.io.sender.sent.flatMap CapturedPacket.incomingData =
    state.delivered

instance (state : Capturing) : Decidable state.Mirrors :=
  decidable_of_iff
    (state.io.sender.sent.flatMap CapturedPacket.outgoingData =
        state.accepted ∧
      state.io.sender.sent.flatMap CapturedPacket.incomingData =
        state.delivered)
    ⟨fun both => ⟨both.1, both.2⟩, fun mirrors => ⟨mirrors.1, mirrors.2⟩⟩

/-- The writer takes the whole buffer at once. -/
def takesAll (buf : Bytes) : Poll (IoResult Nat) → Bool
  | .ready (.ok count) => decide (buf.length ≤ count)
  | _ => buf.isEmpty

/-- As long as the channel is connected a write is taken whole, and when it is
not, no bytes move. -/
def faithful (state : Capturing) : CaptureCall → Bool
  | .write _ buf inner =>
      if state.io.sender.connected then takesAll buf inner
      else (acceptedOf buf inner).isEmpty
  | .read _ room inner =>
      state.io.sender.connected ||
        (deliveredOf (fitRead room inner)).isEmpty
  | _ => true

theorem acceptedOf_fitWrite (buf : Bytes) (inner : Poll (IoResult Nat)) :
    acceptedOf buf (fitWrite buf inner) = acceptedOf buf inner := by
  cases inner with
  | pending => rfl
  | ready answer =>
      cases answer with
      | error error => rfl
      | ok count =>
          rcases Nat.le_total count buf.length with part | all
          · simp [fitWrite, acceptedOf, Nat.min_eq_left part]
          · simp [fitWrite, acceptedOf, Nat.min_eq_right all,
              List.take_of_length_le all]

theorem takesAll_iff (buf : Bytes) (inner : Poll (IoResult Nat)) :
    takesAll buf inner = true ↔ buf = acceptedOf buf inner := by
  cases inner with
  | pending => simp [takesAll, acceptedOf]
  | ready answer =>
      cases answer with
      | error error => simp [takesAll, acceptedOf]
      | ok count =>
          rw [takesAll, acceptedOf, decide_eq_true_iff]
          constructor
          · intro all
            exact (List.take_of_length_le all).symm
          · intro whole
            have lengths := congrArg List.length whole
            rw [List.length_take] at lengths
            omega

theorem sent_trySend {channel : CaptureChannel} (free : channel.full = false)
    (packet : CapturedPacket) :
    (channel.trySend packet).sent =
      channel.sent ++ if channel.connected then [packet] else [] := by
  cases connected : channel.connected
  · simp [CaptureChannel.trySend, connected]
  · simp [CaptureChannel.trySend, connected, free]

/-- A write keeps the two sides equal just if the packet is what was taken. -/
theorem mirrors_write {state : Capturing} (holds : state.Mirrors)
    (free : state.io.sender.full = false) {timestamp : Nat} {buf : Bytes}
    {inner : Poll (IoResult Nat)} {next : Capturing}
    (taken : state.step (.write timestamp buf inner) = some next) :
    next.Mirrors ↔ state.faithful (.write timestamp buf inner) = true := by
  cases taken
  have sent := sent_trySend free (.outgoing timestamp buf)
  have moved := acceptedOf_fitWrite buf inner
  obtain ⟨outgoing, incoming⟩ := holds
  cases connected : state.io.sender.connected with
  | true =>
      rw [connected, if_pos rfl] at sent
      rw [faithful, connected, if_pos rfl, takesAll_iff]
      constructor
      · intro mirrors
        have captured := mirrors.outgoing
        simp only [sent, moved, List.flatMap_append, outgoing] at captured
        simpa [CapturedPacket.outgoingData] using captured
      · intro whole
        refine ⟨?_, ?_⟩
        · simp only [sent, moved, List.flatMap_append, outgoing, ← whole]
          simp [CapturedPacket.outgoingData]
        · simp only [sent, List.flatMap_append, incoming]
          simp [CapturedPacket.incomingData]
  | false =>
      rw [connected, if_neg Bool.false_ne_true, List.append_nil] at sent
      rw [faithful, connected, if_neg Bool.false_ne_true, List.isEmpty_iff]
      constructor
      · intro mirrors
        have captured := mirrors.outgoing
        simpa only [sent, moved, outgoing,
          List.self_eq_append_right] using captured
      · intro nothing
        refine ⟨?_, ?_⟩
        · simp only [sent, moved, nothing, outgoing, List.append_nil]
        · simp only [sent, incoming]

/-- A read captures what it delivers, unless nobody takes the packet. -/
theorem mirrors_read {state : Capturing} (holds : state.Mirrors)
    (free : state.io.sender.full = false) {timestamp room : Nat}
    {inner : Poll (IoResult Bytes)} {next : Capturing}
    (taken : state.step (.read timestamp room inner) = some next) :
    next.Mirrors ↔ state.faithful (.read timestamp room inner) = true := by
  obtain ⟨outgoing, incoming⟩ := holds
  cases answer : fitRead room inner with
  | pending =>
      simp only [step, PcapIO.pollRead, answer, Option.some.injEq] at taken
      subst taken
      refine iff_of_true ⟨outgoing, ?_⟩ (by simp [faithful, answer,
        deliveredOf])
      simpa [deliveredOf] using incoming
  | ready result =>
      cases result with
      | error error =>
          simp only [step, PcapIO.pollRead, answer, Option.some.injEq] at taken
          subst taken
          refine iff_of_true ⟨outgoing, ?_⟩ (by simp [faithful, answer,
            deliveredOf])
          simpa [deliveredOf] using incoming
      | ok data =>
          cases data with
          | nil =>
              simp only [step, PcapIO.pollRead, answer,
                Option.some.injEq] at taken
              subst taken
              have unsent : (if state.io.writeClosed then
                  state.io.sender.closeChannel
                else state.io.sender).sent = state.io.sender.sent := by
                split_ifs <;> rfl
              refine iff_of_true ⟨?_, ?_⟩ (by simp [faithful, answer,
                deliveredOf])
              · rw [unsent, outgoing]
              · rw [unsent, incoming]
                simp [deliveredOf]
          | cons byte rest =>
              simp only [step, PcapIO.pollRead, answer,
                Option.some.injEq] at taken
              subst taken
              have sent :=
                sent_trySend free (.incoming timestamp (byte :: rest))
              cases connected : state.io.sender.connected with
              | true =>
                  rw [connected, if_pos rfl] at sent
                  refine iff_of_true ⟨?_, ?_⟩ (by simp [faithful, connected])
                  · rw [sent, List.flatMap_append, outgoing]
                    simp [CapturedPacket.outgoingData]
                  · rw [sent, List.flatMap_append, incoming]
                    simp [CapturedPacket.incomingData, deliveredOf]
              | false =>
                  rw [connected, if_neg Bool.false_ne_true,
                    List.append_nil] at sent
                  refine iff_of_false (fun mirrors => ?_)
                    (by simp [faithful, connected, answer, deliveredOf])
                  have captured := mirrors.incoming
                  rw [sent, incoming] at captured
                  simp [deliveredOf] at captured

/-- A call keeps the two sides equal if and only if it is faithful. -/
theorem mirrors_step (state : Capturing) (call : CaptureCall)
    (next : Capturing) (taken : state.step call = some next)
    (free : state.io.sender.full = false) (holds : state.Mirrors) :
    next.Mirrors ↔ state.faithful call = true := by
  cases call with
  | write timestamp buf inner => exact mirrors_write holds free taken
  | read timestamp room inner => exact mirrors_read holds free taken
  | flush inner =>
      cases taken
      exact iff_of_true ⟨holds.outgoing, holds.incoming⟩ rfl
  | close inner =>
      cases taken
      have unsent : (state.io.pollClose inner).1.sender.sent =
          state.io.sender.sent := by
        simp only [ PcapIO.pollClose]
        split_ifs <;> rfl
      refine iff_of_true ⟨?_, ?_⟩ rfl
      · rw [unsent, holds.outgoing]
      · rw [unsent, holds.incoming]
  | receive =>
      simp only [step] at taken
      split_ifs at taken
      cases taken
      exact iff_of_true ⟨holds.outgoing, holds.incoming⟩ rfl
  | giveUp =>
      cases taken
      exact iff_of_true ⟨holds.outgoing, holds.incoming⟩ rfl

/-- As long as the channel does not fill up, the captured packets are the
transferred bytes at all moments of a run if and only if all calls are
faithful. -/
theorem capture_mirrors_iff {calls : List CaptureCall} {final : Capturing}
    (ran : run step calls new = some final)
    (never_full : ∀ moment ∈ moments step calls new,
      moment.io.sender.full = false) :
    (∀ moment ∈ moments step calls new, moment.Mirrors) ↔
      run (restrict faithful step) calls new = some final :=
  run_restrict_iff mirrors_step ran never_full ⟨rfl, rfl⟩

/-- Both directions in turn, and a poll with nothing to write. -/
theorem capture_mirrors_iff_both_ways :
    let calls : List CaptureCall :=
      [.write 1 [7, 8] (.ready (.ok 2)), .read 2 4 (.ready (.ok [9])),
        .write 3 [] .pending, .receive, .read 4 4 .pending]
    ∃ final, run step calls new = some final ∧
      ∀ moment ∈ moments step calls new, moment.Mirrors := by
  intro calls
  have free : (moments step calls new).all
      (fun moment => !moment.io.sender.full) = true := by decide
  have never_full : ∀ moment ∈ moments step calls new,
      moment.io.sender.full = false := fun moment member => by
    simpa using List.all_eq_true.mp free moment member
  exact ⟨_, rfl, (capture_mirrors_iff rfl never_full).mpr rfl⟩

/-- A write that was pending is captured again when it is retried. -/
theorem retried_write_captured_twice :
    let calls : List CaptureCall :=
      [.write 1 [7, 8] .pending, .write 2 [7, 8] (.ready (.ok 2))]
    (∀ moment ∈ moments step calls new, moment.io.sender.full = false) ∧
    ∃ final, run step calls new = some final ∧
      final.accepted = [7, 8] ∧
      final.io.sender.sent.flatMap CapturedPacket.outgoingData =
        [7, 8, 7, 8] ∧
      ¬final.Mirrors := by
  intro calls
  have free : (moments step calls new).all
      (fun moment => !moment.io.sender.full) = true := by decide
  refine ⟨fun moment member => ?_, _, rfl, by decide, by decide, by decide⟩
  simpa using List.all_eq_true.mp free moment member

end Capturing

end HoprUtilities.Network
