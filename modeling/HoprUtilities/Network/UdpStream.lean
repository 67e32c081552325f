import HoprUtilities.Lib.Threads
import HoprUtilities.Lib.Transition
import HoprUtilities.Network.CopyBuffer

/-!
# The tasks of a connected UDP stream

The embedding of `setup_rx_queue` and `setup_tx_queue` of
`src/network_types/udp.rs`.  The receiver and sender tasks of one stream share
the counterparty, a `OnceLock`, and the two queues; every operation on one of
them is one step, and the steps of all tasks interleave in any order.

What a socket receives is part of the label of a step.  A queue may be bounded:
a task that has to wait for room is one that does not move, so the size of the
queues is left open.  Addresses are compared as `SocketAddr`; the cached text
of a `SocketAddrStr` is never looked at.
-/

namespace HoprUtilities.Network.Udp

open HoprUtilities.Lib

inductive ForeignDataMode where
  | discard
  | accept
  | error
  deriving DecidableEq, Repr

/-- The kinds of error this module makes, by their numbers. -/
def connectionRefused : ErrorKind := .other 111

def notConnected : ErrorKind := .other 107

def foreignData : IoError :=
  .message connectionRefused "data from foreign client not allowed"

structure Datagram (α : Type) where
  source : α
  payload : Bytes
  deriving DecidableEq, Repr

/-- What `recv_from` returns to a buffer of any size. -/
inductive Arrival (α : Type) where
  | datagram (datagram : Datagram α)
  | failed (error : IoError)
  deriving DecidableEq, Repr

/-- The part of a datagram that fits into the buffer. -/
def Datagram.read {α : Type} (bufSize : Nat) (datagram : Datagram α) : Bytes :=
  datagram.payload.take bufSize

/-- The places of a receiver task.  Between `recv_from` and the dispatch it
looks at the counterparty. -/
inductive RxPc (α : Type) where
  | receiving
  | resolving (source : α) (data : Bytes)
  | dispatching (out : IoResult Bytes) (done : Bool)
  | finished
  deriving DecidableEq, Repr

section Receiver

variable {α : Type} [DecidableEq α]

/-- The place after `recv_from` has returned. -/
def RxPc.received (bufSize : Nat) : Arrival α → RxPc α
  | .datagram datagram =>
      let data := datagram.read bufSize
      -- an empty read is taken for the end of the file
      if data.isEmpty then .finished else .resolving datagram.source data
  | .failed error => .dispatching (.error error) true

/-- The place after `get_or_init` has returned the counterparty. -/
def RxPc.resolved (mode : ForeignDataMode) (counterparty source : α)
    (data : Bytes) : RxPc α :=
  if source == counterparty || mode == .accept then
    .dispatching (.ok data) false
  else
    match mode with
    | .discard | .accept => .receiving
    | .error => .dispatching (.error foreignData) true

/-- The place after the dispatch, which fails if the queue is closed. -/
def RxPc.dispatched (done sent : Bool) : RxPc α :=
  if done || !sent then .finished else .receiving

/-- The loop of a receiver task on the datagrams that arrive, while the
counterparty is set and the queue is open: the items it puts on the queue, and
whether it is still running. -/
def rxLoop (mode : ForeignDataMode) (bufSize : Nat) (counterparty : α) :
    List (Datagram α) → List (IoResult Bytes) × Bool
  | [] => ([], true)
  | datagram :: rest =>
      match RxPc.received bufSize (.datagram datagram) with
      | .resolving source data =>
          match RxPc.resolved mode counterparty source data with
          | .dispatching out done =>
              match (RxPc.dispatched done true : RxPc α) with
              | .receiving =>
                  let later := rxLoop mode bufSize counterparty rest
                  (out :: later.1, later.2)
              | _ => ([out], false)
          | _ => rxLoop mode bufSize counterparty rest
      | _ => ([], false)

end Receiver

/-- A receiver task with what its socket has received. -/
structure RxTask (α : Type) where
  heard : List (Arrival α)
  pc : RxPc α
  deriving DecidableEq, Repr

inductive TxPc (α : Type) where
  | waiting
  | resolving (data : Bytes)
  | sending (data : Bytes) (target : α)
  | finished
  deriving DecidableEq, Repr

/-- What the builder fixes for all tasks. -/
structure Setup (α : Type) where
  counterparty : Option α
  mode : ForeignDataMode
  bufSize : Nat
  deriving DecidableEq, Repr

/-- `ingress` and `sent` keep everything that was ever put on the ingress
queue and handed to `send_to`, with the number of the task. -/
structure State (α : Type) where
  counterparty : Option α
  receivers : List (RxTask α)
  senders : List (TxPc α)
  ingress : List (Nat × IoResult Bytes)
  egress : List Bytes
  egressClosed : Bool
  sent : List (Nat × α × Bytes)
  aborted : Bool
  deriving DecidableEq, Repr

/-- The steps of the machine: those of the receiver tasks, those of the sender
tasks, and those of the owner of the stream. -/
inductive Label (α : Type) where
  | receive (index : Nat) (arrival : Arrival α)
  | resolve (index : Nat)
  | dispatch (index : Nat) (sent : Bool)
  | take (index : Nat)
  | disconnected (index : Nat)
  | target (index : Nat)
  | transmitted (index : Nat)
  | write (data : Bytes)
  | close
  | abort
  | cancelReceiver (index : Nat)
  | cancelSender (index : Nat)
  deriving DecidableEq, Repr

section Machine

variable {α : Type} [DecidableEq α]

def RxTask.start : RxTask α := { heard := [], pc := .receiving }

def RxTask.goto (task : RxTask α) (pc : RxPc α) : RxTask α :=
  { task with pc := pc }

/-- An await point of the receiver task. -/
def RxPc.awaits : RxPc α → Bool
  | .receiving | .dispatching _ _ => true
  | _ => false

/-- An await point of the sender task. -/
def TxPc.awaits : TxPc α → Bool
  | .waiting | .sending _ _ => true
  | _ => false

namespace State

/-- The stream with all its tasks spawned. -/
def start (setup : Setup α) (receivers senders : Nat) : State α :=
  { counterparty := setup.counterparty
    receivers := List.replicate receivers .start
    senders := List.replicate senders .waiting
    ingress := []
    egress := []
    egressClosed := false
    sent := []
    aborted := false }

def setReceiver (state : State α) (index : Nat) (task : RxTask α) : State α :=
  { state with receivers := state.receivers.set index task }

def setSender (state : State α) (index : Nat) (pc : TxPc α) : State α :=
  { state with senders := state.senders.set index pc }

def rxStep (setup : Setup α) (state : State α) (index : Nat)
    (task : RxTask α) : Label α → Option (State α)
  | .receive _ arrival =>
      match task.pc with
      | .receiving =>
          some (state.setReceiver index
            { heard := task.heard ++ [arrival]
              pc := RxPc.received setup.bufSize arrival })
      | _ => none
  | .resolve _ =>
      match task.pc with
      | .resolving source data =>
          let counterparty := state.counterparty.getD source
          some
            { state.setReceiver index
                (task.goto (RxPc.resolved setup.mode counterparty source data))
              with counterparty := some counterparty }
      | _ => none
  | .dispatch _ sent =>
      match task.pc with
      | .dispatching out done =>
          some
            { state.setReceiver index (task.goto (RxPc.dispatched done sent))
              with
              ingress :=
                if sent then state.ingress ++ [(index, out)]
                else state.ingress }
      | _ => none
  | .cancelReceiver _ =>
      if state.aborted && task.pc.awaits then
        some (state.setReceiver index (task.goto .finished))
      else none
  | _ => none

def txStep (state : State α) (index : Nat) (pc : TxPc α) :
    Label α → Option (State α)
  | .take _ =>
      match pc, state.egress with
      | .waiting, data :: rest =>
          some { state.setSender index (.resolving data) with egress := rest }
      | _, _ => none
  | .disconnected _ =>
      match pc, state.egress, state.egressClosed with
      | .waiting, [], true => some (state.setSender index .finished)
      | _, _, _ => none
  | .target _ =>
      match pc, state.counterparty with
      | .resolving data, some target =>
          some
            { state.setSender index (.sending data target) with
              sent := state.sent ++ [(index, target, data)] }
      -- "cannot send data, counterparty not set"
      | .resolving _, none => some (state.setSender index .finished)
      | _, _ => none
  | .transmitted _ =>
      match pc with
      | .sending _ _ => some (state.setSender index .waiting)
      | _ => none
  | .cancelSender _ =>
      if state.aborted && pc.awaits then
        some (state.setSender index .finished)
      else none
  | _ => none

def step (setup : Setup α) (state : State α) (label : Label α) :
    Option (State α) :=
  match label with
  | .receive index _ | .resolve index | .dispatch index _
  | .cancelReceiver index => do
      let task ← state.receivers[index]?
      state.rxStep setup index task label
  | .take index | .disconnected index | .target index | .transmitted index
  | .cancelSender index => do
      let pc ← state.senders[index]?
      state.txStep index pc label
  | .write data =>
      if state.egressClosed then none
      else some { state with egress := state.egress ++ [data] }
  | .close => some { state with egressClosed := true }
  | .abort => some { state with aborted := true }

end State

end Machine

section Inversion

variable {α : Type} [DecidableEq α]

/-- The moves of a receiver task, with the counterparty after the move and
what is put on the queue. -/
inductive RxMove (setup : Setup α) (lock : Option α) (task : RxTask α) :
    Option α → RxTask α → Option (IoResult Bytes) → Prop where
  | receive (place : task.pc = .receiving) (arrival : Arrival α) :
      RxMove setup lock task lock
        { heard := task.heard ++ [arrival]
          pc := RxPc.received setup.bufSize arrival } none
  | resolve {source : α} {data : Bytes}
      (place : task.pc = .resolving source data) :
      RxMove setup lock task (some (lock.getD source))
        (task.goto
          (RxPc.resolved setup.mode (lock.getD source) source data)) none
  | sent {out : IoResult Bytes} {done : Bool}
      (place : task.pc = .dispatching out done) :
      RxMove setup lock task lock (task.goto (RxPc.dispatched done true))
        (some out)
  | closed {out : IoResult Bytes} {done : Bool}
      (place : task.pc = .dispatching out done) :
      RxMove setup lock task lock (task.goto .finished) none
  | cancelled (awaits : task.pc.awaits = true) :
      RxMove setup lock task lock (task.goto .finished) none

/-- The moves of a sender task, with what is handed to `send_to`. -/
inductive TxMove (lock : Option α) :
    TxPc α → TxPc α → Option (α × Bytes) → Prop where
  | take (data : Bytes) : TxMove lock .waiting (.resolving data) none
  | disconnected : TxMove lock .waiting .finished none
  | target {target : α} (data : Bytes) (set : lock = some target) :
      TxMove lock (.resolving data) (.sending data target)
        (some (target, data))
  | unset (data : Bytes) (unset : lock = none) :
      TxMove lock (.resolving data) .finished none
  | transmitted (data : Bytes) (target : α) :
      TxMove lock (.sending data target) .waiting none
  | cancelled {pc : TxPc α} (awaits : pc.awaits = true) :
      TxMove lock pc .finished none

inductive StateStep (setup : Setup α) (state : State α) : State α → Prop where
  | receiver {index : Nat} {task next : RxTask α} {lock : Option α}
      {put : Option (IoResult Bytes)}
      (current : state.receivers[index]? = some task)
      (move : RxMove setup state.counterparty task lock next put) :
      StateStep setup state
        { state with
          counterparty := lock
          receivers := state.receivers.set index next
          ingress := state.ingress ++ put.toList.map (fun out => (index, out)) }
  | sender {index : Nat} {pc next : TxPc α} {sends : Option (α × Bytes)}
      {egress : List Bytes} (current : state.senders[index]? = some pc)
      (move : TxMove state.counterparty pc next sends) :
      StateStep setup state
        { state with
          senders := state.senders.set index next
          egress := egress
          sent := state.sent ++ sends.toList.map (fun send => (index, send)) }
  | owner (egress : List Bytes) (closed aborted : Bool) :
      StateStep setup state
        { state with
          egress := egress
          egressClosed := closed
          aborted := aborted }

theorem stateStep_of_rxStep {setup : Setup α} {state next : State α}
    {index : Nat} {task : RxTask α} {label : Label α}
    (current : state.receivers[index]? = some task)
    (taken : state.rxStep setup index task label = some next) :
    StateStep setup state next := by
  cases label with
  | receive _ arrival =>
      simp only [State.rxStep] at taken
      split at taken
      · next place =>
          cases taken
          simpa [State.setReceiver] using
            StateStep.receiver current (.receive place arrival)
      · cases taken
  | resolve _ =>
      simp only [State.rxStep] at taken
      split at taken
      · next source data place =>
          cases taken
          simpa [State.setReceiver] using
            StateStep.receiver current (.resolve place)
      · cases taken
  | dispatch _ sent =>
      simp only [State.rxStep] at taken
      split at taken
      · next out done place =>
          cases taken
          cases sent with
          | true => exact .receiver current (.sent place)
          | false =>
              simpa [State.setReceiver, RxPc.dispatched] using
                StateStep.receiver current (.closed place)
      · cases taken
  | cancelReceiver _ =>
      simp only [State.rxStep] at taken
      split_ifs at taken with awaits
      cases taken
      simp only [Bool.and_eq_true] at awaits
      simpa [State.setReceiver] using
        StateStep.receiver current (.cancelled awaits.2)
  | take | disconnected | target | transmitted | write | close | abort
  | cancelSender => cases taken

theorem stateStep_of_txStep {setup : Setup α} {state next : State α}
    {index : Nat} {pc : TxPc α} {label : Label α}
    (current : state.senders[index]? = some pc)
    (taken : state.txStep index pc label = some next) :
    StateStep setup state next := by
  -- a move that sends nothing
  have silent : ∀ {after : TxPc α} (egress : List Bytes),
      TxMove state.counterparty pc after none →
      StateStep setup state
        { state.setSender index after with egress := egress } := by
    intro after egress move
    simpa [State.setSender] using StateStep.sender current move
  cases label with
  | take _ =>
      simp only [State.txStep] at taken
      split at taken
      · next data rest available =>
          cases taken
          exact silent rest (.take data)
      · cases taken
  | disconnected _ =>
      simp only [State.txStep] at taken
      split at taken
      · cases taken
        exact silent state.egress .disconnected
      · cases taken
  | target _ =>
      simp only [State.txStep] at taken
      split at taken
      · next data target set =>
          cases taken
          exact .sender current (.target data set)
      · next data unset =>
          cases taken
          exact silent state.egress (.unset data unset)
      · cases taken
  | transmitted _ =>
      simp only [State.txStep] at taken
      split at taken
      · next data target =>
          cases taken
          exact silent state.egress (.transmitted data target)
      · cases taken
  | cancelSender _ =>
      simp only [State.txStep] at taken
      split_ifs at taken with awaits
      cases taken
      simp only [Bool.and_eq_true] at awaits
      exact silent state.egress (.cancelled awaits.2)
  | receive | resolve | dispatch | write | close | abort
  | cancelReceiver => cases taken

theorem stateStep_of_step {setup : Setup α} {state next : State α}
    {label : Label α} (taken : state.step setup label = some next) :
    StateStep setup state next := by
  cases label with
  | receive | resolve | dispatch | cancelReceiver =>
      obtain ⟨task, current, rest⟩ := Option.bind_eq_some_iff.mp taken
      exact stateStep_of_rxStep current rest
  | take | disconnected | target | transmitted | cancelSender =>
      obtain ⟨pc, current, rest⟩ := Option.bind_eq_some_iff.mp taken
      exact stateStep_of_txStep current rest
  | write data =>
      simp only [State.step] at taken
      split_ifs at taken
      cases taken
      exact .owner (state.egress ++ [data]) state.egressClosed state.aborted
  | close =>
      cases taken
      exact .owner state.egress true state.aborted
  | abort =>
      cases taken
      exact .owner state.egress state.egressClosed true

end Inversion

end HoprUtilities.Network.Udp
