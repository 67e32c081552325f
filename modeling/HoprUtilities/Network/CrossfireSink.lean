import HoprUtilities.Lib.Threads
import HoprUtilities.Lib.Transition
import HoprUtilities.Network.CopyBuffer

/-!
# The sink over a bounded channel

The embedding of `src/network_types/crossfire_sink.rs`.  Any number of clones
of one `CrossfireSink` and the receiver use the channel concurrently: each
operation on the channel is one step, so the two rounds that the loop of
`poll_ready` may take are two steps.

The channel itself is known by its documented behaviour.  `try_send` either
enqueues the item, and then there is room for it, or gives it back; the future
of `send` enqueues its item when it resolves.  Both report a disconnection only
after the receiver was dropped.  Which of the possible answers the channel
gives is part of the label of a step.
-/

namespace HoprUtilities.Network.Crossfire

open HoprUtilities.Lib

inductive CrossfireSinkError where
  | disconnected
  deriving DecidableEq, Repr

/-- `Poll<Result<(), CrossfireSinkError>>`. -/
abbrev Outcome := Poll (Except CrossfireSinkError Unit)

/-- Who enqueued an item: a `Sink` call on the clone of that number, or the
method `try_send` of some clone. -/
inductive Source where
  | sink (index : Nat)
  | direct
  deriving DecidableEq, Repr

/-- The answers of `try_send` (`Ok`, `Full`, `Disconnected`) and of the future
of `send` (`Ready(Ok)`, `Pending`, `Ready(Err)`). -/
inductive Answer where
  | accepted
  | refused
  | disconnected
  deriving DecidableEq, Repr

/-- The channel, with the items the receiver has taken out of it. -/
structure Channel (ι : Type) where
  capacity : Nat
  received : List (Source × ι)
  queue : List (Source × ι)
  connected : Bool
  deriving DecidableEq, Repr

/-- The owned future in `pending` is represented by the item it sends. -/
structure CrossfireSink (ι : Type) where
  buffered : Option ι
  pending : Option ι
  deriving DecidableEq, Repr

/-- How a round of the loop of `poll_ready` ends. -/
inductive Round where
  | again
  | returned (outcome : Outcome)
  deriving DecidableEq, Repr

section Sink

variable {ι : Type}

namespace Channel

/-- Everything that was ever enqueued. -/
def log (channel : Channel ι) : List (Source × ι) :=
  channel.received ++ channel.queue

def full (channel : Channel ι) : Bool :=
  channel.capacity ≤ channel.queue.length

/-- The channel after it has given this answer to an item. -/
def offer (channel : Channel ι) (source : Source) (item : ι) :
    Answer → Option (Channel ι)
  | .accepted =>
      if channel.full then none
      else some { channel with queue := channel.queue ++ [(source, item)] }
  | .refused => some channel
  | .disconnected => if channel.connected then none else some channel

end Channel

namespace CrossfireSink

def idle : CrossfireSink ι := { buffered := none, pending := none }

/-- The accepted items that are not in the channel. -/
def held (sink : CrossfireSink ι) : List ι :=
  sink.pending.toList ++ sink.buffered.toList

def pollReady (channel : Channel ι) (source : Source) (answer : Answer)
    (sink : CrossfireSink ι) :
    Option (Channel ι × CrossfireSink ι × Round) :=
  match sink.pending, sink.buffered with
  | some item, _ => do
      let channel ← channel.offer source item answer
      match answer with
      | .accepted =>
          return (channel, { sink with pending := none },
            .returned (.ready (.ok ())))
      | .disconnected =>
          return (channel, { sink with pending := none },
            .returned (.ready (.error .disconnected)))
      -- the future is put back
      | .refused => return (channel, sink, .returned .pending)
  | none, some item => do
      let channel ← channel.offer source item answer
      match answer with
      | .accepted =>
          return (channel, { sink with buffered := none },
            .returned (.ready (.ok ())))
      -- the item moves into a new future, which the next round polls
      | .refused =>
          return (channel, { buffered := none, pending := some item }, .again)
      | .disconnected =>
          return (channel, { sink with buffered := none },
            .returned (.ready (.error .disconnected)))
  | none, none => some (channel, sink, .returned (.ready (.ok ())))

def mayStartSend (sink : CrossfireSink ι) : Bool :=
  sink.buffered.isNone && sink.pending.isNone

def startSend (item : ι) (sink : CrossfireSink ι) : CrossfireSink ι :=
  { sink with buffered := some item }

end CrossfireSink

end Sink

/-- `poll_flush` and `poll_close` are `poll_ready` under another name. -/
inductive Method where
  | pollReady
  | pollFlush
  | pollClose
  deriving DecidableEq, Repr

/-- A clone.  `running` is the call that is between two rounds, `last` the
most recent call that returned, unless an item was accepted since; `failed`
says that some call returned `Disconnected` and `violated` that the assertion
of `start_send` failed. -/
structure Endpoint (ι : Type) where
  sink : CrossfireSink ι
  running : Option Method
  last : Option (Method × Outcome)
  failed : Bool
  violated : Bool
  accepted : List ι
  deriving DecidableEq, Repr

structure State (ι : Type) where
  channel : Channel ι
  endpoints : List (Endpoint ι)
  deriving DecidableEq, Repr

/-- The steps of the machine; `again` is the next round of a running call. -/
inductive Label (ι : Type) where
  | clone (index : Nat)
  | poll (index : Nat) (method : Method) (answer : Answer)
  | again (index : Nat) (answer : Answer)
  | startSend (index : Nat) (item : ι)
  | trySend (index : Nat) (item : ι) (answer : Answer)
  | receive
  | dropReceiver
  deriving DecidableEq, Repr

section Machine

variable {ι : Type}

namespace Endpoint

def idle : Endpoint ι :=
  { sink := .idle
    running := none
    last := none
    failed := false
    violated := false
    accepted := [] }

/-- The clone after a round of the method. -/
def conclude (endpoint : Endpoint ι) (method : Method)
    (sink : CrossfireSink ι) : Round → Endpoint ι
  | .again =>
      { endpoint with sink := sink, running := some method, last := none }
  | .returned outcome =>
      { endpoint with
        sink := sink
        running := none
        last := some (method, outcome)
        failed := endpoint.failed ||
          outcome == .ready (.error .disconnected) }

/-- The contract of `Sink`: an item is only sent directly after a `poll_ready`
that returned `Ready(Ok)`. -/
def ready (endpoint : Endpoint ι) : Bool :=
  endpoint.running == none &&
    endpoint.last == some (.pollReady, .ready (.ok ()))

def startSend (item : ι) (endpoint : Endpoint ι) : Endpoint ι :=
  { endpoint with
    sink := endpoint.sink.startSend item
    last := none
    violated := endpoint.violated || !endpoint.sink.mayStartSend
    accepted := endpoint.accepted ++ [item] }

end Endpoint

def boundedSinkChannel (capacity : Nat) : State ι :=
  { channel :=
      { capacity := capacity, received := [], queue := [], connected := true }
    endpoints := [.idle] }

namespace State

/-- A round of the method on the clone at `index`. -/
def round (state : State ι) (index : Nat) (endpoint : Endpoint ι)
    (method : Method) (answer : Answer) : Option (State ι) := do
  let (channel, sink, round) ←
    endpoint.sink.pollReady state.channel (.sink index) answer
  return {
    channel := channel
    endpoints :=
      state.endpoints.set index (endpoint.conclude method sink round) }

def step (state : State ι) : Label ι → Option (State ι)
  | .clone index => do
      let _ ← state.endpoints[index]?
      return { state with endpoints := state.endpoints ++ [.idle] }
  | .poll index method answer => do
      let endpoint ← state.endpoints[index]?
      if endpoint.running.isSome then none
      else state.round index endpoint method answer
  | .again index answer => do
      let endpoint ← state.endpoints[index]?
      let method ← endpoint.running
      state.round index endpoint method answer
  | .startSend index item => do
      let endpoint ← state.endpoints[index]?
      if endpoint.ready then
        return { state with
          endpoints := state.endpoints.set index (endpoint.startSend item) }
      else none
  | .trySend index item answer => do
      let _ ← state.endpoints[index]?
      let channel ← state.channel.offer .direct item answer
      return { state with channel := channel }
  | .receive =>
      match state.channel.queue, state.channel.connected with
      | entry :: rest, true =>
          some { state with
            channel := { state.channel with
              received := state.channel.received ++ [entry]
              queue := rest } }
      | _, _ => none
  | .dropReceiver =>
      some { state with
        channel := { state.channel with connected := false } }

end State

end Machine

section Inversion

variable {ι : Type}

/-- The channel before and after an item was offered to it. -/
inductive Offered (channel : Channel ι) (source : Source) (item : ι) :
    Answer → Channel ι → Prop where
  | accepted (room : channel.full = false) :
      Offered channel source item .accepted
        { channel with queue := channel.queue ++ [(source, item)] }
  | refused : Offered channel source item .refused channel
  | disconnected (gone : channel.connected = false) :
      Offered channel source item .disconnected channel

theorem offered_of_offer {channel after : Channel ι} {source : Source}
    {item : ι} {answer : Answer}
    (answered : channel.offer source item answer = some after) :
    Offered channel source item answer after := by
  cases answer with
  | accepted =>
      simp only [Channel.offer] at answered
      split_ifs at answered with full
      cases answered
      exact .accepted (by simpa using full)
  | refused =>
      cases answered
      exact .refused
  | disconnected =>
      simp only [Channel.offer] at answered
      split_ifs at answered with connected
      cases answered
      exact .disconnected (by simpa using connected)

inductive RoundStep (channel : Channel ι) (source : Source)
    (sink : CrossfireSink ι) :
    Channel ι → CrossfireSink ι → Round → Prop where
  | idle (future : sink.pending = none) (empty : sink.buffered = none) :
      RoundStep channel source sink channel sink (.returned (.ready (.ok ())))
  | sent {item : ι} (future : sink.pending = some item)
      (room : channel.full = false) :
      RoundStep channel source sink
        { channel with queue := channel.queue ++ [(source, item)] }
        { sink with pending := none } (.returned (.ready (.ok ())))
  | waits {item : ι} (future : sink.pending = some item) :
      RoundStep channel source sink channel sink (.returned .pending)
  | sendFailed {item : ι} (future : sink.pending = some item)
      (gone : channel.connected = false) :
      RoundStep channel source sink channel { sink with pending := none }
        (.returned (.ready (.error .disconnected)))
  | placed {item : ι} (future : sink.pending = none)
      (buffered : sink.buffered = some item) (room : channel.full = false) :
      RoundStep channel source sink
        { channel with queue := channel.queue ++ [(source, item)] }
        { sink with buffered := none } (.returned (.ready (.ok ())))
  | parks {item : ι} (future : sink.pending = none)
      (buffered : sink.buffered = some item) :
      RoundStep channel source sink channel
        { buffered := none, pending := some item } .again
  | trySendFailed {item : ι} (future : sink.pending = none)
      (buffered : sink.buffered = some item)
      (gone : channel.connected = false) :
      RoundStep channel source sink channel { sink with buffered := none }
        (.returned (.ready (.error .disconnected)))

theorem roundStep_of_pollReady {channel after : Channel ι} {source : Source}
    {answer : Answer} {sink next : CrossfireSink ι} {round : Round}
    (taken : sink.pollReady channel source answer =
      some (after, next, round)) :
    RoundStep channel source sink after next round := by
  unfold CrossfireSink.pollReady at taken
  split at taken
  · next item _ future =>
      obtain ⟨given, answered, rest⟩ := Option.bind_eq_some_iff.mp taken
      cases offered_of_offer answered with
      | accepted room =>
          cases rest
          exact .sent future room
      | refused =>
          cases rest
          exact .waits future
      | disconnected gone =>
          cases rest
          exact .sendFailed future gone
  · next item future buffered =>
      obtain ⟨given, answered, rest⟩ := Option.bind_eq_some_iff.mp taken
      cases offered_of_offer answered with
      | accepted room =>
          cases rest
          exact .placed future buffered room
      | refused =>
          cases rest
          exact .parks future buffered
      | disconnected gone =>
          cases rest
          exact .trySendFailed future buffered gone
  · next future buffered =>
      cases taken
      exact .idle future buffered

/-- The clone on which a step is a round of `poll_ready`. -/
def Label.polls : Label ι → Option Nat
  | .poll index _ _ => some index
  | .again index _ => some index
  | _ => none

/-- The step is a round of the method: the first one of a new call, or the
next one of a running call. -/
inductive Enters (endpoint : Endpoint ι) (index : Nat) (method : Method) :
    Label ι → Prop where
  | poll (answer : Answer) :
      Enters endpoint index method (.poll index method answer)
  | again {answer : Answer} (running : endpoint.running = some method) :
      Enters endpoint index method (.again index answer)

inductive StateStep (state : State ι) : Label ι → State ι → Prop where
  | clone {index : Nat} {endpoint : Endpoint ι}
      (current : state.endpoints[index]? = some endpoint) :
      StateStep state (.clone index)
        { state with endpoints := state.endpoints ++ [.idle] }
  | round {label : Label ι} {index : Nat} {endpoint : Endpoint ι}
      {method : Method} {channel : Channel ι} {sink : CrossfireSink ι}
      {round : Round} (enters : Enters endpoint index method label)
      (current : state.endpoints[index]? = some endpoint)
      (step : RoundStep state.channel (.sink index) endpoint.sink channel sink
        round) :
      StateStep state label
        { channel := channel
          endpoints :=
            state.endpoints.set index (endpoint.conclude method sink round) }
  | startSend {index : Nat} {item : ι} {endpoint : Endpoint ι}
      (current : state.endpoints[index]? = some endpoint)
      (ready : endpoint.last = some (.pollReady, .ready (.ok ()))) :
      StateStep state (.startSend index item)
        { state with
          endpoints := state.endpoints.set index (endpoint.startSend item) }
  | trySend {index : Nat} {item : ι} {answer : Answer} {channel : Channel ι}
      (offered : Offered state.channel .direct item answer channel) :
      StateStep state (.trySend index item answer)
        { state with channel := channel }
  | receive {entry : Source × ι} {rest : List (Source × ι)}
      (first : state.channel.queue = entry :: rest)
      (connected : state.channel.connected = true) :
      StateStep state .receive
        { state with
          channel := { state.channel with
            received := state.channel.received ++ [entry]
            queue := rest } }
  | dropReceiver :
      StateStep state .dropReceiver
        { state with channel := { state.channel with connected := false } }

theorem stateStep_of_round {state next : State ι} {label : Label ι}
    {index : Nat} {endpoint : Endpoint ι} {method : Method} {answer : Answer}
    (enters : Enters endpoint index method label)
    (current : state.endpoints[index]? = some endpoint)
    (taken : state.round index endpoint method answer = some next) :
    StateStep state label next := by
  obtain ⟨⟨channel, sink, round⟩, polled, ended⟩ :=
    Option.bind_eq_some_iff.mp taken
  cases ended
  exact .round enters current (roundStep_of_pollReady polled)

theorem stateStep_of_step {state next : State ι} {label : Label ι}
    (taken : state.step label = some next) : StateStep state label next := by
  cases label with
  | clone index =>
      obtain ⟨endpoint, current, ended⟩ := Option.bind_eq_some_iff.mp taken
      cases ended
      exact .clone current
  | poll index method answer =>
      obtain ⟨endpoint, current, rest⟩ := Option.bind_eq_some_iff.mp taken
      split_ifs at rest
      exact stateStep_of_round (.poll answer) current rest
  | again index answer =>
      obtain ⟨endpoint, current, rest⟩ := Option.bind_eq_some_iff.mp taken
      obtain ⟨method, running, rest⟩ := Option.bind_eq_some_iff.mp rest
      exact stateStep_of_round (.again running) current rest
  | startSend index item =>
      obtain ⟨endpoint, current, rest⟩ := Option.bind_eq_some_iff.mp taken
      split_ifs at rest with ready
      cases rest
      simp only [Endpoint.ready, Bool.and_eq_true, beq_iff_eq] at ready
      exact .startSend current ready.2
  | trySend index item answer =>
      obtain ⟨_, _, rest⟩ := Option.bind_eq_some_iff.mp taken
      obtain ⟨channel, answered, ended⟩ := Option.bind_eq_some_iff.mp rest
      cases ended
      exact .trySend (offered_of_offer answered)
  | receive =>
      simp only [State.step] at taken
      split at taken
      · next entry rest first connected =>
          cases taken
          exact .receive first connected
      · cases taken
  | dropReceiver =>
      cases taken
      exact .dropReceiver

end Inversion

end HoprUtilities.Network.Crossfire
