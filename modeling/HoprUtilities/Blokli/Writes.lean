import HoprUtilities.Blokli.ChannelEvents
import HoprUtilities.Blokli.Faults
import HoprUtilities.Lib.Threads

/-!
# Writes under injected faults

The embedding of `open_channel`, `fund_channel` and `close_channel` from
`src/testing/blokli/connector.rs` with their `track_confirmation`, for any
number of calls.  A call passes the gate of its operation, reads the cache to
prepare a transaction, hands it to the client, and returns a confirmation,
which waits for the cache and then for the faults of confirmations.  Meanwhile
the test changes the faults, the background task writes the cache, the chain
executes or refuses what has been submitted, and callers drop what they hold.

The payload generator and the client are in other crates: they are fields of
the `Writer`.  An `Honest` client answers with success only when the chain has
executed the transaction, and with an error when it will not; a transaction
that has been handed over may still be executed after its call has been
dropped.
-/

namespace HoprUtilities.Blokli

open HoprUtilities.Lib
open HoprUtilities.Blokli.Connector

variable {κ μ : Type}

inductive WriteRequest where
  | openChannel (dst : Address) (amount : Nat)
  | fundChannel (channelId : ChannelId) (amount : Nat)
  | closeChannel (channelId : ChannelId)
  deriving DecidableEq

def WriteRequest.op : WriteRequest → ChainOp
  | .openChannel _ _ => .openChannel
  | .fundChannel _ _ => .fundChannel
  | .closeChannel _ => .closeChannel

/-- What the payload generator is asked for. -/
inductive Payload where
  | fundChannel (dest : Address) (amount : Nat)
  | initiateOutgoingChannelClosure (dest : Address)
  | finalizeOutgoingChannelClosure (dest : Address)
  deriving DecidableEq

/-- The predicate on the cached channel that a confirmation waits for. -/
inductive Awaited where
  | opened
  | balance (fundedTo : Nat)
  | moved (previousStatus : Connector.ChannelStatus)
  deriving DecidableEq

def Awaited.holds (channel : ChannelEntry) : Awaited → Bool
  | .opened => channel.status = .opened
  | .balance fundedTo => fundedTo ≤ channel.balance
  | .moved previousStatus => channel.status ≠ previousStatus

inductive WriteError where
  | injected (op : ChainOp)
  | notConnected
  | notFound (channelId : ChannelId)
  | alreadyClosed (channelId : ChannelId)
  | payload (error : String)
  | submission (error : String)
  deriving DecidableEq

def WriteError.text (display : ChannelId → String) : WriteError → String
  | .injected op => injectedFault op
  | .notConnected => "connector not connected"
  | .notFound channelId => "channel " ++ display channelId ++ " not found"
  | .alreadyClosed channelId =>
      "channel " ++ display channelId ++ " is already closed"
  | .payload error | .submission error => error

/-- A transaction, and what its confirmation will look for. -/
structure Prepared where
  payload : Payload
  channelId : ChannelId
  awaits : Awaited
  deriving DecidableEq

/-- The client, with the chain behind it.  A transaction is known by the index
of its call. -/
structure Client (κ μ : Type) where
  submit : κ → Nat → κ
  /-- What the client and the chain do by themselves. -/
  work : κ → μ → Option κ
  answer : κ → Nat → Option (Except String Unit)

/-- The transactions that were handed over.  The chain has not looked at those
in the `pool`. -/
structure Mempool where
  pool : List Nat
  executed : List Nat
  refused : List (Nat × String)
  deriving DecidableEq

namespace Mempool

def empty : Mempool where
  pool := []
  executed := []
  refused := []

def submit (self : Mempool) (index : Nat) : Mempool :=
  { self with pool := self.pool ++ [index] }

def execute (self : Mempool) (index : Nat) : Mempool :=
  { self with
    pool := self.pool.erase index, executed := self.executed ++ [index] }

def refuse (self : Mempool) (index : Nat) (error : String) : Mempool :=
  { self with
    pool := self.pool.erase index
    refused := self.refused ++ [(index, error)] }

/-- The chain looks at one transaction at most. -/
inductive Looks (before : Mempool) : Mempool → Prop where
  | idle : Looks before before
  | executes {index : Nat} (pending : index ∈ before.pool) :
      Looks before (before.execute index)
  | refuses {index : Nat} (error : String) (pending : index ∈ before.pool) :
      Looks before (before.refuse index error)

end Mempool

/-- The client executes or refuses what it was handed, each transaction once,
and answers accordingly. -/
structure Client.Honest (client : Client κ μ) (mempool : κ → Mempool) :
    Prop where
  submit : ∀ chain index,
    mempool (client.submit chain index) = (mempool chain).submit index
  work : ∀ {chain move next}, client.work chain move = some next →
    (mempool chain).Looks (mempool next)
  executed : ∀ {chain index}, client.answer chain index = some (.ok ()) →
    index ∈ (mempool chain).executed
  refused : ∀ {chain index error},
    client.answer chain index = some (.error error) →
    (index, error) ∈ (mempool chain).refused

/-- A connector, as far as its writes depend on it.  `generator` is the error
with which the payload generator refuses a payload. -/
structure Writer (κ μ : Type) where
  reader : Reader
  myAddr : Address
  connected : Bool
  generator : Payload → Option String
  client : Client κ μ

namespace Writer

variable (self : Writer κ μ) (channels : IndexMap ChannelId ChannelEntry)

def generate (payload : Payload) : Except WriteError Payload :=
  if self.connected then
    match self.generator payload with
    | some error => .error (.payload error)
    | none => .ok payload
  else .error .notConnected

def find (channelId : ChannelId) : Except WriteError ChannelEntry :=
  match channels.get? channelId with
  | some channel => .ok channel
  | none => .error (.notFound channelId)

/-- The step of the closure that comes next. -/
def closure (channelId : ChannelId) (channel : ChannelEntry) :
    Except WriteError Payload :=
  match channel.status with
  | .opened =>
      self.generate (.initiateOutgoingChannelClosure channel.destination)
  | .pendingToClose _ =>
      self.generate (.finalizeOutgoingChannelClosure channel.destination)
  | .closed => .error (.alreadyClosed channelId)

/-- From the gate to the submission. -/
def prepare : WriteRequest → Except WriteError Prepared
  | .openChannel dst amount => do
      let payload ← self.generate (.fundChannel dst amount)
      return ⟨payload, self.reader.generateChannelId self.myAddr dst, .opened⟩
  | .fundChannel channelId amount => do
      let channel ← find channels channelId
      let payload ← self.generate (.fundChannel channel.destination amount)
      return ⟨payload, channelId, .balance (channel.balance + amount)⟩
  | .closeChannel channelId => do
      let channel ← find channels channelId
      let payload ← self.closure channelId channel
      return ⟨payload, channelId, .moved channel.status⟩

end Writer

/-- Where a call is, or where its confirmation is. -/
inductive WritePhase where
  /-- The call has not been polled. -/
  | called
  /-- The gate has counted the call. -/
  | counted
  /-- The gate never returns. -/
  | hung
  | passed
  | submitted (prepared : Prepared)
  | returned (error : WriteError)
  /-- The confirmation waits for the cache. -/
  | watching (prepared : Prepared)
  /-- It has stopped waiting. -/
  | seen
  /-- The confirmation never resolves. -/
  | silent
  | confirmed
  | unconfirmed (error : WriteError)
  deriving DecidableEq

/-- A call that has been dropped stays in the phase in which it was. -/
structure WriteCall where
  request : WriteRequest
  phase : WritePhase
  dropped : Bool
  deriving DecidableEq

structure WriteState (κ : Type) where
  faults : ChainFaults
  channels : IndexMap ChannelId ChannelEntry
  calls : List WriteCall
  chain : κ

inductive WriteStep (μ : Type) where
  | change (change : FaultChange)
  /-- The background task writes a channel into the cache. -/
  | cache (channel : ChannelEntry)
  | call (request : WriteRequest)
  /-- The two steps of `gate`. -/
  | record (index : Nat)
  | resolve (index : Nat)
  | submit (index : Nat)
  | work (move : μ)
  /-- The client answers. -/
  | respond (index : Nat)
  | catchUp (index : Nat)
  | expire (index : Nat)
  | confirm (index : Nat)
  | drop (index : Nat)
  deriving DecidableEq

def WriteStep.caller? : WriteStep μ → Option Nat
  | .record index | .resolve index | .submit index | .respond index
  | .catchUp index | .expire index | .confirm index | .drop index => some index
  | _ => none

/-- A future is dropped between two polls only. -/
def WritePhase.suspended : WritePhase → Bool
  | .called | .hung | .submitted _ | .watching _ | .silent => true
  | _ => false

namespace WriteState

variable (writer : Writer κ μ)

def begin (faults : ChainFaults) (channels : IndexMap ChannelId ChannelEntry)
    (chain : κ) : WriteState κ where
  faults := faults
  channels := channels
  calls := []
  chain := chain

def setPhase (self : WriteState κ) (index : Nat) (call : WriteCall)
    (phase : WritePhase) : WriteState κ :=
  { self with calls := self.calls.set index { call with phase := phase } }

/-- What a call does next by itself. -/
def advance (self : WriteState κ) (index : Nat) (call : WriteCall) :
    WriteStep μ → Option (WriteState κ)
  | .record _ =>
      if call.phase = .called then
        some { self.setPhase index call .counted with
          faults := self.faults.record call.request.op }
      else none
  | .resolve _ =>
      if call.phase = .counted then
        some (self.setPhase index call
          (match self.faults.gate call.request.op with
          | .normal => .passed
          | .failed _ => .returned (.injected call.request.op)
          | .never => .hung))
      else none
  | .submit _ =>
      if call.phase = .passed then
        match writer.prepare self.channels call.request with
        | .error error => some (self.setPhase index call (.returned error))
        | .ok prepared =>
            some { self.setPhase index call (.submitted prepared) with
              chain := writer.client.submit self.chain index }
      else none
  | .respond _ =>
      match call.phase with
      | .submitted prepared =>
          (writer.client.answer self.chain index).map fun
            | .ok () => self.setPhase index call (.watching prepared)
            | .error error =>
                self.setPhase index call (.returned (.submission error))
      | _ => none
  | .catchUp _ =>
      match call.phase with
      | .watching prepared =>
          if (self.channels.get? prepared.channelId).any
              (prepared.awaits.holds ·) then
            some (self.setPhase index call .seen)
          else none
      | _ => none
  | .expire _ =>
      match call.phase with
      | .watching _ => some (self.setPhase index call .seen)
      | _ => none
  | .confirm _ =>
      if call.phase = .seen then
        some (self.setPhase index call
          (match self.faults.confirm call.request.op with
          | .normal => .confirmed
          | .failed _ => .unconfirmed (.injected call.request.op)
          | .never => .silent))
      else none
  | .drop _ =>
      if call.phase.suspended then
        some { self with
          calls := self.calls.set index { call with dropped := true } }
      else none
  | _ => none

/-- The step of a call that has not been dropped. -/
def advanceAt (self : WriteState κ) (index : Nat) (label : WriteStep μ) :
    Option (WriteState κ) := do
  let call ← self.calls[index]?
  if call.dropped then none else self.advance writer index call label

def step (self : WriteState κ) : WriteStep μ → Option (WriteState κ)
  | .change change => some { self with faults := self.faults.change change }
  | .cache channel =>
      some { self with
        channels := self.channels.put (channel.getId writer.reader) channel }
  | .call request =>
      some { self with calls := self.calls ++ [⟨request, .called, false⟩] }
  | .work move =>
      (writer.client.work self.chain move).map fun chain =>
        { self with chain := chain }
  | label => do
      let index ← label.caller?
      self.advanceAt writer index label

end WriteState

/-- The phase that a call leaves, and the one that it comes to, without a look
at the transactions. -/
inductive Progresses (writer : Writer κ μ) (state : WriteState κ)
    (request : WriteRequest) : WritePhase → WritePhase → Prop where
  | counted : Progresses writer state request .called .counted
  | passed (gate : state.faults.gate request.op = .normal) :
      Progresses writer state request .counted .passed
  | failed {error : String} (gate : state.faults.gate request.op = .failed error) :
      Progresses writer state request .counted (.returned (.injected request.op))
  | hung (gate : state.faults.gate request.op = .never) :
      Progresses writer state request .counted .hung
  | unprepared {error : WriteError}
      (prepared : writer.prepare state.channels request = .error error) :
      Progresses writer state request .passed (.returned error)
  | caughtUp {prepared : Prepared}
      (found : (state.channels.get? prepared.channelId).any
        (prepared.awaits.holds ·) = true) :
      Progresses writer state request (.watching prepared) .seen
  | expired {prepared : Prepared} :
      Progresses writer state request (.watching prepared) .seen
  | confirmed (confirm : state.faults.confirm request.op = .normal) :
      Progresses writer state request .seen .confirmed
  | unconfirmed {error : String}
      (confirm : state.faults.confirm request.op = .failed error) :
      Progresses writer state request .seen (.unconfirmed (.injected request.op))
  | silent (confirm : state.faults.confirm request.op = .never) :
      Progresses writer state request .seen .silent

inductive Writes (writer : Writer κ μ) (state : WriteState κ) :
    WriteStep μ → WriteState κ → Prop where
  | changed (change : FaultChange) :
      Writes writer state (.change change)
        { state with faults := state.faults.change change }
  | cached (channel : ChannelEntry) :
      Writes writer state (.cache channel)
        { state with
          channels := state.channels.put (channel.getId writer.reader)
            channel }
  | called (request : WriteRequest) :
      Writes writer state (.call request)
        { state with calls := state.calls ++ [⟨request, .called, false⟩] }
  | worked {move : μ} {chain : κ}
      (moves : writer.client.work state.chain move = some chain) :
      Writes writer state (.work move) { state with chain := chain }
  | advanced {index : Nat} {call : WriteCall} {phase : WritePhase}
      {label : WriteStep μ} {faults : ChainFaults}
      (caller : label.caller? = some index)
      (here : state.calls[index]? = some call) (alive : call.dropped = false)
      (advances : Progresses writer state call.request call.phase phase)
      (records : faults = if call.phase = .called then
        state.faults.record call.request.op else state.faults) :
      Writes writer state label
        { state.setPhase index call phase with faults := faults }
  | submitted {index : Nat} {call : WriteCall} {prepared : Prepared}
      (here : state.calls[index]? = some call) (alive : call.dropped = false)
      (passed : call.phase = .passed)
      (ready : writer.prepare state.channels call.request = .ok prepared) :
      Writes writer state (.submit index)
        { state.setPhase index call (.submitted prepared) with
          chain := writer.client.submit state.chain index }
  | landed {index : Nat} {call : WriteCall} {prepared : Prepared}
      (here : state.calls[index]? = some call) (alive : call.dropped = false)
      (waiting : call.phase = .submitted prepared)
      (done : writer.client.answer state.chain index = some (.ok ())) :
      Writes writer state (.respond index)
        (state.setPhase index call (.watching prepared))
  | rejected {index : Nat} {call : WriteCall} {prepared : Prepared}
      {error : String}
      (here : state.calls[index]? = some call) (alive : call.dropped = false)
      (waiting : call.phase = .submitted prepared)
      (done : writer.client.answer state.chain index = some (.error error)) :
      Writes writer state (.respond index)
        (state.setPhase index call (.returned (.submission error)))
  | dropped {index : Nat} {call : WriteCall}
      (here : state.calls[index]? = some call) (alive : call.dropped = false)
      (suspended : call.phase.suspended = true) :
      Writes writer state (.drop index)
        { state with
          calls := state.calls.set index { call with dropped := true } }

section Step

variable {writer : Writer κ μ} {state next : WriteState κ}
  {label : WriteStep μ}

theorem writes_of_advance {index : Nat} {call : WriteCall}
    (caller : label.caller? = some index)
    (here : state.calls[index]? = some call) (alive : call.dropped = false)
    (taken : state.advance writer index call label = some next) :
    Writes writer state label next := by
  have stays : ∀ {old phase : WritePhase}, call.phase = old →
      old ≠ .called → Progresses writer state call.request old phase →
      Writes writer state label (state.setPhase index call phase) := by
    intro old phase same apart advances
    subst same
    exact .advanced caller here alive advances (if_neg apart).symm
  cases label with
  | change _ | cache _ | call _ | work _ => cases caller
  | record other =>
      cases caller
      dsimp only [WriteState.advance] at taken
      split_ifs at taken with first
      cases taken
      refine .advanced rfl here alive ?_ (if_pos first).symm
      rw [first]
      exact .counted
  | resolve other =>
      cases caller
      dsimp only [WriteState.advance] at taken
      split_ifs at taken with counted
      cases taken
      apply stays counted WritePhase.noConfusion
      split
      · next gate => exact .passed gate
      · next gate => exact .failed gate
      · next gate => exact .hung gate
  | submit other =>
      cases caller
      dsimp only [WriteState.advance] at taken
      split_ifs at taken with passed
      split at taken
      · next error ready =>
          cases taken
          exact stays passed WritePhase.noConfusion (.unprepared ready)
      · next prepared ready =>
          cases taken
          exact .submitted here alive passed ready
  | respond other =>
      cases caller
      dsimp only [WriteState.advance] at taken
      split at taken
      · next prepared waiting =>
          obtain ⟨answer, done, rfl⟩ := Option.map_eq_some_iff.mp taken
          cases answer with
          | ok _ => exact .landed here alive waiting done
          | error error => exact .rejected here alive waiting done
      · cases taken
  | catchUp other =>
      cases caller
      dsimp only [WriteState.advance] at taken
      split at taken
      · next prepared watching =>
          split_ifs at taken with found
          cases taken
          exact stays watching WritePhase.noConfusion (.caughtUp found)
      · cases taken
  | expire other =>
      cases caller
      dsimp only [WriteState.advance] at taken
      split at taken
      · next prepared watching =>
          cases taken
          exact stays watching WritePhase.noConfusion .expired
      · cases taken
  | confirm other =>
      cases caller
      dsimp only [WriteState.advance] at taken
      split_ifs at taken with seen
      cases taken
      apply stays seen WritePhase.noConfusion
      split
      · next confirm => exact .confirmed confirm
      · next confirm => exact .unconfirmed confirm
      · next confirm => exact .silent confirm
  | drop other =>
      cases caller
      dsimp only [WriteState.advance] at taken
      split_ifs at taken with suspended
      cases taken
      exact .dropped here alive suspended

theorem writes_of_step (taken : state.step writer label = some next) :
    Writes writer state label next := by
  have advanced : ∀ (_ : (label.caller?.bind fun index =>
      state.advanceAt writer index label) = some next),
      Writes writer state label next := by
    intro taken
    obtain ⟨index, caller, taken⟩ := Option.bind_eq_some_iff.mp taken
    obtain ⟨call, here, taken⟩ := Option.bind_eq_some_iff.mp taken
    split_ifs at taken with gone
    have alive : call.dropped = false := by simpa using gone
    exact writes_of_advance caller here alive taken
  cases label with
  | change change =>
      cases taken
      exact .changed change
  | cache channel =>
      cases taken
      exact .cached channel
  | call request =>
      cases taken
      exact .called request
  | work move =>
      obtain ⟨chain, moves, rfl⟩ := Option.map_eq_some_iff.mp taken
      exact .worked moves
  | record _ | resolve _ | submit _ | respond _ | catchUp _ | expire _
  | confirm _ | drop _ => exact advanced taken

/-- How the phase of one call changes in a step. -/
inductive Turns (writer : Writer κ μ) (state : WriteState κ)
    (request : WriteRequest) : WritePhase → WritePhase → Prop where
  | stays {phase : WritePhase} : Turns writer state request phase phase
  | progresses {old new : WritePhase}
      (progresses : Progresses writer state request old new) :
      Turns writer state request old new
  | submits {prepared : Prepared} :
      Turns writer state request .passed (.submitted prepared)
  | lands {prepared : Prepared} :
      Turns writer state request (.submitted prepared) (.watching prepared)
  | rejected {prepared : Prepared} {error : String} :
      Turns writer state request (.submitted prepared)
        (.returned (.submission error))

theorem turns_of_writes (writes : Writes writer state label next)
    {place : Nat} {old : WriteCall} (there : state.calls[place]? = some old) :
    ∃ new, next.calls[place]? = some new ∧ new.request = old.request ∧
      Turns writer state old.request old.phase new.phase := by
  have inside := (List.getElem?_eq_some_iff.mp there).1
  -- one call moves, and it is this one or another
  have moved : ∀ {index : Nat} {call new : WriteCall},
      state.calls[index]? = some call → new.request = call.request →
      Turns writer state call.request call.phase new.phase →
      ∃ last, (state.calls.set index new)[place]? = some last ∧
        last.request = old.request ∧
        Turns writer state old.request old.phase last.phase := by
    intro index call new here kept turns
    by_cases same : index = place
    · subst same
      rw [there] at here
      cases here
      exact ⟨new, List.getElem?_set_self inside, kept, turns⟩
    · exact ⟨old, (List.getElem?_set_ne same).trans there, rfl, .stays⟩
  cases writes with
  | changed _ => exact ⟨old, there, rfl, .stays⟩
  | cached _ => exact ⟨old, there, rfl, .stays⟩
  | called request =>
      exact ⟨old, (List.getElem?_append_left inside).trans there, rfl, .stays⟩
  | worked _ => exact ⟨old, there, rfl, .stays⟩
  | advanced caller here alive progresses records =>
      exact moved here rfl (.progresses progresses)
  | @submitted _ call prepared here alive passed ready =>
      have turns : Turns writer state call.request call.phase
          (.submitted prepared) := by
        rw [passed]
        exact .submits
      exact moved here rfl turns
  | @landed _ call prepared here alive waiting done =>
      have turns : Turns writer state call.request call.phase
          (.watching prepared) := by
        rw [waiting]
        exact .lands
      exact moved here rfl turns
  | @rejected _ call prepared error here alive waiting done =>
      have turns : Turns writer state call.request call.phase
          (.returned (.submission error)) := by
        rw [waiting]
        exact .rejected
      exact moved here rfl turns
  | dropped here alive suspended => exact moved here rfl .stays

theorem fresh_of_writes (writes : Writes writer state label next)
    {place : Nat} {new : WriteCall} (there : next.calls[place]? = some new)
    (fresh : state.calls[place]? = none) : new.phase = .called := by
  have nowhere : ∀ {index : Nat} {call moved : WriteCall},
      state.calls[index]? = some call →
      (state.calls.set index moved)[place]? = some new → False := by
    intro index call moved here there
    rcases getElem?_set_cases there with ⟨rfl, _⟩ | ⟨_, old⟩
    · rw [here] at fresh
      cases fresh
    · rw [old] at fresh
      cases fresh
  cases writes with
  | called request =>
      rcases getElem?_concat_cases there with old | ⟨_, rfl⟩
      · rw [old] at fresh
        cases fresh
      · rfl
  | changed _ | cached _ | worked _ =>
      rw [there] at fresh
      cases fresh
  | advanced caller here alive progresses records =>
      exact (nowhere here there).elim
  | submitted here alive passed ready => exact (nowhere here there).elim
  | landed here alive waiting done => exact (nowhere here there).elim
  | rejected here alive waiting done => exact (nowhere here there).elim
  | dropped here alive suspended => exact (nowhere here there).elim

end Step

end HoprUtilities.Blokli
