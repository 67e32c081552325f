import HoprUtilities.Network.UdpCopy
import HoprUtilities.Network.UdpSenders
import Mathlib.Data.List.Perm.Subperm

/-!
# Writing and shutting down

The embedding of `poll_write` and `poll_shutdown` of
`src/network_types/udp.rs`, beside the tasks of the stream.  A write puts its
buffer into the sink and flushes it; the flush is done when the buffer is on
the egress queue.  A shutdown closes the sink, which is the same flush, and
aborts the tasks.

A buffer on the queue has still to be taken and handed to `send_to`.  The
abort does not wait for that.
-/

namespace HoprUtilities.Network.Udp

open HoprUtilities.Lib

variable {α : Type}

/-- The `WriteState` of the stream with the buffer being flushed, and whether
the sink still holds it, for want of room on the queue. -/
inductive FlushState where
  | writing
  | flushing (data : Bytes) (held : Bool)
  deriving DecidableEq, Repr

def FlushState.state : FlushState → WriteState
  | .writing => .writing
  | .flushing data _ => .flushing data.length

def FlushState.released : FlushState → FlushState
  | .writing => .writing
  | .flushing data _ => .flushing data false

structure Owner (α : Type) where
  stream : State α
  write : FlushState
  /-- The buffers of the writes that returned `Ready(Ok(n))`. -/
  accepted : List Bytes
  /-- The accepted buffers when the first shutdown returned `Ready(Ok)`. -/
  shutDown : Option (List Bytes)
  deriving DecidableEq, Repr

inductive OwnerLabel (α : Type) where
  | task (label : Label α)
  /-- A call of `poll_write`; `room` tells whether the queue has room. -/
  | pollWrite (data : Bytes) (room : Bool)
  /-- The queue has room and takes the buffer of the sink. -/
  | admitted
  | pollShutdown
  | dropped
  deriving DecidableEq, Repr

/-- All sender tasks are gone, and with them the receivers of the queue. -/
def State.disconnected (state : State α) : Bool :=
  state.senders.all fun pc =>
    match pc with
    | .finished => true
    | _ => false

namespace Owner

def start (setup : Setup α) (receivers senders : Nat) : Owner α where
  stream := State.start setup receivers senders
  write := .writing
  accepted := []
  shutDown := none

def setAborted (owner : Owner α) : Owner α :=
  { owner with stream := { owner.stream with aborted := true } }

def enqueue (owner : Owner α) (data : Bytes) : Owner α :=
  { owner with
    stream := { owner.stream with egress := owner.stream.egress ++ [data] } }

/-- A write that returns `Ready(Ok(n))`. -/
def accept (owner : Owner α) (data : Bytes) : Owner α :=
  { owner with write := .writing, accepted := owner.accepted ++ [data] }

/-- `poll_write`, of a stream whose counterparty is set. -/
def pollWrite (owner : Owner α) (data : Bytes) (room : Bool) : Owner α :=
  match owner.write with
  | .writing =>
      if owner.stream.disconnected then owner
      else if room then (owner.enqueue data).accept data
      else { owner with write := .flushing data true }
  | .flushing pending held =>
      if held = false then owner.accept pending
      else if owner.stream.disconnected then { owner with write := .writing }
      else owner

def unheld (owner : Owner α) : Bool :=
  match owner.write with
  | .flushing _ true => false
  | _ => true

/-- `poll_shutdown`: the close waits for the buffer of the sink. -/
def pollShutdown (owner : Owner α) : Owner α :=
  if owner.unheld then
    { owner.setAborted with
      shutDown := some (owner.shutDown.getD owner.accepted) }
  else if owner.stream.disconnected then
    -- the close fails and the buffer is lost
    { owner.setAborted with write := owner.write.released }
  else owner

def step [DecidableEq α] (setup : Setup α) (owner : Owner α) :
    OwnerLabel α → Option (Owner α)
  | .task label =>
      if label.isTask then
        (owner.stream.step setup label).map fun next =>
          { owner with stream := next }
      else none
  | .pollWrite data room =>
      if owner.stream.egressClosed = false ∧
          owner.stream.counterparty.isSome = true then
        some (owner.pollWrite data room)
      else none
  | .admitted =>
      match owner.write with
      | .flushing data true =>
          if owner.stream.egressClosed = false ∧
              owner.stream.disconnected = false then
            some { owner.enqueue data with write := .flushing data false }
          else none
      | _ => none
  | .pollShutdown =>
      if owner.stream.egressClosed = false then some owner.pollShutdown
      else none
  | .dropped =>
      some { owner with
        stream := { owner.stream with egressClosed := true, aborted := true } }

end Owner

section Sink

variable (owner : Owner α)

/-- The error of the queue, wrapped by the sink of the stream. -/
def disconnectedError : IoError :=
  .message (.other 0) "sending on a closed channel"

/-- How the sink of the queue answers a flush: at once if it holds nothing or
the queue has room, and with an error if nobody receives. -/
def Owner.flushes (room : Bool) : Poll (IoResult Unit) :=
  match owner.write with
  | .flushing _ false => .ready (.ok ())
  | .flushing _ true =>
      if owner.stream.disconnected then .ready (.error disconnectedError)
      else .pending
  | .writing =>
      if owner.stream.disconnected then .ready (.error disconnectedError)
      else if room then .ready (.ok ())
      else .pending

/-- The writing half of the stream, about to be polled. -/
def Owner.writer (room : Bool) : Writer where
  egressTx := true
  sender :=
    { readies := [.ready (.ok ())]
      starts := [.ok ()]
      flushes := [owner.flushes room] }
  state := owner.write.state
  items := []

/-- On the answers of the sink, `poll_write` goes where the owner goes, and
returns a length exactly when the owner accepts a buffer. -/
theorem pollWrite_writer (data : Bytes) (room : Bool) :
    ∃ result after,
      Writer.pollWrite data (owner.writer room) = .ok result after ∧
        after.state = (owner.pollWrite data room).write.state ∧
        ((∃ len, result = .ready (.ok len)) ↔
          (owner.pollWrite data room).accepted.length =
            owner.accepted.length + 1) := by
  unfold Owner.writer Owner.pollWrite
  cases write : owner.write with
  | writing =>
      by_cases disconnected : owner.stream.disconnected = true
      · have answer : owner.flushes room =
            .ready (.error disconnectedError) := by
          simp [Owner.flushes, write, disconnected]
        rw [answer, if_pos disconnected, write]
        exact ⟨_, _, rfl, rfl, by simp [Except.map]⟩
      · cases room with
        | true =>
            have answer : owner.flushes true = .ready (.ok ()) := by
              simp [Owner.flushes, write, disconnected]
            rw [answer, if_neg disconnected]
            exact ⟨_, _, rfl, rfl, by simp [Owner.accept, Owner.enqueue,
              Except.map]⟩
        | false =>
            have answer : owner.flushes false = .pending := by
              simp [Owner.flushes, write, disconnected]
            rw [answer, if_neg disconnected]
            exact ⟨_, _, rfl, rfl, by simp⟩
  | flushing pending held =>
      cases held with
      | false =>
          have answer : owner.flushes room = .ready (.ok ()) := by
            simp [Owner.flushes, write]
          rw [answer]
          exact ⟨_, _, rfl, rfl, by simp [Owner.accept, Except.map]⟩
      | true =>
          by_cases disconnected : owner.stream.disconnected = true
          · have answer : owner.flushes room =
                .ready (.error disconnectedError) := by
              simp [Owner.flushes, write, disconnected]
            rw [answer]
            simp only [disconnected, Bool.true_eq_false, if_false, if_true]
            exact ⟨_, _, rfl, rfl, by simp [Except.map]⟩
          · have answer : owner.flushes room = .pending := by
              simp [Owner.flushes, write, disconnected]
            rw [answer]
            simp only [disconnected, Bool.true_eq_false, Bool.false_eq_true,
              if_false]
            rw [write]
            exact ⟨_, _, rfl, rfl, by simp⟩

end Sink

/-- The buffer that a task has taken and not yet handed to `send_to`. -/
def TxPc.inHand : TxPc α → List Bytes
  | .resolving data => [data]
  | _ => []

/-- The buffers that have still to be handed to `send_to`. -/
def State.outstanding (state : State α) : List Bytes :=
  state.egress ++ state.senders.flatMap TxPc.inHand

def State.handed (state : State α) : List Bytes :=
  state.sent.map fun send => send.2.2

/-- The buffer of a write that has not returned and is on the queue. -/
def Owner.unreturned (owner : Owner α) : List Bytes :=
  match owner.write with
  | .flushing data false => [data]
  | _ => []

/-- Every buffer accepted before the shutdown has been handed to `send_to`. -/
def Owner.Delivered (owner : Owner α) : Prop :=
  ∀ owed, owner.shutDown = some owed → ∀ data,
    owed.count data ≤ owner.stream.handed.count data

/-- A shutdown that completes finds nothing outstanding, but for the buffer of
a write that has not returned. -/
def Owner.drained (owner : Owner α) : OwnerLabel α → Bool
  | .pollShutdown =>
      !owner.unheld || owner.shutDown.isSome ||
        decide (owner.stream.outstanding = [] ∨
          owner.stream.outstanding = owner.unreturned)
  | _ => true

/-- Before a shutdown every task is there, and every buffer that was accepted
has been handed over or is outstanding. -/
structure Owner.Running (owner : Owner α) : Prop where
  unaborted : owner.stream.aborted = false
  present : ∀ pc ∈ owner.stream.senders, pc ≠ .finished
  served : ∀ data, owner.write = .flushing data true →
    owner.stream.senders ≠ []
  balanced : ∀ data,
    owner.accepted.count data + owner.unreturned.count data =
      owner.stream.handed.count data + owner.stream.outstanding.count data

/-- Nothing is written before the counterparty is set. -/
structure Owner.Quiet (owner : Owner α) : Prop where
  empty : owner.stream.egress = []
  writing : owner.write = .writing
  free : ∀ pc ∈ owner.stream.senders, pc.inHand = []

structure Owner.Sound (owner : Owner α) : Prop where
  quiet : owner.stream.counterparty = none → owner.Quiet
  running : owner.shutDown = none → owner.stream.egressClosed = false →
    owner.Running

section Books

variable {owner : Owner α} {next : State α}

theorem Owner.Running.connected (running : owner.Running)
    (senders : owner.stream.senders ≠ []) :
    owner.stream.disconnected = false := by
  obtain ⟨pc, rest, same⟩ := List.exists_cons_of_ne_nil senders
  have left := running.present pc (by simp [same])
  cases pc <;> simp_all [State.disconnected]

theorem running_of_receiverStep (running : owner.Running)
    (step : ReceiverStep owner.stream next) :
    Owner.Running { owner with stream := next } := by
  obtain ⟨unaborted, present, served, balanced⟩ := running
  constructor
  · exact step.aborted.trans unaborted
  · dsimp only
    rw [step.senders]
    exact present
  · dsimp only
    rw [step.senders]
    exact served
  · intro data
    have books := balanced data
    simp only [State.handed, State.outstanding, Owner.unreturned, step.sent,
      step.egress, step.senders] at books ⊢
    exact books

theorem running_of_senderStep (running : owner.Running)
    (opened : owner.stream.egressClosed = false)
    (quiet : owner.stream.counterparty = none → owner.Quiet)
    (step : SenderStep owner.stream next) :
    Owner.Running { owner with stream := next } := by
  obtain ⟨unaborted, present, served, balanced⟩ := running
  have occupied : ∀ {index : Nat} {pc new : TxPc α},
      owner.stream.senders[index]? = some pc →
      owner.stream.senders.set index new ≠ [] := by
    intro index pc new current nil
    rw [List.set_eq_nil_iff] at nil
    rw [nil] at current
    simp at current
  cases step with
  | taken current queue =>
      rename_i index data rest
      refine ⟨unaborted, forall_set present (by simp), fun _ _ =>
        occupied current, ?_⟩
      intro value
      have books := balanced value
      have moved := count_flatMap_set TxPc.inHand value (.resolving data)
        current
      simp only [State.outstanding, State.handed, State.setSender,
        Owner.unreturned, queue, List.count_append, TxPc.inHand,
        List.count_nil, List.count_cons] at books moved ⊢
      omega
  | disconnected current closed =>
      rw [opened] at closed
      cases closed
  | targeted current set =>
      rename_i index data target
      refine ⟨unaborted, forall_set present (by simp), fun _ _ =>
        occupied current, ?_⟩
      intro value
      have books := balanced value
      have moved := count_flatMap_set TxPc.inHand value (.sending data target)
        current
      simp only [State.outstanding, State.handed, State.setSender,
        Owner.unreturned, List.map_append, List.map_cons, List.map_nil,
        List.count_append, TxPc.inHand, List.count_nil,
        List.count_cons] at books moved ⊢
      omega
  | unset current unset =>
      have free := (quiet unset).free _ (List.mem_of_getElem? current)
      cases free
  | transmitted current =>
      rename_i index data target
      refine ⟨unaborted, forall_set present (by simp), fun _ _ =>
        occupied current, ?_⟩
      intro value
      have books := balanced value
      have moved := count_flatMap_set TxPc.inHand value .waiting current
      simp only [State.outstanding, State.handed, State.setSender,
        Owner.unreturned, List.count_append, TxPc.inHand,
        List.count_nil] at books moved ⊢
      omega
  | cancelled current aborted =>
      rw [unaborted] at aborted
      cases aborted

theorem quiet_of_receiverStep (quiet : owner.Quiet)
    (step : ReceiverStep owner.stream next) :
    Owner.Quiet { owner with stream := next } := by
  obtain ⟨empty, writing, free⟩ := quiet
  exact ⟨step.egress.trans empty, writing, by
    dsimp only
    rw [step.senders]
    exact free⟩

theorem quiet_of_senderStep (quiet : owner.Quiet)
    (step : SenderStep owner.stream next) :
    Owner.Quiet { owner with stream := next } := by
  obtain ⟨empty, writing, free⟩ := quiet
  cases step with
  | taken current queue =>
      rw [empty] at queue
      cases queue
  | disconnected | targeted | unset | transmitted | cancelled =>
      exact ⟨empty, writing, forall_set free rfl⟩

theorem Owner.Running.pollWrite (running : owner.Running) (data : Bytes)
    (room : Bool) : (owner.pollWrite data room).Running := by
  unfold Owner.pollWrite
  split
  · next writing =>
      obtain ⟨unaborted, present, served, balanced⟩ := running
      split_ifs with disconnected
      · exact ⟨unaborted, present, served, balanced⟩
      · -- the buffer goes to the queue and is accepted
        refine ⟨unaborted, present, by simp [Owner.accept], ?_⟩
        intro value
        have books := balanced value
        simp only [Owner.accept, Owner.enqueue, Owner.unreturned, writing,
          State.outstanding, State.handed, List.count_append, List.count_nil,
          List.count_cons] at books ⊢
        omega
      · refine ⟨unaborted, present, ?_, ?_⟩
        · intro _ _ nil
          change owner.stream.senders = [] at nil
          exact disconnected (by simp [State.disconnected, nil])
        · intro value
          have books := balanced value
          simp only [Owner.unreturned, writing] at books ⊢
          exact books
  · next pending held flushing =>
      split_ifs with returned disconnected
      · subst returned
        obtain ⟨unaborted, present, served, balanced⟩ := running
        refine ⟨unaborted, present, by simp [Owner.accept], ?_⟩
        intro value
        have books := balanced value
        simp only [Owner.accept, Owner.unreturned, flushing, List.count_append,
          List.count_nil] at books ⊢
        omega
      · rw [Bool.not_eq_false] at returned
        subst returned
        have connected := running.connected (running.served pending flushing)
        rw [connected] at disconnected
        cases disconnected
      · exact running

theorem Owner.Running.admitted (running : owner.Running) {data : Bytes}
    (held : owner.write = .flushing data true) :
    Owner.Running { owner.enqueue data with
      write := .flushing data false } := by
  obtain ⟨unaborted, present, served, balanced⟩ := running
  refine ⟨unaborted, present, by simp, ?_⟩
  intro value
  have books := balanced value
  simp only [Owner.enqueue, Owner.unreturned, held, State.outstanding,
    State.handed, List.count_append, List.count_nil] at books ⊢
  omega

theorem Owner.held_of_not_unheld (held : ¬owner.unheld = true) :
    ∃ data, owner.write = .flushing data true := by
  unfold Owner.unheld at held
  split at held
  · next data flushing => exact ⟨data, flushing⟩
  · exact (held rfl).elim

/-- Nothing but a write that has not returned is outstanding exactly when every
accepted buffer has been handed over. -/
theorem Owner.Running.handed_iff (running : owner.Running) :
    (∀ data, owner.accepted.count data ≤ owner.stream.handed.count data) ↔
      owner.stream.outstanding = [] ∨
        owner.stream.outstanding = owner.unreturned := by
  constructor
  · intro handed
    have inside : owner.stream.outstanding.Subperm owner.unreturned := by
      rw [List.subperm_ext_iff]
      intro data _
      have books := running.balanced data
      have bound := handed data
      omega
    unfold Owner.unreturned at inside ⊢
    split at inside
    · exact List.subperm_singleton_iff.mp inside
    · exact .inl (List.subperm_nil.mp inside)
  · intro settled data
    have books := running.balanced data
    rcases settled with empty | same
    · rw [empty, List.count_nil] at books
      omega
    · rw [same] at books
      omega

end Books

section Runs

variable {setup : Setup α} {owner after : Owner α} {label : OwnerLabel α}

theorem Owner.Sound.start (setup : Setup α) (receivers senders : Nat) :
    (Owner.start setup receivers senders).Sound := by
  have waiting : ∀ pc ∈ List.replicate senders (.waiting : TxPc α),
      pc = .waiting := fun _ member => List.eq_of_mem_replicate member
  have free : (List.replicate senders (.waiting : TxPc α)).flatMap
      TxPc.inHand = [] := by
    simp [TxPc.inHand]
  constructor
  · intro _
    refine ⟨rfl, rfl, ?_⟩
    intro pc member
    rw [waiting pc member]
    rfl
  · intro _ _
    refine ⟨rfl, ?_, by simp [Owner.start], ?_⟩
    · intro pc member
      rw [waiting pc member]
      simp
    · intro data
      simp [Owner.start, Owner.unreturned, State.handed, State.outstanding,
        State.start, free]

theorem Owner.Sound.task (sound : owner.Sound) {next : State α}
    (step : ReceiverStep owner.stream next ∨ SenderStep owner.stream next) :
    Owner.Sound { owner with stream := next } := by
  rcases step with receiver | sender
  · constructor
    · intro unset
      have before : owner.stream.counterparty = none := by
        cases known : owner.stream.counterparty with
        | none => rfl
        | some address =>
            rw [receiver.lock address known] at unset
            cases unset
      exact quiet_of_receiverStep (sound.quiet before) receiver
    · intro pending opened
      rw [receiver.closed] at opened
      exact running_of_receiverStep (sound.running pending opened) receiver
  · have kept : next.counterparty = owner.stream.counterparty ∧
        next.egressClosed = owner.stream.egressClosed := by
      cases sender <;> exact ⟨rfl, rfl⟩
    constructor
    · intro unset
      rw [kept.1] at unset
      exact quiet_of_senderStep (sound.quiet unset) sender
    · intro pending opened
      rw [kept.2] at opened
      exact running_of_senderStep (sound.running pending opened) opened
        sound.quiet sender

theorem Owner.pollWrite_stream (owner : Owner α) (data : Bytes)
    (room : Bool) :
    (owner.pollWrite data room).shutDown = owner.shutDown ∧
      (owner.pollWrite data room).stream.counterparty =
        owner.stream.counterparty ∧
      (owner.pollWrite data room).stream.egressClosed =
        owner.stream.egressClosed ∧
      (owner.pollWrite data room).stream.sent = owner.stream.sent := by
  unfold Owner.pollWrite
  split <;> split_ifs <;> exact ⟨rfl, rfl, rfl, rfl⟩

theorem Owner.Delivered.grown (delivered : owner.Delivered)
    (same : after.shutDown = owner.shutDown)
    {more : List (Nat × α × Bytes)}
    (sent : after.stream.sent = owner.stream.sent ++ more) :
    after.Delivered := by
  intro owed before data
  rw [same] at before
  have bound := delivered owed before data
  simp only [State.handed, sent, List.map_append, List.count_append] at bound ⊢
  omega

theorem Owner.Delivered.pollShutdown (delivered : owner.Delivered)
    (sound : owner.Sound) (opened : owner.stream.egressClosed = false)
    (drained : owner.drained .pollShutdown = true) :
    owner.pollShutdown.Delivered := by
  unfold Owner.pollShutdown
  split_ifs with unheld disconnected
  · intro owed before
    cases known : owner.shutDown with
    | some earlier =>
        simp only [known, Option.getD_some, Option.some.injEq] at before
        subst before
        exact delivered earlier known
    | none =>
        simp only [known, Option.getD_none, Option.some.injEq] at before
        subst before
        apply (sound.running known opened).handed_iff.mpr
        simpa [Owner.drained, unheld, known] using drained
  · exact delivered.grown rfl (List.append_nil _).symm
  · exact delivered

variable [DecidableEq α]

theorem Owner.Sound.step (sound : owner.Sound)
    (taken : owner.step setup label = some after) : after.Sound := by
  cases label with
  | task label =>
      simp only [Owner.step] at taken
      split_ifs at taken with task
      obtain ⟨next, stepped, same⟩ := Option.map_eq_some_iff.mp taken
      subst same
      exact sound.task (taskStep_of_step task stepped)
  | pollWrite data room =>
      simp only [Owner.step] at taken
      split_ifs at taken with ready
      cases taken
      obtain ⟨shutDown, lock, closed, _⟩ :=
        owner.pollWrite_stream data room
      constructor
      · intro unset
        rw [lock] at unset
        simp [unset] at ready
      · intro pending opened
        rw [shutDown] at pending
        rw [closed] at opened
        exact (sound.running pending opened).pollWrite data room
  | admitted =>
      simp only [Owner.step] at taken
      split at taken
      · next data held =>
          split_ifs at taken with ready
          cases taken
          constructor
          · intro unset
            have writing := (sound.quiet unset).writing
            rw [held] at writing
            cases writing
          · intro pending opened
            exact (sound.running pending opened).admitted held
      · cases taken
  | pollShutdown =>
      simp only [Owner.step] at taken
      split_ifs at taken with opened
      cases taken
      unfold Owner.pollShutdown
      split_ifs with unheld disconnected
      · constructor
        · intro unset
          obtain ⟨empty, writing, free⟩ := sound.quiet unset
          exact ⟨empty, writing, free⟩
        · intro pending
          cases pending
      · obtain ⟨data, held⟩ := Owner.held_of_not_unheld unheld
        constructor
        · intro unset
          have writing := (sound.quiet unset).writing
          rw [held] at writing
          cases writing
        · intro pending _
          -- the queue is served as long as there was no shutdown
          have running := sound.running pending opened
          have connected := running.connected (running.served data held)
          rw [connected] at disconnected
          cases disconnected
      · exact sound
  | dropped =>
      cases taken
      constructor
      · intro unset
        obtain ⟨empty, writing, free⟩ := sound.quiet unset
        exact ⟨empty, writing, free⟩
      · intro _ opened
        cases opened

theorem Owner.Delivered.step (delivered : owner.Delivered)
    (sound : owner.Sound) (drained : owner.drained label = true)
    (taken : owner.step setup label = some after) : after.Delivered := by
  have unsent {sent : List (Nat × α × Bytes)} : sent = sent ++ [] :=
    (List.append_nil sent).symm
  cases label with
  | task label =>
      simp only [Owner.step] at taken
      split_ifs at taken with task
      obtain ⟨next, stepped, same⟩ := Option.map_eq_some_iff.mp taken
      subst same
      rcases taskStep_of_step task stepped with receiver | sender
      · exact delivered.grown rfl (receiver.sent.trans unsent)
      · cases sender with
        | targeted => exact delivered.grown rfl rfl
        | taken | disconnected | unset | transmitted | cancelled =>
            exact delivered.grown rfl unsent
  | pollWrite data room =>
      simp only [Owner.step] at taken
      split_ifs at taken
      cases taken
      obtain ⟨shutDown, _, _, sent⟩ := owner.pollWrite_stream data room
      exact delivered.grown shutDown (sent.trans unsent)
  | admitted =>
      simp only [Owner.step] at taken
      split at taken
      · split_ifs at taken
        cases taken
        exact delivered.grown rfl unsent
      · cases taken
  | pollShutdown =>
      simp only [Owner.step] at taken
      split_ifs at taken with opened
      cases taken
      exact delivered.pollShutdown sound opened drained
  | dropped =>
      cases taken
      exact delivered.grown rfl unsent

/-- A first shutdown that completes has delivered everything exactly when it
finds the tasks drained. -/
theorem Owner.Sound.delivered_iff (sound : owner.Sound)
    (first : owner.shutDown = none)
    (taken : owner.step setup .pollShutdown = some after)
    (completed : after.shutDown.isSome = true) :
    after.Delivered ↔ owner.drained .pollShutdown = true := by
  simp only [Owner.step] at taken
  split_ifs at taken with opened
  cases taken
  unfold Owner.pollShutdown at completed ⊢
  split_ifs at completed ⊢ with unheld disconnected
  · have running := sound.running first opened
    have books := running.handed_iff
    simp only [Owner.drained, unheld, first, Bool.not_true, Option.isSome_none,
      Bool.false_or, decide_eq_true_eq]
    rw [← books]
    constructor
    · intro delivered
      exact delivered owner.accepted rfl
    · intro handed owed before
      simp only [Option.getD_none, Option.some.injEq] at before
      subst before
      exact handed
  · rw [Owner.setAborted, first] at completed
    cases completed
  · rw [first] at completed
    cases completed

/-- If every shutdown that completes finds the tasks drained, no accepted
buffer is dropped.  A first shutdown that does not has dropped one. -/
theorem shutdown_delivers_iff_drained (setup : Setup α)
    (receivers senders : Nat) :
    (∀ final, Reachable (restrict Owner.drained (Owner.step setup))
        (.start setup receivers senders) final → final.Delivered) ∧
      ∀ owner after, Reachable (Owner.step setup)
          (.start setup receivers senders) owner →
        owner.shutDown = none →
        owner.step setup .pollShutdown = some after →
        after.shutDown.isSome = true →
        (after.Delivered ↔ owner.drained .pollShutdown = true) := by
  constructor
  · intro final reachable
    have closed : ∀ owner label after,
        restrict Owner.drained (Owner.step setup) owner label = some after →
        owner.Sound ∧ owner.Delivered → after.Sound ∧ after.Delivered := by
      intro owner label after taken holds
      obtain ⟨drained, stepped⟩ := step_of_restrict taken
      exact ⟨holds.1.step stepped, holds.2.step holds.1 drained stepped⟩
    refine (reachable.invariant closed ⟨.start setup receivers senders, ?_⟩).2
    intro owed before
    cases before
  · intro owner after reachable first taken completed
    have sound := reachable.invariant
      (fun _ _ _ taken (sound : Owner.Sound _) => sound.step taken)
      (.start setup receivers senders)
    exact sound.delivered_iff first taken completed

end Runs

def configured : Setup Nat :=
  { counterparty := some 7, mode := .discard, bufSize := 8 }

/-- The buffer is sent before the shutdown. -/
theorem sent_before_shutdown_delivered :
    ∃ final, run (Owner.step configured)
        [.pollWrite [1] true, .task (.take 0), .task (.target 0),
          .pollShutdown] (.start configured 1 1) = some final ∧
      final.shutDown = some [[1]] ∧ final.Delivered := by
  have passed : (run (restrict Owner.drained (Owner.step configured))
      [.pollWrite [1] true, .task (.take 0), .task (.target 0), .pollShutdown]
      (.start configured 1 1)).any (fun final =>
        final.shutDown == some [[1]]) = true := by
    decide
  obtain ⟨final, ended, owed⟩ := exists_run _ passed
  exact ⟨final, run_of_restrict ended, by simpa using owed,
    (shutdown_delivers_iff_drained configured 1 1).1 final ⟨_, ended⟩⟩

/-- The shutdown follows the write at once, and the buffer is never sent. -/
theorem accepted_buffer_dropped :
    ∃ final, run (Owner.step configured)
        [.pollWrite [1] true, .pollShutdown, .task (.cancelSender 0)]
        (.start configured 1 1) = some final ∧
      final.shutDown = some [[1]] ∧ final.stream.sent = [] ∧
      final.stream.senders = [.finished] ∧ ¬final.Delivered := by
  have passed : (run (Owner.step configured)
      [.pollWrite [1] true, .pollShutdown, .task (.cancelSender 0)]
      (.start configured 1 1)).any (fun final =>
        final.shutDown == some [[1]] && final.stream.sent == [] &&
          final.stream.senders == [.finished]) = true := by
    decide
  obtain ⟨final, ended, facts⟩ := exists_run _ passed
  simp only [Bool.and_eq_true, beq_iff_eq] at facts
  obtain ⟨⟨owed, unsent⟩, senders⟩ := facts
  refine ⟨final, ended, owed, unsent, senders, ?_⟩
  intro delivered
  have bound := delivered [[1]] owed [1]
  simp [State.handed, unsent] at bound

end HoprUtilities.Network.Udp
