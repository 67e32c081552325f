import HoprUtilities.Lib.History
import HoprUtilities.Network.DuplexStep

/-!
# The life cycle of the duplex copy

Each direction runs, shuts down and is done, in this order and once.  The
log of a direction contains every assignment of its state, so the order of
the moves is read off the log; the same invariant orders the calls to the
writer around its shutdown.
-/

namespace HoprUtilities.Network

open HoprUtilities.Lib

namespace Event

/-- The direction was given a new state. -/
def isMove : Event → Bool
  | .leftRunning _ => true
  | .reachedDone _ => true
  | _ => false

/-- A `poll_write` or a `poll_flush`. -/
def usesWriter : Event → Bool
  | .write _ _ => true
  | .flush _ => true
  | _ => false

def isShutdown : Event → Bool
  | .shutdown _ => true
  | _ => false

end Event

namespace Call

/-- A `poll_write` or a `poll_flush` that has not been answered. -/
def usesWriter : Call → Bool
  | .write _ => true
  | .flush => true
  | _ => false

end Call

/-- The state assignments of a direction, in order. -/
def moves (log : List Event) : List Event := log.filter Event.isMove

/-- The only histories a direction in this state can have. -/
def movesTo : TransferState → List Event
  | .running _ => []
  | .shuttingDown count => [.leftRunning count]
  | .done count => [.leftRunning count, .reachedDone count]

/-- After a shutdown call nothing is written or flushed, and after a
successful one there is no further shutdown call. -/
def shutdownRule (before : List Event) (event : Event) : Prop :=
  (event.usesWriter = true → ∀ earlier ∈ before, earlier.isShutdown = false) ∧
  (event.isShutdown = true → .shutdown (.ready (.ok ())) ∉ before)

/-- What the shutdown calls so far say about the state. -/
def shutdownsSo (log : List Event) : TransferState → Prop
  | .running _ => ∀ event ∈ log, event.isShutdown = false
  | .shuttingDown _ => .shutdown (.ready (.ok ())) ∉ log
  | .done _ => .shutdown (.ready (.ok ())) ∈ log

structure Orderly (direction : Direction) : Prop where
  within : ∀ buf, direction.state = .running buf → buf.pos ≤ buf.cap
  moved : moves direction.wire.log = movesTo direction.state
  shutdowns : shutdownsSo direction.wire.log direction.state
  ordered : Chronicle shutdownRule direction.wire.log

namespace Copying

/-- What a step of the copy does to the log, seen from the life cycle. -/
theorem CopyStep.log_lifecycle {copying next : Copying}
    (step : CopyStep copying next) :
    next.wire.log = copying.wire.log ∨
      ∃ event, next.wire.log = copying.wire.log ++ [event] ∧
        event.isMove = false ∧ event.isShutdown = false := by
  cases step with
  | flush script answer _ _ => exact .inr ⟨_, rfl, rfl, rfl⟩
  | rewind => exact .inl rfl
  | fill script answer _ _ _ _ => exact .inr ⟨_, rfl, rfl, rfl⟩
  | proceed script _ => exact .inl rfl
  | write script answer _ _ => exact .inr ⟨_, rfl, rfl, rfl⟩
  | topUp script answer _ _ _ _ _ => exact .inr ⟨_, rfl, rfl, rfl⟩
  | finalFlush script answer _ _ => exact .inr ⟨_, rfl, rfl, rfl⟩

theorem CopyStep.pos_le_cap {copying next : Copying}
    (step : CopyStep copying next)
    (below : copying.buf.pos ≤ copying.buf.cap) :
    next.buf.pos ≤ next.buf.cap := by
  have filled : ∀ answer, (copying.buf.onRead answer).pos ≤
      (copying.buf.onRead answer).cap := by
    intro answer
    unfold CopyBuffer.onRead
    split
    · exact Nat.le_trans below (Nat.le_add_right _ _)
    · exact below
  cases step with
  | flush script answer empty due =>
      rw [record_buf]
      unfold CopyBuffer.onFlush
      split <;> exact below
  | rewind => exact Nat.le_refl 0
  | fill script answer _ _ _ _ => exact filled answer
  | proceed script _ => exact below
  | write script answer unwritten fits =>
      match answer with
      | .pending | .ready (.error _) | .ready (.ok 0) => exact below
      | .ready (.ok (count + 1)) =>
          have short : count + 1 ≤ copying.buf.slice.length := fits _ rfl
          have sliceLength : copying.buf.slice.length ≤
              copying.buf.cap - copying.buf.pos := List.length_take_le _ _
          change copying.buf.pos + (count + 1) ≤ copying.buf.cap
          omega
  | topUp script answer _ _ _ _ _ => exact filled answer
  | finalFlush script answer _ _ => exact below

end Copying

namespace Orderly

variable {direction : Direction}

theorem new (bufSize : Nat) (datagram : Bool) (script : Script) :
    Orderly (Direction.new bufSize datagram script) := by
  refine ⟨?_, rfl, by simp [shutdownsSo, Direction.new], Chronicle.nil⟩
  intro buf running
  cases running
  exact Nat.le_refl 0

theorem of_call (orderly : Orderly direction) {buf after : CopyBuffer}
    (running : direction.state = .running buf) (script : Script)
    {event : Event} (below : after.pos ≤ after.cap)
    (noMove : event.isMove = false) (noShutdown : event.isShutdown = false) :
    Orderly
      { state := .running after
        wire := { script := script, log := direction.wire.log ++ [event] } } := by
  have quiet : ∀ earlier ∈ direction.wire.log, earlier.isShutdown = false := by
    have so := orderly.shutdowns
    rw [running] at so
    exact so
  refine ⟨?_, ?_, ?_, ?_⟩
  · intro current same
    cases same
    exact below
  · have moved := orderly.moved
    rw [running] at moved
    simpa [moves, movesTo, noMove] using moved
  · intro current member
    rcases List.mem_append.mp member with old | new
    · exact quiet current old
    · rw [List.mem_singleton.mp new]
      exact noShutdown
  · exact orderly.ordered.snoc event
      ⟨fun _ => quiet, by simp [noShutdown]⟩

theorem of_leave (orderly : Orderly direction) {buf : CopyBuffer}
    (running : direction.state = .running buf) {events : List Event}
    {count : Nat} (moved : moves events = [.leftRunning count])
    (calls : ∀ event ∈ events, event.isShutdown = false)
    (ordered : Chronicle shutdownRule (direction.wire.log ++ events)) :
    Orderly (direction.note (.shuttingDown count) events) := by
  have earlier := orderly.moved
  have so := orderly.shutdowns
  rw [running] at earlier so
  refine ⟨by simp [Direction.note], ?_, ?_, ordered⟩
  · change moves (_ ++ _) = [.leftRunning count]
    unfold moves at earlier moved ⊢
    rw [List.filter_append, earlier, moved]
    rfl
  · intro member
    rcases List.mem_append.mp member with old | new
    · exact absurd (so _ old) (by simp [Event.isShutdown])
    · exact absurd (calls _ new) (by simp [Event.isShutdown])

theorem step (orderly : Orderly direction) {next : Direction}
    (step : Direction.DirectionStep direction next) : Orderly next := by
  cases step with
  | @copy buf after running step =>
      have below := step.pos_le_cap (orderly.within buf running)
      rcases step.log_lifecycle with same | ⟨event, grown, noMove, noShutdown⟩
      · have moved := orderly.moved
        have so := orderly.shutdowns
        rw [running] at moved so
        refine ⟨?_, ?_, ?_, ?_⟩
        · intro current sameState
          cases sameState
          exact below
        · change moves after.wire.log = _
          rw [same]
          exact moved
        · change ∀ event ∈ after.wire.log, _
          rw [same]
          exact so
        · change Chronicle _ after.wire.log
          rw [same]
          exact orderly.ordered
      · have called := orderly.of_call running after.wire.script below noMove
          noShutdown
        rwa [← grown] at called
  | @resume buf after running step =>
      cases step with
      | mk script answer resumes =>
          apply orderly.of_call running script _ rfl rfl
          unfold CopyBuffer.onFlush
          split <;> exact orderly.within buf running
  | @copied buf earlier running empty closed flushed =>
      apply orderly.of_leave running rfl (by simp [Event.isShutdown])
      have first := orderly.ordered.snoc (.copied buf.amt)
        ⟨by simp [Event.usesWriter], by simp [Event.isShutdown]⟩
      have second := first.snoc (.leftRunning buf.amt)
        ⟨by simp [Event.usesWriter], by simp [Event.isShutdown]⟩
      simpa using second
  | @stop buf running =>
      apply orderly.of_leave running rfl (by simp [Event.isShutdown])
      exact orderly.ordered.snoc _
        ⟨by simp [Event.usesWriter], by simp [Event.isShutdown]⟩
  | @shutdown count script answer shutting =>
      have earlier := orderly.moved
      have so := orderly.shutdowns
      rw [shutting] at earlier so
      have first := orderly.ordered.snoc (.shutdown answer)
        ⟨by simp [Event.usesWriter], fun _ => so⟩
      unfold Direction.onShutdown
      split
      · have second := first.snoc (.reachedDone count)
          ⟨by simp [Event.usesWriter], by simp [Event.isShutdown]⟩
        refine ⟨by simp, ?_, by simp [shutdownsSo], by simpa using second⟩
        simp only [moves] at earlier ⊢
        rw [List.filter_append, earlier]
        rfl
      · next notOk =>
          refine ⟨by simp, ?_, ?_, first⟩
          · simp only [moves] at earlier ⊢
            rw [List.filter_append, earlier]
            rfl
          · intro member
            rcases List.mem_append.mp member with old | new
            · exact so old
            · exact notOk (by simpa using (List.mem_singleton.mp new).symm)

/-- A call to the writer that is about to be answered is in order, too. -/
theorem awaits (orderly : Orderly direction) {call : Call}
    (awaits : direction.Awaits call) :
    (call.usesWriter = true →
      ∀ event ∈ direction.wire.log, event.isShutdown = false) ∧
    (call = .shutdown → .shutdown (.ready (.ok ())) ∉ direction.wire.log) := by
  have so := orderly.shutdowns
  cases awaits with
  | copying running waiting =>
      rw [running] at so
      exact ⟨fun _ => so,
        fun _ member => absurd (so _ member) (by simp [Event.isShutdown])⟩
  | shutdown shutting =>
      rw [shutting] at so
      exact ⟨by simp [Call.usesWriter], fun _ => so⟩
  | horizon => exact ⟨by simp [Call.usesWriter], by simp⟩

theorem pos_le_cap (orderly : Orderly direction) {buf : CopyBuffer}
    (running : direction.state = .running buf) : buf.pos ≤ buf.cap :=
  orderly.within buf running

end Orderly

namespace Duplex

/-- At every point of every duplex copy, each direction has a history its
state allows and has used its writer in order; no poll leaves a half-open
stream behind, and the copy succeeds with both writers shut down. -/
theorem copyDuplex_lifecycle (bufferSize : Side → Nat) (datagram : Bool)
    (script : Side → Script) (abortScript : Side → List Bool) (polls : Nat)
    (duplex : Duplex)
    (seen : Observed (copyDuplexAbortableWithDatagram polls)
      (Duplex.new bufferSize datagram script abortScript) duplex) :
    let start := Duplex.new bufferSize datagram script abortScript
    let log := fun side => (duplex.direction side).wire.log
    (∀ side, moves (log side) = movesTo (duplex.direction side).state) ∧
    (copyDuplexAbortableWithDatagram polls start = .ok .pending duplex →
      ∀ side other count, side ≠ other →
        (duplex.direction side).state = .done count →
        ∀ buf, (duplex.direction other).state ≠ .running buf) ∧
    (∀ side before event after, log side = before ++ event :: after →
      (event.usesWriter = true →
        ∀ earlier ∈ before, earlier.isShutdown = false) ∧
      (event.isShutdown = true → .shutdown (.ready (.ok ())) ∉ before)) ∧
    (∀ side call,
      copyDuplexAbortableWithDatagram polls start =
        .error (.direction side call) duplex →
      (call.usesWriter = true →
        ∀ earlier ∈ log side, earlier.isShutdown = false) ∧
      (call = .shutdown → .shutdown (.ready (.ok ())) ∉ log side)) ∧
    (∀ counts,
      copyDuplexAbortableWithDatagram polls start =
        .ok (.ready (.ok counts)) duplex →
      ∀ side, .shutdown (.ready (.ok ())) ∈ log side) := by
  intro start log
  have rule := copyDuplex_triple (fun _ _ step held => Orderly.step held step)
    (fun _ _ held running => held.pos_le_cap running) polls
  have entered : Both Orderly start ∧ start.Settled :=
    ⟨fun side => Orderly.new (bufferSize side) datagram (script side),
      settled_new bufferSize datagram script abortScript⟩
  have both : Both Orderly duplex :=
    rule.observed entered seen (fun _ _ ends => ends.1)
      (fun _ _ stops => stops.1)
  refine ⟨fun side => (both side).moved, ?_, fun side => (both side).ordered,
    ?_, ?_⟩
  · intro ended
    cases (rule.ok entered ended).2 with
    | pending settled => exact settled
  · intro side call halted
    cases (rule.error entered halted).2 with
    | direction awaits => exact (both side).awaits awaits
  · intro counts ended side
    have so := (both side).shutdowns
    cases (rule.ok entered ended).2 with
    | done aDone bDone =>
        cases side with
        | a =>
            rw [aDone] at so
            exact so
        | b =>
            rw [bDone] at so
            exact so

/-- A is aborted at once, and each shutdown takes a second poll. -/
def abortedA : Side → Script := fun _ =>
  { reads := [.pending, .pending, .pending]
    writes := []
    flushes := []
    shutdowns := [.pending, .ready (.ok ())]
    tokioUnstable := false
    budget := [] }

theorem copyDuplex_lifecycle_abortedA :
    let start := Duplex.new (fun _ => 1) true abortedA
      (fun side => [side == .a, false, false, false])
    let duplex := halt (copyDuplexAbortableWithDatagram 4) start
    copyDuplexAbortableWithDatagram 4 start =
      .ok (.ready (.ok (0, 0))) duplex ∧
    ∀ side, .shutdown (.ready (.ok ())) ∈
      (duplex.direction side).wire.log := by
  intro start duplex
  have ended : copyDuplexAbortableWithDatagram 4 start =
      .ok (.ready (.ok (0, 0))) duplex :=
    eq_ok_of_value? (by decide +kernel)
  obtain ⟨_, _, _, _, success⟩ := copyDuplex_lifecycle (fun _ => 1) true
    abortedA _ 4 duplex (.inl ⟨_, ended⟩)
  exact ⟨ended, success (0, 0) ended⟩

end Duplex

end HoprUtilities.Network
