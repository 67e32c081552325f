import HoprUtilities.Network.Conservation

/-!
# Why a direction ends

A direction leaves `Running` when its copy is complete, when its own abort has
fired, or when the opposite direction is done.  What the two directions and
the aborts guarantee together is carried by a predicate on the whole duplex
future; the rule for such predicates asks for the reason of every stop.

The end of the input is an empty read.  It says so only if there was room to
read into, which a buffer of size zero never has.
-/

namespace HoprUtilities.Network

open HoprUtilities.Lib

namespace Duplex

theorem setDirection_current (duplex : Duplex) (side : Side) :
    duplex.setDirection side (duplex.direction side) = duplex := by
  obtain ⟨direction, abortScript, aborted⟩ := duplex
  simp only [setDirection, mk.injEq, and_true]
  funext current
  split_ifs with same
  · rw [same]
  · rfl

theorem setDirection_twice (duplex : Duplex) (side : Side)
    (first second : Direction) :
    (duplex.setDirection side first).setDirection side second =
      duplex.setDirection side second := by
  simp only [setDirection, mk.injEq, and_true]
  funext current
  split_ifs <;> rfl

/-- The future after the abort registration of a side was polled. -/
def afterAbortPoll (duplex : Duplex) (side : Side) (fired : Bool)
    (rest : List Bool) : Duplex :=
  { duplex with
    abortScript := fun current =>
      if current = side then rest else duplex.abortScript current
    aborted := fun current =>
      if current = side then duplex.aborted side || fired
      else duplex.aborted current }

section Rule

variable {invariant : Duplex → Prop}
  (closed : ∀ duplex side next,
    Direction.TransferStep (duplex.direction side) next →
    invariant duplex → invariant (duplex.setDirection side next))
  (bounded : ∀ duplex side buf, invariant duplex →
    (duplex.direction side).state = .running buf → buf.pos ≤ buf.cap)

include closed bounded

theorem transfer_keeps {side : Side} {next : Poll Nat → DuplexM Transferred}
    (tail : ∀ result, Triple invariant (next result) (fun _ => invariant)
      (fun _ => invariant)) :
    Triple invariant (transfer side next) (fun _ => invariant)
      (fun _ => invariant) := by
  apply Triple.bind (fun _ => invariant)
  · apply Triple.zoom
    intro duplex holds
    have moves : ∀ direction next, Direction.TransferStep direction next →
        invariant (duplex.setDirection side direction) →
        invariant (duplex.setDirection side next) := by
      intro direction next step held
      have here : (duplex.setDirection side direction).direction side =
          direction := setDirection_self duplex side direction
      have moved := closed _ side next (by rwa [here]) held
      rwa [setDirection_twice] at moved
    have ordered : ∀ direction buf,
        invariant (duplex.setDirection side direction) →
        direction.state = .running buf → buf.pos ≤ buf.cap := by
      intro direction buf held running
      refine bounded _ side buf held ?_
      rwa [setDirection_self]
    apply (Direction.transferOneDirection_triple moves ordered).consequence
    · intro direction same
      rw [same, setDirection_current]
      exact holds
    · exact fun _ _ ended => ended.1
    · exact fun _ _ stopped => stopped.1
  · intro result
    match result with
    | .ready (.error err) => exact Triple.pure (fun _ holds => holds)
    | .ready (.ok count) => exact tail _
    | .pending => exact tail _

variable
  (polled : ∀ duplex side fired rest, invariant duplex →
    invariant (duplex.afterAbortPoll side fired rest))
  (aborts : ∀ duplex side, duplex.aborted side = true → invariant duplex →
    invariant (duplex.stopRunning side))
  (terminates : ∀ duplex side other count, other ≠ side →
    (duplex.direction other).state = .done count → invariant duplex →
    invariant (duplex.stopRunning side))

omit closed bounded in
include polled aborts in
theorem initiateAbort_keeps {side : Side} {next : DuplexM Transferred}
    (tail : Triple invariant next (fun _ => invariant)
      (fun _ => invariant)) :
    Triple invariant (initiateAbort side next) (fun _ => invariant)
      (fun _ => invariant) := by
  apply Triple.bind (fun fired duplex =>
    invariant duplex ∧ (fired = true → duplex.aborted side = true))
  · intro duplex holds
    unfold pollAbort
    cases duplex.abortScript side with
    | nil => exact holds
    | cons fired rest =>
        refine ⟨polled duplex side fired rest holds, fun aborted => ?_⟩
        simpa using aborted
  · intro fired
    cases fired with
    | false => exact tail.strengthenPre (fun _ premise => premise.1)
    | true =>
        apply Triple.modify_bind
        intro duplex premise
        apply tail.startingAt
        exact aborts duplex side (premise.2 rfl) premise.1

include terminates in
theorem terminate_keeps {side other : Side} (different : other ≠ side)
    {result : Poll Nat} {next : Poll Nat → DuplexM Transferred}
    (tail : ∀ result, Triple invariant (next result) (fun _ => invariant)
      (fun _ => invariant)) :
    Triple invariant (terminate side other result next) (fun _ => invariant)
      (fun _ => invariant) := by
  apply Triple.get_bind
  intro duplex holds
  split
  · next count buf otherDone running =>
      apply Triple.modify_bind
      intro current same
      subst same
      exact (transfer_keeps closed bounded tail).startingAt
        (terminates current side other count different otherDone holds)
  · exact (tail result).startingAt holds

include polled aborts terminates in
/-- What every step keeps, and every stop that has its reason, holds at every
point of every run. -/
theorem copyDuplex_keeps (polls : Nat) :
    Triple invariant (copyDuplexAbortableWithDatagram polls)
      (fun _ => invariant) (fun _ => invariant) := by
  have poll : Triple invariant pollDuplex (fun _ => invariant)
      (fun _ => invariant) := by
    apply transfer_keeps closed bounded
    intro aToB
    apply transfer_keeps closed bounded
    intro bToA
    apply initiateAbort_keeps polled aborts
    apply initiateAbort_keeps polled aborts
    apply terminate_keeps closed bounded terminates (by decide)
    intro aToB
    apply terminate_keeps closed bounded terminates (by decide)
    intro bToA
    match aToB, bToA with
    | .ready aToB, .ready bToA => exact Triple.pure (fun _ holds => holds)
    | .ready _, .pending => exact Triple.pure (fun _ holds => holds)
    | .pending, _ => exact Triple.pure (fun _ holds => holds)
  induction polls with
  | zero => exact Triple.pure (fun _ holds => holds)
  | succ polls induction =>
      apply Triple.bind (fun _ => invariant) poll
      intro result
      cases result with
      | ready res => exact Triple.pure (fun _ holds => holds)
      | pending => exact induction

end Rule

/-- The reader of the direction has delivered an empty read into a room that
was not empty. -/
def ReaderEnded (direction : Direction) : Prop :=
  ∃ room, 0 < room ∧
    Event.read room (.ready (.ok [])) ∈ direction.wire.log

/-- Every direction that is no longer running has a reason of its own or an
opposite direction that is done, and the first one had a reason of its own. -/
structure EndsForReason (duplex : Duplex) : Prop where
  reason : ∀ side, Stopping (duplex.direction side) →
    ReaderEnded (duplex.direction side) ∨ duplex.aborted side = true ∨
      ∃ other count, other ≠ side ∧
        (duplex.direction other).state = .done count
  origin : ∀ side, Stopping (duplex.direction side) →
    ∃ cause, ReaderEnded (duplex.direction cause) ∨
      duplex.aborted cause = true

theorem readerEnded_of_eofSeen {direction : Direction}
    (seen : EofSeen direction.wire.log) : ReaderEnded direction := by
  obtain ⟨before, room, after, split, roomy, _⟩ := seen
  exact ⟨room, roomy, by rw [split]; simp⟩

theorem readerEnded_of_step {direction next : Direction}
    (step : Direction.DirectionStep direction next)
    (ended : ReaderEnded direction) : ReaderEnded next := by
  obtain ⟨room, roomy, member⟩ := ended
  refine ⟨room, roomy, ?_⟩
  cases step with
  | copy running step =>
      rcases step.log_cases with same | ⟨event, grown, _⟩
      · rw [same]
        exact member
      · rw [grown]
        exact List.mem_append_left _ member
  | resume running step =>
      cases step with
      | mk script answer resumes => exact List.mem_append_left _ member
  | copied | stop => exact List.mem_append_left _ member
  | shutdown script answer shutting =>
      unfold Direction.onShutdown
      split <;> exact List.mem_append_left _ member

/-- A direction that leaves `Running` by itself has read to the end. -/
theorem leaves_of_transferStep {direction next : Direction}
    (faithful : Faithful direction)
    (step : Direction.TransferStep direction next) (stopping : Stopping next) :
    Stopping direction ∨ ReaderEnded direction := by
  cases step with
  | copy running step => exact (stopping _ rfl).elim
  | resume running step => exact (stopping _ rfl).elim
  | @copied buf earlier running empty closed flushed =>
      have balanced := faithful.running buf running
      exact .inr (readerEnded_of_eofSeen (balanced.ended closed))
  | shutdown script answer shutting =>
      refine .inl fun buf running => ?_
      rw [shutting] at running
      cases running

theorem done_of_transferStep {direction next : Direction} {count : Nat}
    (step : Direction.TransferStep direction next)
    (done : direction.state = .done count) : next.state = .done count := by
  cases step with
  | copy running _ | resume running _ | copied running _ _ _ =>
      rw [done] at running
      cases running
  | shutdown script answer shutting =>
      rw [done] at shutting
      cases shutting

theorem EndsForReason.setDirection {duplex : Duplex} {side : Side}
    {next : Direction} (ends : EndsForReason duplex)
    (read : ReaderEnded (duplex.direction side) → ReaderEnded next)
    (done : ∀ count, (duplex.direction side).state = .done count →
      next.state = .done count)
    (leaves : Stopping next → Stopping (duplex.direction side) ∨
      ReaderEnded (duplex.direction side) ∨ duplex.aborted side = true ∨
        ∃ other count, other ≠ side ∧
          (duplex.direction other).state = .done count) :
    EndsForReason (duplex.setDirection side next) := by
  have readAt : ∀ current, ReaderEnded (duplex.direction current) →
      ReaderEnded ((duplex.setDirection side next).direction current) :=
    setDirection_keeps ReaderEnded read
  have doneAt : ∀ current count,
      (duplex.direction current).state = .done count →
      ((duplex.setDirection side next).direction current).state =
        .done count := by
    intro current count
    exact setDirection_keeps (fun direction => direction.state = .done count)
      (done count) current
  have before : ∀ current,
      Stopping ((duplex.setDirection side next).direction current) →
      ReaderEnded (duplex.direction current) ∨
        duplex.aborted current = true ∨
        ∃ other count, other ≠ current ∧
          (duplex.direction other).state = .done count := by
    intro current stopping
    by_cases same : current = side
    · subst same
      rw [setDirection_self] at stopping
      rcases leaves stopping with old | new
      · exact ends.reason current old
      · exact new
    · rw [setDirection_other same] at stopping
      exact ends.reason current stopping
  constructor
  · intro current stopping
    rcases before current stopping with
      ended | aborted | ⟨other, count, different, finished⟩
    · exact .inl (readAt current ended)
    · exact .inr (.inl aborted)
    · exact .inr (.inr ⟨other, count, different, doneAt other count finished⟩)
  · intro current stopping
    have cause : ∃ cause, ReaderEnded (duplex.direction cause) ∨
        duplex.aborted cause = true := by
      rcases before current stopping with
        ended | aborted | ⟨other, count, _, finished⟩
      · exact ⟨current, .inl ended⟩
      · exact ⟨current, .inr aborted⟩
      · refine ends.origin other (fun buf running => ?_)
        rw [finished] at running
        cases running
    obtain ⟨cause, ended | aborted⟩ := cause
    · exact ⟨cause, .inl (readAt cause ended)⟩
    · exact ⟨cause, .inr aborted⟩

theorem EndsForReason.stopRunning {duplex : Duplex} {side : Side}
    (ends : EndsForReason duplex)
    (reason : duplex.aborted side = true ∨
      ∃ other count, other ≠ side ∧
        (duplex.direction other).state = .done count) :
    EndsForReason (duplex.stopRunning side) := by
  unfold Duplex.stopRunning
  cases state : (duplex.direction side).state with
  | running buf =>
      refine ends.setDirection (readerEnded_of_step (.stop state)) ?_
        (fun _ => .inr (.inr reason))
      intro count done
      rw [state] at done
      cases done
  | shuttingDown count | done count => exact ends

/-- The invariant behind the reasons. -/
structure Reasoned (duplex : Duplex) : Prop where
  faithful : ∀ side, Faithful (duplex.direction side)
  ends : EndsForReason duplex

theorem reasoned_new {bufferSize : Side → Nat}
    (sized : ∀ side, 0 < bufferSize side) (datagram : Bool)
    (script : Side → Script) (abortScript : Side → List Bool) :
    Reasoned (Duplex.new bufferSize datagram script abortScript) := by
  have running : ∀ side, ¬Stopping
      ((Duplex.new bufferSize datagram script abortScript).direction side) :=
    fun side stopping => stopping _ rfl
  exact
    { faithful := fun side => Faithful.new datagram (script side) (sized side)
      ends :=
        { reason := fun side stopping => (running side stopping).elim
          origin := fun side stopping => (running side stopping).elim } }

theorem Reasoned.transferStep (duplex : Duplex) (side : Side)
    (next : Direction)
    (step : Direction.TransferStep (duplex.direction side) next)
    (reasoned : Reasoned duplex) :
    Reasoned (duplex.setDirection side next) := by
  refine ⟨both_setDirection reasoned.faithful
    ((reasoned.faithful side).step step.directionStep), ?_⟩
  refine reasoned.ends.setDirection (readerEnded_of_step step.directionStep)
    (fun _ => done_of_transferStep step) ?_
  intro stopping
  rcases leaves_of_transferStep (reasoned.faithful side) step stopping with
    old | ended
  · exact .inl old
  · exact .inr (.inl ended)

theorem Reasoned.stopRunning {duplex : Duplex} {side : Side}
    (reasoned : Reasoned duplex)
    (reason : duplex.aborted side = true ∨
      ∃ other count, other ≠ side ∧
        (duplex.direction other).state = .done count) :
    Reasoned (duplex.stopRunning side) :=
  { faithful := both_stopRunning (fun _ _ step faithful => faithful.step step)
      side reasoned.faithful
    ends := reasoned.ends.stopRunning reason }

theorem Reasoned.afterAbortPoll (duplex : Duplex) (side : Side)
    (fired : Bool) (rest : List Bool) (reasoned : Reasoned duplex) :
    Reasoned (duplex.afterAbortPoll side fired rest) := by
  have still : ∀ current, duplex.aborted current = true →
      (duplex.afterAbortPoll side fired rest).aborted current = true := by
    intro current aborted
    by_cases same : current = side
    · subst same
      simp [Duplex.afterAbortPoll, aborted]
    · simp [Duplex.afterAbortPoll, same, aborted]
  refine ⟨reasoned.faithful, ?_, ?_⟩
  · intro current stopping
    rcases reasoned.ends.reason current stopping with ended | aborted | done
    · exact .inl ended
    · exact .inr (.inl (still current aborted))
    · exact .inr (.inr done)
  · intro current stopping
    obtain ⟨cause, ended | aborted⟩ := reasoned.ends.origin current stopping
    · exact ⟨cause, .inl ended⟩
    · exact ⟨cause, .inr (still cause aborted)⟩

theorem copyDuplex_reasoned (polls : Nat) :
    Triple Reasoned (copyDuplexAbortableWithDatagram polls)
      (fun _ => Reasoned) (fun _ => Reasoned) :=
  copyDuplex_keeps Reasoned.transferStep
    (fun _ side buf reasoned running =>
      ((reasoned.faithful side).running buf running).pos_le_cap)
    Reasoned.afterAbortPoll
    (fun _ _ aborted reasoned => reasoned.stopRunning (.inl aborted))
    (fun _ _ other count different done reasoned =>
      reasoned.stopRunning (.inr ⟨other, count, different, done⟩)) polls

/-- With these buffer sizes, every direction of every run ends for a reason,
and a run that returns `Ok` has had one. -/
def EndsJustified (bufferSize : Side → Nat) : Prop :=
  ∀ datagram script abortScript polls,
    let start := Duplex.new bufferSize datagram script abortScript
    let final := halt (copyDuplexAbortableWithDatagram polls) start
    EndsForReason final ∧
      ∀ counts, value? (copyDuplexAbortableWithDatagram polls) start =
        some (.ready (.ok counts)) →
        ∃ cause, ReaderEnded (final.direction cause) ∨
          final.aborted cause = true

/-- A reader, and a writer that can be flushed once. -/
def offering (reads : List (Poll (IoResult Bytes))) : Script :=
  { reads := reads
    writes := []
    flushes := [.ready (.ok ())]
    shutdowns := []
    tokioUnstable := false
    budget := [] }

/-- The reader of one side has a byte to give, the other reader waits. -/
def oneByte (side current : Side) : Script :=
  offering (if current = side then [.ready (.ok [1])] else [.pending])

/-- A direction of size zero after the byte was offered to it. -/
def mistaken : Direction :=
  { state := .shuttingDown 0
    wire :=
      { script := { offering [] with flushes := [] }
        log := [.read 0 (.ready (.ok [])), .flush (.ready (.ok ())),
          .copied 0, .leftRunning 0] } }

theorem transfer_stops {duplex : Duplex} {side : Side}
    {next : Poll Nat → DuplexM Transferred} {call : Call}
    {direction : Direction}
    (stops : Direction.transferOneDirection (duplex.direction side) =
      .error call direction) :
    transfer side next duplex =
      .error (.direction side call) (duplex.setDirection side direction) := by
  change EStateM.bind _ _ duplex = _
  unfold EStateM.bind onDirection zoom
  rw [stops]

theorem transfer_parks {duplex : Duplex} {side : Side}
    {next : Poll Nat → DuplexM Transferred} {direction : Direction}
    (parks : Direction.transferOneDirection (duplex.direction side) =
      .ok .pending direction) :
    transfer side next duplex =
      next .pending (duplex.setDirection side direction) := by
  change EStateM.bind _ _ duplex = _
  unfold EStateM.bind onDirection zoom
  rw [parks]

theorem mistaken_of_empty :
    Direction.transferOneDirection
      (Direction.new 0 false (offering [.ready (.ok [1])])) =
      .error .shutdown mistaken := rfl

theorem parks_of_pending (bufSize : Nat) :
    ∃ direction, Direction.transferOneDirection
      (Direction.new bufSize false (offering [.pending])) =
        .ok .pending direction ∧
      ∃ buf, direction.state = .running buf := ⟨_, rfl, _, rfl⟩

theorem halt_of_poll {polls : Nat} {start final : Duplex} {call : DuplexCall}
    (stopped : pollDuplex start = .error call final) :
    halt (copyDuplexAbortableWithDatagram (polls + 1)) start = final := by
  have ended : copyDuplexAbortableWithDatagram (polls + 1) start =
      .error call final := by
    change EStateM.bind _ _ start = _
    unfold EStateM.bind
    rw [stopped]
  rw [halt, ended]

/-- The empty buffer of a side takes the first byte for the end, while the
other side is running and nothing is aborted. -/
theorem halts_mistaken {bufferSize : Side → Nat} {side : Side}
    (empty : bufferSize side = 0) :
    ∃ final, halt (copyDuplexAbortableWithDatagram 1)
        (Duplex.new bufferSize false (oneByte side) fun _ => []) = final ∧
      final.direction side = mistaken ∧
      (∀ current, final.aborted current = false) ∧
      ∀ other, other ≠ side →
        ∃ buf, (final.direction other).state = .running buf := by
  have mistakes : Direction.transferOneDirection
      (Direction.new (bufferSize side) false (oneByte side side)) =
      .error .shutdown mistaken := by
    rw [empty, oneByte, if_pos rfl]
    exact mistaken_of_empty
  cases side with
  | a =>
      refine ⟨_, halt_of_poll (transfer_stops mistakes), rfl, fun _ => rfl, ?_⟩
      intro other different
      cases other with
      | a => exact (different rfl).elim
      | b => exact ⟨_, rfl⟩
  | b =>
      obtain ⟨parked, parks, running⟩ := parks_of_pending (bufferSize .a)
      have stopped : pollDuplex
          (Duplex.new bufferSize false (oneByte .b) fun _ => []) =
          .error (.direction .b .shutdown)
            (((Duplex.new bufferSize false (oneByte .b) fun _ => []).setDirection
              .a parked).setDirection .b mistaken) := by
        rw [pollDuplex, transfer_parks parks]
        exact transfer_stops mistakes
      refine ⟨_, halt_of_poll stopped, rfl, fun _ => rfl, ?_⟩
      intro other different
      cases other with
      | a => exact running
      | b => exact (different rfl).elim

/-- Every end is justified if and only if no buffer is empty. -/
theorem endsJustified_iff (bufferSize : Side → Nat) :
    EndsJustified bufferSize ↔ ∀ side, 1 ≤ bufferSize side := by
  constructor
  · intro justified side
    by_contra empty
    obtain ⟨final, halted, there, unaborted, running⟩ :=
      halts_mistaken (Nat.lt_one_iff.mp (Nat.lt_of_not_le empty))
    have ends := (justified false (oneByte side) (fun _ => []) 1).1
    rw [halted] at ends
    have stopping : Stopping (final.direction side) := by
      rw [there]
      simp [Stopping, mistaken]
    rcases ends.reason side stopping with
      ended | aborted | ⟨other, count, different, done⟩
    · rw [there] at ended
      obtain ⟨room, roomy, member⟩ := ended
      simp [mistaken] at member
      omega
    · rw [unaborted side] at aborted
      cases aborted
    · obtain ⟨buf, still⟩ := running other different
      rw [done] at still
      cases still
  · intro sized datagram script abortScript polls
    have start : Reasoned
        (Duplex.new bufferSize datagram script abortScript) :=
      reasoned_new sized datagram script abortScript
    have reasoned := (copyDuplex_reasoned polls).observed start
      (observed_halt _ _) (fun _ _ holds => holds) (fun _ _ holds => holds)
    refine ⟨reasoned.ends, ?_⟩
    intro counts ended
    have outcome := ((copyDuplex_triple
      (fun _ _ step faithful => Faithful.step faithful step)
      (fun _ _ faithful running => (faithful.running _ running).pos_le_cap)
      polls).ok ⟨start.faithful, settled_new _ _ _ _⟩
      (eq_ok_of_value? ended)).2
    cases outcome with
    | done aDone _ =>
        refine reasoned.ends.origin .a (fun buf running => ?_)
        rw [aDone] at running
        cases running

/-- Both readers have a byte to give, and the writers can be shut down. -/
def byteEach (_ : Side) : Script :=
  { offering [.ready (.ok [1])] with shutdowns := [.ready (.ok ())] }

/-- Nobody has ended its input and nothing is aborted, and the copy returns
`Ok((0, 0))`. -/
theorem empty_buffers_end_at_once :
    ¬ EndsJustified (fun _ => 0) ∧
    value? (copyDuplexAbortableWithDatagram 1)
      (Duplex.new (fun _ => 0) false byteEach fun _ => [false]) =
      some (.ready (.ok (0, 0))) := by
  have returned : value? (copyDuplexAbortableWithDatagram 1)
      (Duplex.new (fun _ => 0) false byteEach fun _ => [false]) =
      some (.ready (.ok (0, 0))) := rfl
  refine ⟨fun justified => ?_, returned⟩
  have log : ∀ side, ((halt (copyDuplexAbortableWithDatagram 1)
      (Duplex.new (fun _ => 0) false byteEach fun _ => [false])).direction
        side).wire.log =
      mistaken.wire.log ++ [.shutdown (.ready (.ok ())), .reachedDone 0] := by
    intro side
    cases side <;> rfl
  obtain ⟨cause, ⟨room, roomy, member⟩ | aborted⟩ :=
    (justified false byteEach (fun _ => [false]) 1).2 (0, 0) returned
  · rw [log cause] at member
    simp [mistaken] at member
    omega
  · cases cause <;> cases aborted

end Duplex

end HoprUtilities.Network
