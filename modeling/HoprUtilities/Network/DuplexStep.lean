import HoprUtilities.Network.Duplex

/-!
# What a direction and the duplex future can do

`DirectionStep` lists the steps of one direction, and the rules below carry
a predicate on directions that all of them preserve through
`transfer_one_direction` and through every poll of the duplex future.  The two
directions only meet in the rules for aborts and terminations, which move a
running direction to its shutdown; what they guarantee together is the content
of `Duplex.Settled`.
-/

namespace HoprUtilities.Network

open HoprUtilities.Lib

namespace Direction

/-- The direction after an answered shutdown. -/
def onShutdown (direction : Direction) (count : Nat) (script : Script) :
    Poll (IoResult Unit) → Direction
  | .ready (.ok ()) =>
      { state := .done count
        wire :=
          { script := script
            log := direction.wire.log ++
              [.shutdown (.ready (.ok ())), .reachedDone count] } }
  | answer =>
      { state := .shuttingDown count
        wire :=
          { script := script
            log := direction.wire.log ++ [.shutdown answer] } }

inductive DirectionStep (direction : Direction) : Direction → Prop where
  | copy {buf : CopyBuffer} {next : Copying}
      (running : direction.state = .running buf)
      (step : Copying.CopyStep { buf := buf, wire := direction.wire } next) :
      DirectionStep direction
        { state := .running next.buf, wire := next.wire }
  | resume {buf : CopyBuffer} {next : Copying}
      (running : direction.state = .running buf)
      (step : Copying.ResumeFlush { buf := buf, wire := direction.wire } next) :
      DirectionStep direction
        { state := .running next.buf, wire := next.wire }
  | copied {buf : CopyBuffer} {earlier : List Event}
      (running : direction.state = .running buf)
      (empty : buf.pos = buf.cap)
      (closed : buf.readDone = true)
      (flushed :
        direction.wire.log = earlier ++ [.flush (.ready (.ok ()))]) :
      DirectionStep direction
        (direction.note (.shuttingDown buf.amt)
          [.copied buf.amt, .leftRunning buf.amt])
  | stop {buf : CopyBuffer}
      (running : direction.state = .running buf) :
      DirectionStep direction (direction.shutDown buf.amt)
  | shutdown {count : Nat} (script : Script) (answer : Poll (IoResult Unit))
      (shutting : direction.state = .shuttingDown count) :
      DirectionStep direction (direction.onShutdown count script answer)

/-- The steps that `transfer_one_direction` takes itself: all but `stop`. -/
inductive TransferStep (direction : Direction) : Direction → Prop where
  | copy {buf : CopyBuffer} {next : Copying}
      (running : direction.state = .running buf)
      (step : Copying.CopyStep { buf := buf, wire := direction.wire } next) :
      TransferStep direction
        { state := .running next.buf, wire := next.wire }
  | resume {buf : CopyBuffer} {next : Copying}
      (running : direction.state = .running buf)
      (step : Copying.ResumeFlush { buf := buf, wire := direction.wire } next) :
      TransferStep direction
        { state := .running next.buf, wire := next.wire }
  | copied {buf : CopyBuffer} {earlier : List Event}
      (running : direction.state = .running buf)
      (empty : buf.pos = buf.cap)
      (closed : buf.readDone = true)
      (flushed :
        direction.wire.log = earlier ++ [.flush (.ready (.ok ()))]) :
      TransferStep direction
        (direction.note (.shuttingDown buf.amt)
          [.copied buf.amt, .leftRunning buf.amt])
  | shutdown {count : Nat} (script : Script) (answer : Poll (IoResult Unit))
      (shutting : direction.state = .shuttingDown count) :
      TransferStep direction (direction.onShutdown count script answer)

theorem TransferStep.directionStep {direction next : Direction}
    (step : TransferStep direction next) : DirectionStep direction next := by
  cases step with
  | copy running step => exact .copy running step
  | resume running step => exact .resume running step
  | copied running empty closed flushed =>
      exact .copied running empty closed flushed
  | shutdown script answer shutting =>
      exact .shutdown script answer shutting

/-- What `transfer_one_direction` has returned, by the state it left. -/
inductive Returned (direction : Direction) : Poll (IoResult Nat) → Prop where
  | pending (unfinished : ∀ count, direction.state ≠ .done count) :
      Returned direction .pending
  | error (err : IoError) : Returned direction (.ready (.error err))
  | done {count : Nat} (finished : direction.state = .done count) :
      Returned direction (.ready (.ok count))

/-- The call a direction waits for, by its state. -/
inductive Awaits (direction : Direction) : Call → Prop where
  | copying {buf : CopyBuffer} {call : Call}
      (running : direction.state = .running buf)
      (waiting :
        Copying.Waiting { buf := buf, wire := direction.wire } call ∨
          call = .flush ∧
            Copying.Resumes { buf := buf, wire := direction.wire }) :
      Awaits direction call
  | shutdown {count : Nat} (shutting : direction.state = .shuttingDown count) :
      Awaits direction .shutdown
  | horizon : Awaits direction .horizon

section Transfer

variable {invariant : Direction → Prop}

def EndsIn (invariant : Direction → Prop) (result : Poll (IoResult Nat))
    (direction : Direction) : Prop :=
  invariant direction ∧ direction.Returned result

def StopsIn (invariant : Direction → Prop) (call : Call)
    (direction : Direction) : Prop :=
  invariant direction ∧ direction.Awaits call

variable
  (closed : ∀ direction next, TransferStep direction next →
    invariant direction → invariant next)
  (bounded : ∀ direction buf, invariant direction →
    direction.state = .running buf → buf.pos ≤ buf.cap)

include closed bounded

theorem onBuffer_triple {buf : CopyBuffer} :
    Triple
      (fun direction => invariant direction ∧ direction.state = .running buf)
      (onBuffer buf Copying.pollCopy)
      (fun result direction => ∃ after, invariant direction ∧
        direction.state = .running after ∧
        Copying.Ended { buf := after, wire := direction.wire } result)
      (StopsIn invariant) := by
  apply Triple.zoom
  intro direction premise
  obtain ⟨holds, running⟩ := premise
  have rule := Copying.pollCopy_triple
    (fun copying next step held =>
      closed { state := .running copying.buf, wire := copying.wire }
        { state := .running next.buf, wire := next.wire } (.copy rfl step) held)
    (fun copying held =>
      bounded { state := .running copying.buf, wire := copying.wire }
        copying.buf held rfl)
    (fun copying next step held =>
      closed { state := .running copying.buf, wire := copying.wire }
        { state := .running next.buf, wire := next.wire } (.resume rfl step)
        held)
  apply rule.consequence
  · intro copying same
    subst same
    change invariant { state := .running buf, wire := direction.wire }
    rw [← running]
    exact holds
  · intro result copying premise
    obtain ⟨held, ended⟩ := premise
    exact ⟨copying.buf, held, rfl, ended⟩
  · intro call copying premise
    obtain ⟨held, waiting⟩ := premise
    exact ⟨held, .copying rfl waiting⟩

theorem transferRound_triple {again : DirectionM (Poll (IoResult Nat))}
    (tail : Triple invariant again (EndsIn invariant) (StopsIn invariant)) :
    Triple invariant (transferRound again)
      (EndsIn invariant) (StopsIn invariant) := by
  apply Triple.get_bind
  intro direction holds
  cases state : direction.state with
  | running buf =>
      apply Triple.bind _ ((onBuffer_triple closed bounded).startingAt
        ⟨holds, state⟩)
      intro result
      match result with
      | .pending =>
          apply Triple.pure
          intro current premise
          obtain ⟨after, held, running, ended⟩ := premise
          exact ⟨held, .pending (by simp [running])⟩
      | .ready (.error err) =>
          apply Triple.pure
          intro current premise
          obtain ⟨after, held, running, ended⟩ := premise
          exact ⟨held, .error err⟩
      | .ready (.ok count) =>
          apply Triple.modify_bind
          intro current premise
          obtain ⟨after, held, running, ended⟩ := premise
          apply tail.startingAt
          cases ended with
          | copied empty closed_ flushed =>
              exact closed _ _ (.copied running empty closed_ flushed) held
  | shuttingDown count =>
      apply Triple.bind (fun answer current => ∃ script,
        current =
          { direction with
            wire :=
              { script := script
                log := direction.wire.log ++ [.shutdown answer] } })
      · apply Triple.zoom
        intro current same wire same₂
        subst same
        subst same₂
        unfold Wire.pollShutdown
        cases current.wire.script.shutdowns with
        | nil => exact ⟨holds, .shutdown state⟩
        | cons answer rest => exact ⟨_, rfl⟩
      · have stepped := fun script answer =>
          closed _ _ (.shutdown script answer state) holds
        intro answer
        match answer with
        | .pending =>
            apply Triple.pure
            intro current premise
            obtain ⟨script, rfl⟩ := premise
            refine ⟨?_, .pending (by simp [state])⟩
            have kept := stepped script .pending
            unfold onShutdown at kept
            rwa [← state] at kept
        | .ready (.error err) =>
            apply Triple.pure
            intro current premise
            obtain ⟨script, rfl⟩ := premise
            refine ⟨?_, .error err⟩
            have kept := stepped script (.ready (.error err))
            unfold onShutdown at kept
            rwa [← state] at kept
        | .ready (.ok ()) =>
            apply Triple.modify_bind
            intro current premise
            obtain ⟨script, rfl⟩ := premise
            apply tail.startingAt
            have kept := stepped script (.ready (.ok ()))
            simpa [onShutdown, note] using kept
  | done count =>
      apply Triple.pure
      intro current same
      subst same
      exact ⟨holds, .done state⟩

theorem transferOneDirection_triple :
    Triple invariant transferOneDirection
      (EndsIn invariant) (StopsIn invariant) := by
  apply transferRound_triple closed bounded
  apply transferRound_triple closed bounded
  apply transferRound_triple closed bounded
  exact Triple.throw (fun _ holds => ⟨holds, .horizon⟩)

end Transfer

end Direction

namespace Duplex

/-- A direction that has left `Running`. -/
def Stopping (direction : Direction) : Prop :=
  ∀ buf, direction.state ≠ .running buf

/-- No side is done while the other one is still running. -/
def Settled (duplex : Duplex) : Prop :=
  ∀ side other count, side ≠ other →
    (duplex.direction side).state = .done count →
    Stopping (duplex.direction other)

theorem settled_new (bufferSize : Side → Nat) (datagram : Bool)
    (script : Side → Script) (abortScript : Side → List Bool) :
    (Duplex.new bufferSize datagram script abortScript).Settled := by
  intro side other count different done
  simp [Duplex.new, Direction.new] at done

/-- The outcome of a poll of the duplex future. -/
inductive Outcome (duplex : Duplex) : Transferred → Prop where
  | pending (settled : duplex.Settled) : Outcome duplex .pending
  | error (err : IoError) : Outcome duplex (.ready (.error err))
  | done {aToB bToA : Nat}
      (aDone : (duplex.direction .a).state = .done aToB)
      (bDone : (duplex.direction .b).state = .done bToA) :
      Outcome duplex (.ready (.ok (aToB, bToA)))

/-- The call the duplex future waits for. -/
inductive DuplexAwaits (duplex : Duplex) : DuplexCall → Prop where
  | direction {side : Side} {call : Call}
      (awaits : (duplex.direction side).Awaits call) :
      DuplexAwaits duplex (.direction side call)
  | abort (side : Side) : DuplexAwaits duplex (.abort side)

/-- The cached result of a direction is what its state still says. -/
def Cached (direction : Direction) : Poll Nat → Prop
  | .ready count => direction.state = .done count
  | .pending => True

@[simp] theorem setDirection_self (duplex : Duplex) (side : Side)
    (direction : Direction) :
    (duplex.setDirection side direction).direction side = direction := by
  simp [setDirection]

theorem setDirection_other {duplex : Duplex} {side other : Side}
    (different : other ≠ side) (direction : Direction) :
    (duplex.setDirection side direction).direction other =
      duplex.direction other := by
  simp [setDirection, different]

theorem setDirection_keeps (holds : Direction → Prop) {duplex : Duplex}
    {side : Side} {next : Direction}
    (keeps : holds (duplex.direction side) → holds next) (current : Side)
    (before : holds (duplex.direction current)) :
    holds ((duplex.setDirection side next).direction current) := by
  by_cases same : current = side
  · subst current
    rw [setDirection_self]
    exact keeps before
  · rw [setDirection_other same]
    exact before

section Poll

variable {invariant : Direction → Prop}

/-- Both directions satisfy the invariant. -/
def Both (invariant : Direction → Prop) (duplex : Duplex) : Prop :=
  ∀ side, invariant (duplex.direction side)

def EndsIn (invariant : Direction → Prop) (result : Transferred)
    (duplex : Duplex) : Prop :=
  Both invariant duplex ∧ duplex.Outcome result

def StopsIn (invariant : Direction → Prop) (call : DuplexCall)
    (duplex : Duplex) : Prop :=
  Both invariant duplex ∧ duplex.DuplexAwaits call

theorem both_setDirection {duplex : Duplex} {side : Side}
    {direction : Direction} (both : Both invariant duplex)
    (holds : invariant direction) :
    Both invariant (duplex.setDirection side direction) := by
  intro current
  exact setDirection_keeps invariant (fun _ => holds) current (both current)

variable
  (closed : ∀ direction next, Direction.DirectionStep direction next →
    invariant direction → invariant next)

include closed

theorem both_stopRunning {duplex : Duplex} (side : Side)
    (both : Both invariant duplex) :
    Both invariant (duplex.stopRunning side) := by
  unfold stopRunning
  cases state : (duplex.direction side).state with
  | running buf =>
      exact both_setDirection both (closed _ _ (.stop state) (both side))
  | shuttingDown count => exact both
  | done count => exact both

variable
  (bounded : ∀ direction buf, invariant direction →
    direction.state = .running buf → buf.pos ≤ buf.cap)

include bounded

/-- The transfer of one side.  The other side is untouched, `kept` is any
further property of the transferred side that its steps preserve, and the
continuation may rely on the result. -/
theorem transfer_triple (kept : Direction → Prop) {side : Side}
    {pre : Duplex → Prop} {next : Poll Nat → DuplexM Transferred}
    (keeps : ∀ direction next, Direction.DirectionStep direction next →
      kept direction → kept next)
    (entry : ∀ duplex, pre duplex →
      Both invariant duplex ∧ kept (duplex.direction side))
    (tail : ∀ result, Triple
      (fun duplex => ∃ before direction, pre before ∧
        Both invariant (before.setDirection side direction) ∧
        kept direction ∧ Cached direction result ∧
        duplex = before.setDirection side direction)
      (next result) (EndsIn invariant) (StopsIn invariant)) :
    Triple pre (transfer side next) (EndsIn invariant) (StopsIn invariant) := by
  have rule := Direction.transferOneDirection_triple
    (fun direction next step (held : invariant direction ∧ kept direction) =>
      (⟨closed _ _ step.directionStep held.1,
        keeps _ _ step.directionStep held.2⟩ : invariant next ∧ kept next))
    (fun direction buf held running => bounded direction buf held.1 running)
  apply Triple.bind (fun result duplex => ∃ before direction, pre before ∧
    Both invariant (before.setDirection side direction) ∧ kept direction ∧
    direction.Returned result ∧ duplex = before.setDirection side direction)
  · apply Triple.zoom
    intro duplex entered
    obtain ⟨both, held⟩ := entry duplex entered
    apply rule.consequence
    · intro direction same
      subst same
      exact ⟨both side, held⟩
    · intro result direction premise
      obtain ⟨⟨holds, still⟩, returned⟩ := premise
      exact ⟨duplex, direction, entered, both_setDirection both holds, still,
        returned, rfl⟩
    · intro call direction premise
      obtain ⟨⟨holds, _⟩, awaits⟩ := premise
      refine ⟨both_setDirection both holds, .direction ?_⟩
      rwa [setDirection_self]
  · intro result
    match result with
    | .ready (.error err) =>
        apply Triple.pure
        intro duplex premise
        obtain ⟨before, direction, entered, holds, still, returned, rfl⟩ :=
          premise
        exact ⟨holds, .error err⟩
    | .ready (.ok count) =>
        apply (tail (.ready count)).strengthenPre
        intro duplex premise
        obtain ⟨before, direction, entered, holds, still, returned, rfl⟩ :=
          premise
        cases returned with
        | done finished =>
            exact ⟨before, direction, entered, holds, still, finished, rfl⟩
    | .pending =>
        apply (tail .pending).strengthenPre
        intro duplex premise
        obtain ⟨before, direction, entered, holds, still, returned, rfl⟩ :=
          premise
        exact ⟨before, direction, entered, holds, still, trivial, rfl⟩

end Poll

theorem stopping_of_step {direction next : Direction}
    (step : Direction.DirectionStep direction next)
    (stopping : Stopping direction) : Stopping next := by
  cases step with
  | copy running _ => exact (stopping _ running).elim
  | resume running _ => exact (stopping _ running).elim
  | copied running _ _ _ => exact (stopping _ running).elim
  | stop running => exact (stopping _ running).elim
  | shutdown script answer shutting =>
      intro buf
      unfold Direction.onShutdown
      split <;> simp

theorem stopping_stopRunning (duplex : Duplex) (side : Side) :
    Stopping ((duplex.stopRunning side).direction side) := by
  unfold stopRunning
  cases state : (duplex.direction side).state with
  | running buf => simp [Stopping, Direction.shutDown, Direction.note]
  | shuttingDown count => simp [Stopping, state]
  | done count => simp [Stopping, state]

theorem stopRunning_other {duplex : Duplex} {side other : Side}
    (different : other ≠ side) :
    (duplex.stopRunning side).direction other = duplex.direction other := by
  unfold stopRunning
  split
  · exact setDirection_other different _
  · rfl

/-- Stopping a running direction does not invalidate a cached result. -/
theorem cached_stopRunning {duplex : Duplex} {side current : Side}
    {result : Poll Nat} (cached : Cached (duplex.direction current) result) :
    Cached ((duplex.stopRunning side).direction current) result := by
  cases result with
  | pending => trivial
  | ready count =>
      change _ = _ at cached
      by_cases same : current = side
      · subst current
        simp [stopRunning, cached, Cached]
      · change _ = _
        rw [stopRunning_other same]
        exact cached

/-- Between the two transfers and the end of a poll, both directions satisfy
the invariant and agree with their cached results. -/
structure Stage (invariant : Direction → Prop) (results : Side → Poll Nat)
    (duplex : Duplex) : Prop where
  both : Both invariant duplex
  cached : ∀ side, Cached (duplex.direction side) (results side)

def cachedResults (aToB bToA : Poll Nat) : Side → Poll Nat
  | .a => aToB
  | .b => bToA

section Poll

variable {invariant : Direction → Prop}
  (closed : ∀ direction next, Direction.DirectionStep direction next →
    invariant direction → invariant next)

include closed

theorem initiateAbort_triple (side : Side) {results : Side → Poll Nat}
    {next : DuplexM Transferred}
    (tail : Triple (Stage invariant results) next
      (EndsIn invariant) (StopsIn invariant)) :
    Triple (Stage invariant results) (initiateAbort side next)
      (EndsIn invariant) (StopsIn invariant) := by
  apply Triple.bind (fun _ duplex => Stage invariant results duplex)
  · intro duplex stage
    unfold pollAbort
    cases duplex.abortScript side with
    | nil => exact ⟨stage.both, .abort side⟩
    | cons fired rest => exact ⟨stage.both, stage.cached⟩
  · intro fired
    cases fired with
    | false => exact tail
    | true =>
        apply Triple.modify_bind
        intro duplex stage
        apply tail.startingAt
        exact ⟨both_stopRunning closed side stage.both,
          fun current => cached_stopRunning (stage.cached current)⟩

variable
  (bounded : ∀ direction buf, invariant direction →
    direction.state = .running buf → buf.pos ≤ buf.cap)

include bounded

/-- After a termination rule, the side it looks at is no longer running if
the other side is done; the other side is untouched. -/
theorem terminate_triple {side other : Side} (different : other ≠ side)
    {result : Poll Nat} {pre : Duplex → Prop}
    {next : Poll Nat → DuplexM Transferred}
    (entry : ∀ duplex, pre duplex → Both invariant duplex ∧
      Cached (duplex.direction side) result)
    (tail : ∀ result, Triple
      (fun duplex => ∃ before, pre before ∧ Both invariant duplex ∧
        Cached (duplex.direction side) result ∧
        duplex.direction other = before.direction other ∧
        (duplex.direction side = before.direction side ∨
          ∃ count, (before.direction other).state = .done count) ∧
        ∀ count, (duplex.direction other).state = .done count →
          Stopping (duplex.direction side))
      (next result) (EndsIn invariant) (StopsIn invariant)) :
    Triple pre (terminate side other result next)
      (EndsIn invariant) (StopsIn invariant) := by
  apply Triple.get_bind
  intro duplex entered
  obtain ⟨both, cached⟩ := entry duplex entered
  split
  · next count buf otherDone running =>
      apply Triple.modify_bind
      intro current same
      subst same
      apply transfer_triple closed bounded Stopping
        (fun _ _ => stopping_of_step)
      · intro stopped same
        subst same
        exact ⟨both_stopRunning closed side both,
          stopping_stopRunning current side⟩
      · intro transferred
        apply (tail transferred).strengthenPre
        intro final premise
        obtain ⟨stopped, direction, rfl, holds, stopping, cached, rfl⟩ :=
          premise
        refine ⟨current, entered, holds, ?_, ?_, .inr ⟨count, otherDone⟩, ?_⟩
        · rwa [setDirection_self]
        · rw [setDirection_other different, stopRunning_other different]
        · intro _ _
          rwa [setDirection_self]
  · next unmatched =>
      apply (tail result).startingAt
      exact ⟨duplex, entered, both, cached, rfl, .inl rfl,
        fun count done buf running => unmatched count buf done running⟩

/-- The two termination rules together, and the result of the poll. -/
theorem terminations_triple (aToB bToA : Poll Nat) :
    Triple (Stage invariant (cachedResults aToB bToA))
      (terminate .a .b aToB fun aToB =>
        terminate .b .a bToA fun bToA =>
          match aToB, bToA with
          | .ready aToB, .ready bToA => return .ready (.ok (aToB, bToA))
          | _, _ => return .pending)
      (EndsIn invariant) (StopsIn invariant) := by
  apply terminate_triple closed bounded (by decide)
  · exact fun duplex stage => ⟨stage.both, stage.cached .a⟩
  intro aToB
  apply terminate_triple closed bounded (by decide)
  · intro duplex premise
    obtain ⟨before, stage, both, _, sameB, _⟩ := premise
    refine ⟨both, ?_⟩
    rw [sameB]
    exact stage.cached .b
  intro bToA duplex premise
  obtain ⟨middle, ⟨_, _, _, cachedA, _, _, settledA⟩, both, cachedB, sameA,
    changedB, settledB⟩ := premise
  have settled : duplex.Settled := by
    intro side other count different done
    match side, other with
    | .a, .a => exact (different rfl).elim
    | .b, .b => exact (different rfl).elim
    | .a, .b => exact settledB count done
    | .b, .a =>
        intro buf running
        rw [sameA] at running
        rcases changedB with sameB | ⟨earlier, aDone⟩
        · rw [sameB] at done
          exact settledA count done buf running
        · rw [running] at aDone
          cases aDone
  match aToB, bToA with
  | .ready aToB, .ready bToA =>
      refine ⟨both, .done ?_ cachedB⟩
      rw [sameA]
      exact cachedA
  | .ready _, .pending => exact ⟨both, .pending settled⟩
  | .pending, .ready _ => exact ⟨both, .pending settled⟩
  | .pending, .pending => exact ⟨both, .pending settled⟩

theorem pollDuplex_triple :
    Triple (Both invariant) pollDuplex
      (EndsIn invariant) (StopsIn invariant) := by
  apply transfer_triple closed bounded (fun _ => True)
    (fun _ _ _ _ => trivial) (fun _ both => ⟨both, trivial⟩)
  intro aToB
  apply transfer_triple closed bounded (fun _ => True)
    (fun _ _ _ _ => trivial)
  · intro duplex premise
    obtain ⟨before, direction, _, both, _, _, rfl⟩ := premise
    exact ⟨both, trivial⟩
  intro bToA
  have rest := initiateAbort_triple closed .a (initiateAbort_triple closed .b
    (terminations_triple closed bounded aToB bToA))
  apply rest.strengthenPre
  intro duplex premise
  obtain ⟨_, directionB, ⟨start, directionA, _, _, _, cachedA, rfl⟩, both, _,
    cachedB, rfl⟩ := premise
  refine ⟨both, ?_⟩
  intro choice
  rcases choice with _ | _
  · rw [setDirection_other (by decide), setDirection_self]
    exact cachedA
  · rw [setDirection_self]
    exact cachedB

/-- Every poll of the duplex future keeps what the steps of the two
directions keep. -/
theorem copyDuplex_triple (polls : Nat) :
    Triple (fun duplex => Both invariant duplex ∧ duplex.Settled)
      (copyDuplexAbortableWithDatagram polls)
      (EndsIn invariant) (StopsIn invariant) := by
  induction polls with
  | zero =>
      exact Triple.pure (fun _ premise => ⟨premise.1, .pending premise.2⟩)
  | succ polls induction =>
      apply Triple.bind (EndsIn invariant)
      · exact (pollDuplex_triple closed bounded).strengthenPre
          (fun _ premise => premise.1)
      · intro result
        cases result with
        | ready res => exact Triple.pure (fun _ ended => ended)
        | pending =>
            apply induction.strengthenPre
            intro duplex premise
            obtain ⟨both, outcome⟩ := premise
            cases outcome with
            | pending settled => exact ⟨both, settled⟩

end Poll

end Duplex

end HoprUtilities.Network
