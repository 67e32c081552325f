import HoprUtilities.Lib.History
import HoprUtilities.Network.DuplexStep

/-!
# No byte is lost, invented or reordered

The abstract content of a direction is a queue: what the reader has delivered
and the writer has not accepted yet, in order.  `Balanced` says that the live
part of the copy buffer is that queue.  It is preserved by every step, hence
holds at every point of every run, and it pins the byte counts that the
duplex copy reports.
-/

namespace HoprUtilities.Network

open HoprUtilities.Lib

namespace Event

/-- The bytes a reader hands over in this event. -/
def delivers : Event → Bytes
  | .read _ (.ready (.ok data)) => data
  | _ => []

/-- The bytes a writer takes in this event. -/
def accepts : Event → Bytes
  | .write slice (.ready (.ok count)) => slice.take count
  | _ => []

/-- A `poll_read`, whatever its answer. -/
def isRead : Event → Bool
  | .read _ _ => true
  | _ => false

end Event

def delivered (log : List Event) : Bytes := log.flatMap Event.delivers

def accepted (log : List Event) : Bytes := log.flatMap Event.accepts

@[simp] theorem delivered_append (log more : List Event) :
    delivered (log ++ more) = delivered log ++ delivered more := by
  simp [delivered]

@[simp] theorem accepted_append (log more : List Event) :
    accepted (log ++ more) = accepted log ++ accepted more := by
  simp [accepted]

@[simp] theorem delivered_singleton (event : Event) :
    delivered [event] = event.delivers := by
  simp [delivered]

@[simp] theorem accepted_singleton (event : Event) :
    accepted [event] = event.accepts := by
  simp [accepted]

/-- The reader has reported the end of its input into a non-empty room, and
was not asked again. -/
def EofSeen (log : List Event) : Prop :=
  ∃ before room after,
    log = before ++ .read room (.ready (.ok [])) :: after ∧ 0 < room ∧
      ∀ event ∈ after, event.isRead = false

theorem EofSeen.snoc {log : List Event} {event : Event}
    (seen : EofSeen log) (silent : event.isRead = false) :
    EofSeen (log ++ [event]) := by
  obtain ⟨before, room, after, rfl, roomy, quiet⟩ := seen
  refine ⟨before, room, after ++ [event], by simp, roomy, ?_⟩
  intro current member
  rcases List.mem_append.mp member with old | new
  · exact quiet current old
  · rw [List.mem_singleton.mp new]
    exact silent

namespace CopyBuffer

theorem slice_eq_drop_take (self : CopyBuffer) :
    self.slice = (self.buf.take self.cap).drop self.pos := by
  rw [slice, List.drop_take]

theorem length_slice {self : CopyBuffer} (below : self.cap ≤ self.buf.length) :
    self.slice.length = self.cap - self.pos := by
  simp only [slice, List.length_take, List.length_drop]
  omega

theorem slice_eq_nil {self : CopyBuffer} (empty : self.pos = self.cap) :
    self.slice = [] := by
  simp [slice, empty]

theorem slice_fill {self : CopyBuffer} {data : Bytes}
    (below : self.pos ≤ self.cap) (inside : self.cap ≤ self.buf.length) :
    (self.fill data).slice = self.slice ++ data := by
  rw [slice_eq_drop_take, slice_eq_drop_take]
  have prefixLength : (self.buf.take self.cap ++ data).length =
      self.cap + data.length := by
    simp only [List.length_append, List.length_take]
    omega
  have kept : (self.fill data).buf.take (self.cap + data.length) =
      self.buf.take self.cap ++ data := by
    simp only [fill]
    rw [List.take_append_of_le_length (by omega), ← prefixLength,
      List.take_length]
  have starts : self.pos ≤ (self.buf.take self.cap).length := by
    simp only [List.length_take]
    omega
  change ((self.fill data).buf.take (self.cap + data.length)).drop self.pos = _
  rw [kept, List.drop_append_of_le_length starts]

theorem length_fill {self : CopyBuffer} {data : Bytes}
    (fits : self.cap + data.length ≤ self.buf.length) :
    (self.fill data).buf.length = self.buf.length := by
  simp only [fill, List.length_append, List.length_take, List.length_drop]
  omega

/-- A write removes the accepted bytes from the live part of the buffer. -/
theorem slice_advance (self : CopyBuffer) (count : Nat) :
    (self.advance count).slice = self.slice.drop count := by
  rw [slice_eq_drop_take, slice_eq_drop_take, List.drop_drop]
  rfl

end CopyBuffer

/-- The buffer holds exactly what was delivered and not accepted yet. -/
structure Balanced (copying : Copying) : Prop where
  pos_le_cap : copying.buf.pos ≤ copying.buf.cap
  cap_le_length : copying.buf.cap ≤ copying.buf.buf.length
  roomy : 0 < copying.buf.buf.length
  conserved : delivered copying.wire.log =
    accepted copying.wire.log ++ copying.buf.slice
  counted : copying.buf.amt = (accepted copying.wire.log).length
  ended : copying.buf.readDone = true → EofSeen copying.wire.log

namespace Balanced

variable {copying : Copying}

theorem new {bufSize : Nat} (datagram : Bool) (script : Script)
    (sized : 0 < bufSize) :
    Balanced
      { buf := CopyBuffer.new bufSize datagram
        wire := { script := script, log := [] } } := by
  constructor <;> simp [CopyBuffer.new, CopyBuffer.slice, delivered, accepted,
    sized]

theorem quiet (balanced : Balanced copying) {buf : CopyBuffer}
    {script : Script} {event : Event}
    (sameBytes : buf.buf = copying.buf.buf)
    (samePos : buf.pos = copying.buf.pos) (sameCap : buf.cap = copying.buf.cap)
    (sameAmt : buf.amt = copying.buf.amt)
    (sameDone : buf.readDone = copying.buf.readDone)
    (noDelivery : event.delivers = []) (noAccept : event.accepts = [])
    (silent : event.isRead = false) :
    Balanced (copying.record buf script event) := by
  have sameSlice : buf.slice = copying.buf.slice := by
    simp [CopyBuffer.slice, sameBytes, samePos, sameCap]
  constructor
  · simpa [samePos, sameCap] using balanced.pos_le_cap
  · simpa [sameCap, sameBytes] using balanced.cap_le_length
  · simpa [sameBytes] using balanced.roomy
  · simpa [noDelivery, noAccept, sameSlice] using balanced.conserved
  · simpa [noAccept, sameAmt] using balanced.counted
  · intro done
    rw [Copying.record_buf, sameDone] at done
    exact (balanced.ended done).snoc silent

theorem read (balanced : Balanced copying) (script : Script)
    {room : Nat} {answer : Poll (IoResult Bytes)}
    (isRoom : room = copying.buf.buf.length - copying.buf.cap)
    (offered : 0 < room) (open_ : copying.buf.readDone = false)
    (fits : ReadFits room answer) :
    Balanced
      (copying.record (copying.buf.onRead answer) script
        (.read room answer)) := by
  have inside := balanced.cap_le_length
  match answer with
  | .pending | .ready (.error _) =>
      refine ⟨balanced.pos_le_cap, inside, balanced.roomy, ?_, ?_, ?_⟩
      · simpa [Event.delivers, Event.accepts, CopyBuffer.onRead] using
          balanced.conserved
      · simpa [Event.accepts, CopyBuffer.onRead] using balanced.counted
      · intro done
        rw [Copying.record_buf] at done
        simp [CopyBuffer.onRead, open_] at done
  | .ready (.ok data) =>
      have short : data.length ≤ room := fits data rfl
      have within : copying.buf.cap + data.length ≤
          copying.buf.buf.length := by omega
      have sameLength := CopyBuffer.length_fill within
      refine ⟨?_, ?_, ?_, ?_, ?_, ?_⟩
      · have below := balanced.pos_le_cap
        change copying.buf.pos ≤ copying.buf.cap + data.length
        omega
      · change copying.buf.cap + data.length ≤ (copying.buf.fill data).buf.length
        rw [sameLength]
        exact within
      · change 0 < (copying.buf.fill data).buf.length
        rw [sameLength]
        exact balanced.roomy
      · change delivered (_ ++ [_]) = accepted (_ ++ [_]) ++
          (copying.buf.fill data).slice
        rw [CopyBuffer.slice_fill balanced.pos_le_cap inside]
        simp [Event.delivers, Event.accepts, balanced.conserved]
      · simpa [Event.accepts, CopyBuffer.onRead, CopyBuffer.fill] using
          balanced.counted
      · intro done
        have empty : data = [] := by
          simpa [CopyBuffer.onRead, CopyBuffer.fill] using done
        subst data
        exact ⟨copying.wire.log, room, [], rfl, offered, by simp⟩

theorem write (balanced : Balanced copying) (script : Script)
    {answer : Poll (IoResult Nat)}
    (fits : WriteFits copying.buf.slice answer) :
    Balanced
      (copying.record (copying.buf.onWrite answer) script
        (.write copying.buf.slice answer)) := by
  match answer with
  | .pending | .ready (.error _) =>
      exact balanced.quiet rfl rfl rfl rfl rfl rfl rfl rfl
  | .ready (.ok 0) =>
      exact balanced.quiet rfl rfl rfl rfl rfl rfl (by simp [Event.accepts])
        rfl
  | .ready (.ok (count + 1)) =>
      have short : count + 1 ≤ copying.buf.slice.length := fits _ rfl
      have sliceLength := CopyBuffer.length_slice balanced.cap_le_length
      refine ⟨?_, balanced.cap_le_length, balanced.roomy, ?_, ?_, ?_⟩
      · change copying.buf.pos + (count + 1) ≤ copying.buf.cap
        omega
      · change delivered (_ ++ [_]) = accepted (_ ++ [_]) ++
          (copying.buf.advance (count + 1)).slice
        rw [CopyBuffer.slice_advance]
        simp only [delivered_append, accepted_append, delivered_singleton,
          accepted_singleton, Event.delivers, Event.accepts, List.append_nil,
          List.append_assoc, List.take_append_drop]
        exact balanced.conserved
      · change copying.buf.amt + (count + 1) = (accepted (_ ++ [_])).length
        simp only [accepted_append, accepted_singleton, Event.accepts,
          List.length_append, List.length_take, balanced.counted]
        omega
      · intro done
        exact (balanced.ended done).snoc rfl

theorem step (balanced : Balanced copying) {next : Copying}
    (step : Copying.CopyStep copying next) : Balanced next := by
  cases step with
  | flush script answer empty due =>
      apply balanced.quiet <;> try rfl
      all_goals unfold CopyBuffer.onFlush; split <;> rfl
  | rewind empty open_ flushed =>
      have drained := CopyBuffer.slice_eq_nil empty
      refine ⟨Nat.le_refl 0, Nat.zero_le _, balanced.roomy, ?_,
        balanced.counted, balanced.ended⟩
      rw [balanced.conserved, drained]
      simp [CopyBuffer.slice]
  | fill script answer atStart open_ flushed fits =>
      apply balanced.read script _ balanced.roomy open_ fits
      rw [atStart.2]
      rfl
  | proceed script unwritten =>
      exact ⟨balanced.pos_le_cap, balanced.cap_le_length, balanced.roomy,
        balanced.conserved, balanced.counted, balanced.ended⟩
  | write script answer unwritten fits => exact balanced.write script fits
  | topUp script answer unwritten stream open_ roomy fits =>
      exact balanced.read script rfl (by omega) open_ fits
  | finalFlush script answer empty closed =>
      exact balanced.quiet rfl rfl rfl rfl rfl rfl rfl rfl

theorem resume (balanced : Balanced copying) {next : Copying}
    (step : Copying.ResumeFlush copying next) : Balanced next := by
  cases step with
  | mk script answer resumes =>
      apply balanced.quiet <;> try rfl
      all_goals unfold CopyBuffer.onFlush; split <;> rfl

end Balanced

theorem Balanced.accepted_isPrefix {copying : Copying}
    (balanced : Balanced copying) :
    accepted copying.wire.log <+: delivered copying.wire.log :=
  ⟨copying.buf.slice, balanced.conserved.symm⟩

/-- What lies behind a `poll_copy` that has returned `Ok(count)`: the reader
has ended its input, everything it delivered was accepted, and the writer was
flushed after that. -/
def CopyComplete (before : List Event) (count : Nat) : Prop :=
  ∃ input room rest,
    before = input ++ .read room (.ready (.ok [])) :: rest ++
      [.flush (.ready (.ok ()))] ∧
    0 < room ∧ (∀ event ∈ rest, event.isRead = false) ∧
    accepted before = delivered input ∧ count = (delivered input).length

theorem delivered_eq_nil_of_quiet {log : List Event}
    (quiet : ∀ event ∈ log, event.isRead = false) : delivered log = [] := by
  simp only [delivered, List.flatMap_eq_nil_iff]
  intro event member
  have silent := quiet event member
  cases event <;> simp_all [Event.isRead, Event.delivers]

theorem Balanced.copyComplete {copying : Copying} {earlier : List Event}
    (balanced : Balanced copying)
    (empty : copying.buf.pos = copying.buf.cap)
    (closed : copying.buf.readDone = true)
    (flushed : copying.wire.log = earlier ++ [.flush (.ready (.ok ()))]) :
    CopyComplete copying.wire.log copying.buf.amt := by
  obtain ⟨input, room, after, split, roomy, quiet⟩ := balanced.ended closed
  have allAccepted : accepted copying.wire.log = delivered input := by
    have drained := balanced.conserved
    rw [CopyBuffer.slice_eq_nil empty, List.append_nil] at drained
    rw [← drained, split]
    have silent : delivered after = [] := delivered_eq_nil_of_quiet quiet
    simp only [delivered] at silent ⊢
    simp [Event.delivers, silent]
  have count : copying.buf.amt = (delivered input).length := by
    rw [balanced.counted, allAccepted]
  rw [flushed] at split
  rcases snoc_split split with ⟨_, absurd_, _⟩ | ⟨rest, rfl, older⟩
  · cases absurd_
  · refine ⟨input, room, rest, ?_, roomy, ?_, allAccepted, count⟩
    · rw [flushed, older]
    · intro event member
      exact quiet event (by simp [member])

/-- Only the completion of a copy is constrained by the log before it. -/
def completionRule (before : List Event) (event : Event) : Prop :=
  ∀ count, event = .copied count → CopyComplete before count

namespace Copying

/-- A step of the copy appends at most one event, and that is a call. -/
theorem CopyStep.log_cases {copying next : Copying}
    (step : CopyStep copying next) :
    next.wire.log = copying.wire.log ∨
      ∃ event, next.wire.log = copying.wire.log ++ [event] ∧
        ∀ count, event ≠ .copied count := by
  cases step with
  | flush script answer _ _ => exact .inr ⟨_, rfl, by simp⟩
  | rewind => exact .inl rfl
  | fill script answer _ _ _ _ => exact .inr ⟨_, rfl, by simp⟩
  | proceed script _ => exact .inl rfl
  | write script answer _ _ => exact .inr ⟨_, rfl, by simp⟩
  | topUp script answer _ _ _ _ _ => exact .inr ⟨_, rfl, by simp⟩
  | finalFlush script answer _ _ => exact .inr ⟨_, rfl, by simp⟩

end Copying

structure Faithful (direction : Direction) : Prop where
  running : ∀ buf, direction.state = .running buf →
    Balanced { buf := buf, wire := direction.wire }
  stopped : ∀ count,
    direction.state = .shuttingDown count ∨ direction.state = .done count →
    accepted direction.wire.log <+: delivered direction.wire.log ∧
      count = (accepted direction.wire.log).length
  completed : Chronicle completionRule direction.wire.log

namespace Faithful

variable {direction : Direction}

theorem new {bufSize : Nat} (datagram : Bool) (script : Script)
    (sized : 0 < bufSize) :
    Faithful (Direction.new bufSize datagram script) := by
  refine ⟨?_, ?_, Chronicle.nil⟩
  · intro buf running
    cases running
    exact Balanced.new datagram script sized
  · intro count choice
    rcases choice with shutting | done
    · cases shutting
    · cases done

/-- Appending events that move no bytes keeps the facts about a stopped
direction. -/
theorem of_note {next : Direction}
    {events : List Event}
    (same : next.wire.log = direction.wire.log ++ events)
    (halted : ∀ buf, next.state ≠ .running buf)
    (counts : ∀ count,
      next.state = .shuttingDown count ∨ next.state = .done count →
      accepted direction.wire.log <+: delivered direction.wire.log ∧
        count = (accepted direction.wire.log).length)
    (noDelivery : delivered events = []) (noAccept : accepted events = [])
    (completed : Chronicle completionRule next.wire.log) :
    Faithful next := by
  refine ⟨fun buf running => (halted buf running).elim, ?_, completed⟩
  intro count stopped
  rw [same]
  simpa [noDelivery, noAccept] using counts count stopped

theorem step (faithful : Faithful direction) {next : Direction}
    (step : Direction.DirectionStep direction next) : Faithful next := by
  cases step with
  | @copy buf after running step =>
      refine ⟨?_, by simp, ?_⟩
      · intro current same
        cases same
        exact (faithful.running buf running).step step
      · rcases step.log_cases with same | ⟨event, grown, notCopied⟩
        · rw [same]
          exact faithful.completed
        · rw [grown]
          exact faithful.completed.snoc _
            (fun count equality => (notCopied count equality).elim)
  | @resume buf after running step =>
      refine ⟨?_, by simp, ?_⟩
      · intro current same
        cases same
        exact (faithful.running buf running).resume step
      · cases step with
        | mk script answer resumes =>
            exact faithful.completed.snoc _ (by simp [completionRule])
  | @copied buf earlier running empty closed flushed =>
      have balanced := faithful.running buf running
      have complete := balanced.copyComplete empty closed flushed
      apply of_note rfl (by simp [Direction.note])
      · intro count choice
        rcases choice with shutting | done
        · cases shutting
          exact ⟨balanced.accepted_isPrefix, balanced.counted⟩
        · cases done
      · simp [delivered, Event.delivers]
      · simp [accepted, Event.accepts]
      · have first := faithful.completed.snoc (.copied buf.amt)
          (fun count equality => by cases equality; exact complete)
        have second := first.snoc (.leftRunning buf.amt)
          (by simp [completionRule])
        simpa [Direction.note] using second
  | @stop buf running =>
      have balanced := faithful.running buf running
      apply of_note rfl (by simp [Direction.shutDown, Direction.note])
      · intro count choice
        rcases choice with shutting | done
        · cases shutting
          exact ⟨balanced.accepted_isPrefix, balanced.counted⟩
        · cases done
      · simp [delivered, Event.delivers]
      · simp [accepted, Event.accepts]
      · exact faithful.completed.snoc _ (by simp [completionRule])
  | @shutdown count script answer shutting =>
      have counts := faithful.stopped count (.inl shutting)
      unfold Direction.onShutdown
      split
      · have first := faithful.completed.snoc
          (.shutdown (.ready (.ok ()))) (by simp [completionRule])
        have second := first.snoc (.reachedDone count)
          (by simp [completionRule])
        apply of_note rfl (by simp)
        · intro current choice
          rcases choice with shuttingDown | done
          · cases shuttingDown
          · cases done
            exact counts
        · simp [delivered, Event.delivers]
        · simp [accepted, Event.accepts]
        · simpa using second
      · apply of_note rfl (by simp)
        · intro current choice
          rcases choice with shuttingDown | done
          · cases shuttingDown
            exact counts
          · cases done
        · simp [delivered, Event.delivers]
        · simp [accepted, Event.accepts]
        · exact faithful.completed.snoc _ (by simp [completionRule])

theorem pos_le_cap (faithful : Faithful direction) {buf : CopyBuffer}
    (running : direction.state = .running buf) : buf.pos ≤ buf.cap :=
  (faithful.running buf running).pos_le_cap

theorem accepted_isPrefix (faithful : Faithful direction) :
    accepted direction.wire.log <+: delivered direction.wire.log := by
  cases state : direction.state with
  | running buf => exact (faithful.running buf state).accepted_isPrefix
  | shuttingDown count => exact (faithful.stopped count (.inl state)).1
  | done count => exact (faithful.stopped count (.inr state)).1

end Faithful

namespace Duplex

/-- At every point of every duplex copy, each direction has passed on a
prefix of what it was given, holds the rest in its buffer while it runs, and
reports the true counts. -/
theorem copyDuplex_conserves (bufferSize : Side → Nat)
    (sized : ∀ side, 0 < bufferSize side) (datagram : Bool)
    (script : Side → Script) (abortScript : Side → List Bool) (polls : Nat)
    (duplex : Duplex)
    (seen : Observed (copyDuplexAbortableWithDatagram polls)
      (Duplex.new bufferSize datagram script abortScript) duplex) :
    (∀ side,
      let direction := duplex.direction side
      let log := direction.wire.log
      accepted log <+: delivered log ∧
      (∀ buf, direction.state = .running buf →
        buf.pos ≤ buf.cap ∧ buf.cap ≤ buf.buf.length ∧
        delivered log = accepted log ++ buf.slice ∧
        buf.amt = (accepted log).length) ∧
      ∀ before count after, log = before ++ .copied count :: after →
        CopyComplete before count) ∧
    ∀ aToB bToA,
      copyDuplexAbortableWithDatagram polls
        (Duplex.new bufferSize datagram script abortScript) =
          .ok (.ready (.ok (aToB, bToA))) duplex →
      aToB = (accepted (duplex.direction .a).wire.log).length ∧
      bToA = (accepted (duplex.direction .b).wire.log).length := by
  have rule := copyDuplex_triple (fun _ _ step held => Faithful.step held step)
    (fun _ _ held running => held.pos_le_cap running) polls
  have start : Both Faithful
      (Duplex.new bufferSize datagram script abortScript) ∧
      (Duplex.new bufferSize datagram script abortScript).Settled :=
    ⟨fun side => Faithful.new datagram (script side) (sized side),
      settled_new bufferSize datagram script abortScript⟩
  have both : Both Faithful duplex :=
    rule.observed start seen (fun _ _ ends => ends.1) (fun _ _ stops => stops.1)
  refine ⟨?_, ?_⟩
  · intro side
    have faithful := both side
    refine ⟨faithful.accepted_isPrefix, ?_, ?_⟩
    · intro buf running
      have balanced := faithful.running buf running
      exact ⟨balanced.pos_le_cap, balanced.cap_le_length, balanced.conserved,
        balanced.counted⟩
    · intro before count after split
      exact faithful.completed before _ after split count rfl
  · intro aToB bToA ended
    have outcome := (rule.ok start ended).2
    cases outcome with
    | done aDone bDone =>
        exact ⟨((both .a).stopped aToB (.inr aDone)).2,
          ((both .b).stopped bToA (.inr bDone)).2⟩

/-- Two bytes travel from A to B in two partial writes before A ends its
input; B has nothing to say and is terminated. -/
def twoBytes : Side → Script
  | .a =>
      { reads := [.ready (.ok [1, 2]), .ready (.ok [])]
        writes := [.ready (.ok 1), .ready (.ok 1)]
        flushes := [.ready (.ok ())]
        shutdowns := [.ready (.ok ())]
        tokioUnstable := false
        budget := [] }
  | .b =>
      { reads := [.pending]
        writes := []
        flushes := []
        shutdowns := [.ready (.ok ())]
        tokioUnstable := false
        budget := [] }

theorem copyDuplex_conserves_twoBytes :
    let start := Duplex.new (fun _ => 4) false twoBytes (fun _ => [false])
    let duplex := halt (copyDuplexAbortableWithDatagram 1) start
    copyDuplexAbortableWithDatagram 1 start =
      .ok (.ready (.ok (2, 0))) duplex ∧
    2 = (accepted (duplex.direction .a).wire.log).length ∧
    0 = (accepted (duplex.direction .b).wire.log).length := by
  intro start duplex
  have ended : copyDuplexAbortableWithDatagram 1 start =
      .ok (.ready (.ok (2, 0))) duplex :=
    eq_ok_of_value? (by decide +kernel)
  exact ⟨ended, (copyDuplex_conserves (fun _ => 4) (fun _ => by decide) false
    twoBytes (fun _ => [false]) 1 duplex (.inl ⟨_, ended⟩)).2 2 0 ended⟩

end Duplex

end HoprUtilities.Network
