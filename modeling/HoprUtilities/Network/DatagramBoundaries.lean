import HoprUtilities.Network.Conservation

/-!
# Datagram boundaries

In datagram mode a read is one datagram.  This module proves that what is
written never mixes two reads and that a datagram is flushed before the next
one is read, over every run of `poll_copy`.

The flush at the head of the loop looks at `need_flush` only.  When the
writer takes a part of a datagram and then answers `Pending`, the next poll
flushes in the middle of that datagram.  The last section says exactly when
this happens.
-/

namespace HoprUtilities.Network

open HoprUtilities.Lib

/-- The latest delivery in the log is one read, and `slice` is a suffix of
its bytes. -/
def OfOneRead (log : List Event) (slice : Bytes) : Prop :=
  ∃ earlier room data later,
    log = earlier ++ .read room (.ready (.ok data)) :: later ∧
    (∀ event ∈ later, event.delivers = []) ∧ slice <:+ data

/-- Some accepted bytes have not been flushed since. -/
def Unflushed (log : List Event) : Prop :=
  ∃ before slice count after,
    log = before ++ .write slice (.ready (.ok count)) :: after ∧
    0 < count ∧ .flush (.ready (.ok ())) ∉ after

theorem OfOneRead.snoc {log : List Event} {slice rest : Bytes} {event : Event}
    (one : OfOneRead log slice) (silent : event.delivers = [])
    (shorter : rest <:+ slice) : OfOneRead (log ++ [event]) rest := by
  obtain ⟨earlier, room, data, later, rfl, quiet, suffix_⟩ := one
  refine ⟨earlier, room, data, later ++ [event], by simp, ?_,
    shorter.trans suffix_⟩
  intro current member
  rcases List.mem_append.mp member with old | new
  · exact quiet current old
  · rw [List.mem_singleton.mp new]
    exact silent

theorem not_unflushed_nil : ¬Unflushed [] := by
  intro premise
  obtain ⟨before, slice, count, after, equality, _⟩ := premise
  simp at equality

/-- Only an accepting write leaves something unflushed, and only a successful
flush clears it. -/
theorem Unflushed.of_snoc {log : List Event} {event : Event}
    (unflushed : Unflushed (log ++ [event])) :
    (∃ slice count, event = .write slice (.ready (.ok count)) ∧ 0 < count) ∨
      event ≠ .flush (.ready (.ok ())) ∧ Unflushed log := by
  obtain ⟨before, slice, count, after, equality, positive, absent⟩ := unflushed
  rcases snoc_split equality with ⟨_, isWrite, _⟩ | ⟨rest, rfl, older⟩
  · exact .inl ⟨slice, count, isWrite, positive⟩
  · refine .inr ⟨?_, before, slice, count, rest, older, positive, ?_⟩
    · intro same
      subst same
      exact absent (by simp)
    · exact fun member => absent (by simp [member])

/-- The rule every event obeys in datagram mode. -/
def boundaryRule (before : List Event) (event : Event) : Prop :=
  (∀ slice answer, event = .write slice answer →
    slice ≠ [] ∧ OfOneRead before slice) ∧
  (event.isRead = true → ¬Unflushed before)

/-- The invariant of a copy in datagram mode. -/
structure Bounded (copying : Copying) : Prop where
  balanced : Balanced copying
  datagram : copying.buf.datagram = true
  current : copying.buf.pos < copying.buf.cap →
    OfOneRead copying.wire.log copying.buf.slice
  flushed : copying.buf.needFlush = false → ¬Unflushed copying.wire.log
  boundaries : Chronicle boundaryRule copying.wire.log

namespace Bounded

variable {copying : Copying}

theorem new {bufSize : Nat} (script : Script) (sized : 0 < bufSize) :
    Bounded
      { buf := CopyBuffer.new bufSize true
        wire := { script := script, log := [] } } :=
  ⟨Balanced.new true script sized, rfl, by simp [CopyBuffer.new],
    fun _ => not_unflushed_nil, Chronicle.nil⟩

theorem slice_ne_nil (bounded : Bounded copying)
    (unwritten : copying.buf.pos < copying.buf.cap) :
    copying.buf.slice ≠ [] := by
  have sliceLength := CopyBuffer.length_slice bounded.balanced.cap_le_length
  intro empty
  rw [empty, List.length_nil] at sliceLength
  omega

theorem flush (bounded : Bounded copying) (script : Script)
    (answer : Poll (IoResult Unit)) {buf : CopyBuffer}
    (same : buf = copying.buf ∨
      buf = { copying.buf with needFlush := false } ∧
        answer = .ready (.ok ()))
    (balanced : Balanced (copying.record buf script (.flush answer))) :
    Bounded (copying.record buf script (.flush answer)) := by
  have sameSlice : buf.slice = copying.buf.slice := by
    rcases same with rfl | ⟨rfl, _⟩ <;> rfl
  have samePos : buf.pos = copying.buf.pos := by
    rcases same with rfl | ⟨rfl, _⟩ <;> rfl
  have sameCap : buf.cap = copying.buf.cap := by
    rcases same with rfl | ⟨rfl, _⟩ <;> rfl
  refine ⟨balanced, ?_, ?_, ?_, ?_⟩
  · rcases same with rfl | ⟨rfl, _⟩ <;> exact bounded.datagram
  · intro unwritten
    rw [Copying.record_buf, samePos, sameCap] at unwritten
    rw [Copying.record_buf, sameSlice]
    exact (bounded.current unwritten).snoc rfl (List.suffix_refl _)
  · intro clear unflushed
    rcases unflushed.of_snoc with ⟨_, _, absurd_, _⟩ | ⟨notFlush, old⟩
    · cases absurd_
    · rcases same with rfl | ⟨_, rfl⟩
      · exact bounded.flushed clear old
      · exact notFlush rfl
  · exact bounded.boundaries.snoc _ ⟨by simp, by simp [Event.isRead]⟩

theorem write (bounded : Bounded copying) (script : Script)
    {answer : Poll (IoResult Nat)}
    (unwritten : copying.buf.pos < copying.buf.cap)
    (fits : WriteFits copying.buf.slice answer) :
    Bounded
      (copying.record (copying.buf.onWrite answer) script
        (.write copying.buf.slice answer)) := by
  have one := bounded.current unwritten
  have silent : (Event.write copying.buf.slice answer).delivers = [] := rfl
  have boundaries := bounded.boundaries.snoc
    (.write copying.buf.slice answer)
    ⟨fun slice answer equality => by
      cases equality
      exact ⟨bounded.slice_ne_nil unwritten, one⟩, by simp [Event.isRead]⟩
  by_cases advances : ∃ count, answer = .ready (.ok (count + 1))
  · obtain ⟨count, rfl⟩ := advances
    refine ⟨bounded.balanced.write script fits, bounded.datagram, ?_, ?_,
      boundaries⟩
    · intro _
      change OfOneRead _ (copying.buf.advance (count + 1)).slice
      rw [CopyBuffer.slice_advance]
      exact one.snoc silent (List.drop_suffix _ _)
    · intro clear
      cases clear
  · have same : copying.buf.onWrite answer = copying.buf := by
      cases answer with
      | pending => rfl
      | ready result =>
          cases result with
          | error => rfl
          | ok count =>
              cases count with
              | zero => rfl
              | succ count => exact (advances ⟨count, rfl⟩).elim
    have balanced := bounded.balanced.write script fits
    rw [same] at balanced ⊢
    refine ⟨balanced, bounded.datagram, ?_, ?_, boundaries⟩
    · intro _
      exact one.snoc silent (List.suffix_refl _)
    · intro clear unflushed
      rcases unflushed.of_snoc with ⟨slice, count, equality, positive⟩ | old
      · cases equality
        exact advances ⟨count - 1, by rw [Nat.sub_add_cancel positive]⟩
      · exact bounded.flushed clear old.2

theorem fill (bounded : Bounded copying) (script : Script)
    {answer : Poll (IoResult Bytes)}
    (atStart : copying.buf.pos = 0 ∧ copying.buf.cap = 0)
    (clear : copying.buf.needFlush = false)
    (balanced : Balanced
      (copying.record (copying.buf.onRead answer) script
        (.read copying.buf.buf.length answer))) :
    Bounded
      (copying.record (copying.buf.onRead answer) script
        (.read copying.buf.buf.length answer)) := by
  have written := bounded.flushed clear
  refine ⟨balanced, ?_, ?_, ?_, ?_⟩
  · unfold CopyBuffer.onRead
    split <;> exact bounded.datagram
  · match answer with
    | .pending | .ready (.error _) =>
        intro unwritten
        simp [CopyBuffer.onRead, atStart] at unwritten
    | .ready (.ok data) =>
        intro _
        have alone : (copying.buf.fill data).slice = data := by
          rw [CopyBuffer.slice_fill (by omega) (by omega)]
          simp [CopyBuffer.slice, atStart]
        refine ⟨copying.wire.log, copying.buf.buf.length, data, [], rfl,
          by simp, ?_⟩
        change (copying.buf.fill data).slice <:+ data
        simp [alone]
  · intro _ unflushed
    rcases unflushed.of_snoc with ⟨_, _, absurd_, _⟩ | ⟨_, old⟩
    · cases absurd_
    · exact written old
  · exact bounded.boundaries.snoc _ ⟨by simp, fun _ => written⟩

theorem step (bounded : Bounded copying) {next : Copying}
    (step : Copying.CopyStep copying next) : Bounded next := by
  have balanced := bounded.balanced.step step
  cases step with
  | flush script answer empty due =>
      apply bounded.flush script answer _ balanced
      unfold CopyBuffer.onFlush
      split
      · exact .inr ⟨rfl, rfl⟩
      · exact .inl rfl
  | rewind empty open_ flushed =>
      exact ⟨balanced, bounded.datagram, by simp, bounded.flushed,
        bounded.boundaries⟩
  | fill script answer atStart open_ flushed fits =>
      exact bounded.fill script atStart (flushed bounded.datagram) balanced
  | proceed script unwritten =>
      exact ⟨balanced, bounded.datagram, bounded.current, bounded.flushed,
        bounded.boundaries⟩
  | write script answer unwritten fits =>
      exact bounded.write script unwritten fits
  | topUp script answer unwritten stream open_ roomy fits =>
      rw [bounded.datagram] at stream
      cases stream
  | finalFlush script answer empty closed =>
      exact bounded.flush script answer (.inl rfl) balanced

theorem resume (bounded : Bounded copying) {next : Copying}
    (step : Copying.ResumeFlush copying next) : Bounded next := by
  have balanced := bounded.balanced.resume step
  cases step with
  | mk script answer resumes =>
      apply bounded.flush script answer _ balanced
      unfold CopyBuffer.onFlush
      split
      · exact .inr ⟨rfl, rfl⟩
      · exact .inl rfl

end Bounded

namespace Copying

/-- A fresh copy buffer in datagram mode. -/
def newDatagram (bufSize : Nat) (script : Script) : Copying :=
  { buf := CopyBuffer.new bufSize true
    wire := { script := script, log := [] } }

/-- Every slice handed to the writer is a non-empty suffix of the bytes of
one read, and between the write that completes a read and the next delivery
the writer has been flushed. -/
theorem copyRun_keeps_boundaries (bufSize : Nat) (sized : 0 < bufSize)
    (script : Script) (polls : Nat) (copying : Copying)
    (seen : Observed (copyRun polls) (newDatagram bufSize script) copying) :
    (∀ before slice answer after,
      copying.wire.log = before ++ .write slice answer :: after →
      slice ≠ [] ∧ OfOneRead before slice) ∧
    (∀ slice,
      copyRun polls (newDatagram bufSize script) =
        .error (.write slice) copying →
      slice ≠ [] ∧ OfOneRead copying.wire.log slice) ∧
    ∀ before slice between room data after,
      copying.wire.log =
        before ++ .write slice (.ready (.ok slice.length)) :: between ++
          .read room (.ready (.ok data)) :: after →
      data ≠ [] → .flush (.ready (.ok ())) ∈ between := by
  have rule := copyRun_triple (fun _ _ step held => Bounded.step held step)
    (fun _ held => held.balanced.pos_le_cap)
    (fun _ _ step held => Bounded.resume held step) polls
  have start : Bounded (newDatagram bufSize script) := Bounded.new script sized
  have bounded : Bounded copying :=
    rule.observed start seen (fun _ _ ends => ends.1) (fun _ _ stops => stops.1)
  refine ⟨?_, ?_, ?_⟩
  · intro before slice answer after split
    exact (bounded.boundaries before _ after split).1 slice answer rfl
  · intro slice stopped
    rcases (rule.error start stopped).2 with waiting | ⟨absurd_, _⟩
    · cases waiting with
      | write unwritten =>
          exact ⟨bounded.slice_ne_nil unwritten, bounded.current unwritten⟩
    · cases absurd_
  · intro before slice between room data after split _
    have nonempty : slice ≠ [] :=
      ((bounded.boundaries before (.write slice (.ready (.ok slice.length)))
        (between ++ .read room (.ready (.ok data)) :: after)
        (by simpa using split)).1 slice _ rfl).1
    have written := (bounded.boundaries _ _ _ split).2 rfl
    by_contra absent
    exact written ⟨before, slice, slice.length, between, rfl,
      List.length_pos_iff.mpr nonempty, absent⟩

/-- The writer takes one byte of a two-byte datagram and is then busy once. -/
def busyWriter : Script :=
  { reads := [.ready (.ok [1, 2]), .pending]
    writes := [.ready (.ok 1), .pending, .ready (.ok 1)]
    flushes := [.ready (.ok ()), .ready (.ok ())]
    shutdowns := []
    tokioUnstable := false
    budget := [] }

theorem copyRun_keeps_boundaries_busyWriter :
    OfOneRead
      [.read 4 (.ready (.ok [1, 2])), .write [1, 2] (.ready (.ok 1)),
        .write [2] .pending, .flush (.ready (.ok ()))] [2] :=
  ((copyRun_keeps_boundaries 4 (by decide) busyWriter 2 _
    (observed_halt _ _)).1 _ [2] (.ready (.ok 1))
    [.flush (.ready (.ok ())), .read 4 .pending] (by decide +kernel)).2

/-- A flush is due only when everything delivered has been accepted. -/
def flushRule (before : List Event) (event : Event) : Prop :=
  ∀ answer, event = .flush answer → accepted before = delivered before

/-- Every flush the run has issued, answered or not, came when the current
read had been accepted completely. -/
def FlushesWhole : EStateM.Result Call Copying Copied → Prop
  | .ok _ copying => Chronicle flushRule copying.wire.log
  | .error call copying =>
      Chronicle flushRule copying.wire.log ∧
        (call = .flush → copying.buf.pos = copying.buf.cap)

/-- None of the next polls is entered while a datagram has been accepted in
part only and `need_flush` is set. -/
def EntersWhole : Nat → Copying → Prop
  | 0, _ => True
  | polls + 1, copying =>
      ¬copying.Resumes ∧
        match pollCopy copying with
        | .ok .pending next => EntersWhole polls next
        | _ => True

instance decidableEntersWhole :
    (polls : Nat) → (copying : Copying) → Decidable (EntersWhole polls copying)
  | 0, _ => .isTrue trivial
  | polls + 1, copying =>
      have : Decidable (match pollCopy copying with
          | .ok .pending next => EntersWhole polls next
          | _ => True) :=
        match pollCopy copying with
        | .ok .pending next => decidableEntersWhole polls next
        | .ok (.ready _) _ => .isTrue trivial
        | .error _ _ => .isTrue trivial
      inferInstanceAs (Decidable (_ ∧ _))

theorem copyRun_succ (polls : Nat) (copying : Copying) :
    copyRun (polls + 1) copying =
      match pollCopy copying with
      | .ok .pending next => copyRun polls next
      | .ok (.ready res) next => .ok (.ready res) next
      | .error call next => .error call next := by
  change EStateM.bind _ _ copying = _
  unfold EStateM.bind
  cases pollCopy copying with
  | ok result next => cases result <;> rfl
  | error call next => rfl

/-- The invariant behind the flush discipline. -/
structure WholeSoFar (copying : Copying) : Prop where
  balanced : Balanced copying
  flushes : Chronicle flushRule copying.wire.log

theorem WholeSoFar.step {copying next : Copying} (whole : WholeSoFar copying)
    (step : CopyStep copying next) : WholeSoFar next := by
  have balanced := whole.balanced.step step
  have drained : copying.buf.pos = copying.buf.cap →
      accepted copying.wire.log = delivered copying.wire.log := by
    intro empty
    rw [whole.balanced.conserved, CopyBuffer.slice_eq_nil empty,
      List.append_nil]
  refine ⟨balanced, ?_⟩
  cases step with
  | flush script answer empty due =>
      exact whole.flushes.snoc _ (fun _ _ => drained empty)
  | rewind => exact whole.flushes
  | fill script answer _ _ _ _ => exact whole.flushes.snoc _ (by simp [flushRule])
  | proceed script _ => exact whole.flushes
  | write script answer _ _ => exact whole.flushes.snoc _ (by simp [flushRule])
  | topUp script answer _ _ _ _ _ =>
      exact whole.flushes.snoc _ (by simp [flushRule])
  | finalFlush script answer empty closed =>
      exact whole.flushes.snoc _ (fun _ _ => drained empty)

theorem CopyStep.log_isPrefix {copying next : Copying}
    (step : CopyStep copying next) :
    copying.wire.log <+: next.wire.log := by
  rcases step.log_cases with same | ⟨event, grown, _⟩
  · simp [same]
  · simp [grown]

/-- The log has gone on from `start` with a flush. -/
structure FlushedAfter (start : List Event) (copying : Copying) : Prop where
  balanced : Balanced copying
  flushed : ∃ answer, start ++ [.flush answer] <+: copying.wire.log

theorem FlushedAfter.step {start : List Event} {copying next : Copying}
    (after : FlushedAfter start copying) (step : CopyStep copying next) :
    FlushedAfter start next := by
  obtain ⟨answer, grown⟩ := after.flushed
  exact ⟨after.balanced.step step, answer, grown.trans step.log_isPrefix⟩

theorem FlushedAfter.resume {start : List Event} {copying next : Copying}
    (after : FlushedAfter start copying) (step : ResumeFlush copying next) :
    FlushedAfter start next := by
  obtain ⟨answer, grown⟩ := after.flushed
  refine ⟨after.balanced.resume step, answer, grown.trans ?_⟩
  cases step with
  | mk script answer resumes => exact List.prefix_append _ _

/-- A poll that resumes a datagram waits for the flush or has issued it. -/
theorem pollCopy_flushes_of_resumes {copying : Copying}
    (balanced : Balanced copying) (resumes : copying.Resumes) :
    Triple (· = copying) pollCopy
      (fun _ final => FlushedAfter copying.wire.log final)
      (fun call final => call = .flush ∧ final = copying ∨
        FlushedAfter copying.wire.log final) := by
  have flushed := fun script answer =>
    (⟨balanced.resume (.mk script answer resumes), answer,
      List.prefix_rfl⟩ : FlushedAfter copying.wire.log
        (copying.record (copying.buf.onFlush answer) script (.flush answer)))
  apply pollCopy_triple_of_resumes
    (fun _ _ step after => FlushedAfter.step after step)
    (fun _ after => after.balanced.pos_le_cap) resumes
  · exact .inl ⟨rfl, rfl⟩
  · exact fun script => flushed script .pending
  · exact fun script err => flushed script (.ready (.error err))
  · exact fun script => flushed script (.ready (.ok ()))
  · exact fun _ _ ends => ends.1
  · exact fun _ _ stops => .inr stops.1

/-- A flush right after a log in which some delivered bytes are not accepted
breaks the discipline for good. -/
theorem not_flushRule_of_flushedAfter {copying final : Copying}
    (balanced : Balanced copying)
    (unwritten : copying.buf.pos < copying.buf.cap)
    (after : FlushedAfter copying.wire.log final) :
    ¬Chronicle flushRule final.wire.log := by
  intro discipline
  obtain ⟨answer, rest, grown⟩ := after.flushed
  have complete := discipline copying.wire.log (.flush answer) rest
    (by rw [← grown]; simp) answer rfl
  have sliceLength := CopyBuffer.length_slice balanced.cap_le_length
  have nothing : copying.buf.slice = [] := by
    have conserved := balanced.conserved
    rw [complete] at conserved
    simpa using conserved
  rw [nothing, List.length_nil] at sliceLength
  omega

/-- Once a datagram is resumed, no continuation of the run is disciplined. -/
theorem not_flushesWhole_of_resumes {polls : Nat} {copying : Copying}
    (balanced : Balanced copying) (resumes : copying.Resumes) :
    ¬FlushesWhole (copyRun (polls + 1) copying) := by
  have broken : ∀ final, FlushedAfter copying.wire.log final →
      ¬Chronicle flushRule final.wire.log :=
    fun _ => not_flushRule_of_flushedAfter balanced resumes.2.2
  have poll := pollCopy_flushes_of_resumes balanced resumes copying rfl
  rw [copyRun_succ]
  cases result : pollCopy copying with
  | error call final =>
      rw [result] at poll
      intro premise
      obtain ⟨discipline, whole⟩ := premise
      rcases poll with ⟨rfl, rfl⟩ | after
      · exact Nat.ne_of_lt resumes.2.2 (whole rfl)
      · exact broken final after discipline
  | ok value next =>
      rw [result] at poll
      cases value with
      | ready res => exact broken next poll
      | pending =>
          have rest := copyRun_triple
            (fun _ _ step after => FlushedAfter.step after step)
            (fun _ after => after.balanced.pos_le_cap)
            (fun _ _ step after => FlushedAfter.resume after step) polls
            next poll
          change ¬FlushesWhole (copyRun polls next)
          cases run : copyRun polls next with
          | ok value final =>
              rw [run] at rest
              exact broken final rest.1
          | error call final =>
              rw [run] at rest
              exact fun discipline => broken final rest.1 discipline.1

theorem flushesWhole_iff_of_wholeSoFar {polls : Nat} {copying : Copying}
    (whole : WholeSoFar copying) :
    FlushesWhole (copyRun polls copying) ↔ EntersWhole polls copying := by
  induction polls generalizing copying with
  | zero => exact ⟨fun _ => trivial, fun _ => whole.flushes⟩
  | succ polls induction =>
      by_cases resumes : copying.Resumes
      · exact ⟨fun flushes =>
          (not_flushesWhole_of_resumes whole.balanced resumes flushes).elim,
          fun enters => (enters.1 resumes).elim⟩
      · have poll := pollCopy_triple_of_not_resumes
          (fun _ _ step held => WholeSoFar.step held step)
          (fun _ held => held.balanced.pos_le_cap) copying ⟨whole, resumes⟩
        simp only [EntersWhole, resumes, not_false_eq_true, true_and]
        rw [copyRun_succ]
        cases result : pollCopy copying with
        | error call final =>
            rw [result] at poll
            refine ⟨fun _ => trivial, fun _ => ⟨poll.1.flushes, ?_⟩⟩
            intro same
            subst same
            cases poll.2 with
            | flush empty => exact empty
        | ok value next =>
            rw [result] at poll
            cases value with
            | ready res => exact ⟨fun _ => trivial, fun _ => poll.1.flushes⟩
            | pending => exact induction poll.1

/-- Over every run in datagram mode: `poll_flush` is issued only between
datagrams exactly when no poll is entered in the middle of a datagram that
the writer has accepted in part. -/
theorem copyRun_flushesWhole_iff (bufSize : Nat) (sized : 0 < bufSize)
    (script : Script) (polls : Nat) :
    FlushesWhole (copyRun polls (newDatagram bufSize script)) ↔
      EntersWhole polls (newDatagram bufSize script) :=
  flushesWhole_iff_of_wholeSoFar
    ⟨Balanced.new true script sized, Chronicle.nil⟩

theorem FlushesWhole.chronicle {code : CopyM Copied} {start : Copying}
    (whole : FlushesWhole (code start)) :
    Chronicle flushRule (halt code start).wire.log := by
  unfold halt
  cases result : code start with
  | ok value final =>
      rw [result] at whole
      exact whole
  | error call final =>
      rw [result] at whole
      exact whole.1

/-- The second poll flushes after the first byte of the datagram. -/
theorem copyRun_busyWriter_splits :
    ¬FlushesWhole (copyRun 2 (newDatagram 4 busyWriter)) := by
  refine mt FlushesWhole.chronicle ?_
  intro discipline
  have splits : accepted [.read 4 (.ready (.ok [1, 2])),
        .write [1, 2] (.ready (.ok 1)), .write [2] .pending] =
      delivered [.read 4 (.ready (.ok [1, 2])),
        .write [1, 2] (.ready (.ok 1)), .write [2] .pending] :=
    discipline _ (.flush (.ready (.ok ())))
      [.write [2] (.ready (.ok 1)), .flush (.ready (.ok ())),
        .read 4 .pending]
      (by decide +kernel) _ rfl
  exact absurd splits (by decide)

/-- A writer that takes the datagram in two parts without being busy. -/
def promptWriter : Script :=
  { busyWriter with writes := [.ready (.ok 1), .ready (.ok 1)] }

theorem copyRun_flushesWhole_promptWriter :
    FlushesWhole (copyRun 2 (newDatagram 4 promptWriter)) :=
  (copyRun_flushesWhole_iff 4 (by decide) promptWriter 2).mpr
    (by decide +kernel)

end Copying

end HoprUtilities.Network
