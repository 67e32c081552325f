import HoprUtilities.Network.DuplexStep

/-!
# A poll ends or waits for an answer

The loops of `poll_copy` are unrolled as often as there are answers left.
This module shows that the bound is never what stops a poll: a round that
comes back to the head of a loop has used up an answer.  Together with the
three rounds of `transfer_one_direction`, a poll of the duplex future
therefore returns as soon as every call it makes is answered.
-/

namespace HoprUtilities.Network

open HoprUtilities.Lib

namespace Copying

/-- A call of the source, as opposed to the end of an unrolling. -/
def Answerable (call : Call) (_ : Copying) : Prop := call ≠ .horizon

def Ordered (copying : Copying) : Prop := copying.buf.pos ≤ copying.buf.cap

/-- Fewer than `fuel` answers are left. -/
structure Within (fuel : Nat) (copying : Copying) : Prop where
  ordered : copying.Ordered
  fewer : copying.wire.script.answers < fuel

/-- An answer has been used up, and the buffer is as it was. -/
structure Spent (before after : Copying) : Prop where
  same : after.buf = before.buf
  fewer : after.wire.script.answers < before.wire.script.answers

theorem Spent.ordered {before after : Copying}
    (spent : Spent before after) (ordered : before.Ordered) :
    after.Ordered := by
  rw [Ordered, spent.same]
  exact ordered

theorem Spent.within {before after : Copying} {fuel : Nat}
    (spent : Spent before after) (within : before.Within fuel) :
    after.Within fuel where
  ordered := spent.ordered within.ordered
  fewer := Nat.lt_trans spent.fewer within.fewer

theorem onWire_pollFlush_spent (copying : Copying) :
    Triple (· = copying) (onWire Wire.pollFlush)
      (fun _ after => Spent copying after) Answerable := by
  apply Triple.zoom
  intro state started wire current
  subst started current
  unfold Wire.pollFlush
  cases flushes : state.wire.script.flushes with
  | nil => simp [Answerable]
  | cons answer rest =>
      refine ⟨rfl, ?_⟩
      simp only [Script.answers, flushes, List.length_cons]
      omega

theorem onWire_pollRead_spent (copying : Copying) (room : Nat) :
    Triple (· = copying) (onWire (Wire.pollRead room))
      (fun _ after => Spent copying after) Answerable := by
  apply Triple.zoom
  intro state started wire current
  subst started current
  unfold Wire.pollRead
  cases reads : state.wire.script.reads with
  | nil => simp [Answerable]
  | cons answer rest =>
      refine ⟨rfl, ?_⟩
      simp only [Script.answers, reads, List.length_cons]
      omega

theorem onWire_pollWrite_spent (copying : Copying) (slice : Bytes) :
    Triple (· = copying) (onWire (Wire.pollWrite slice))
      (fun answer after => Spent copying after ∧ WriteFits slice answer)
      Answerable := by
  apply Triple.zoom
  intro state started wire current
  subst started current
  unfold Wire.pollWrite
  cases writes : state.wire.script.writes with
  | nil => simp [Answerable]
  | cons answer rest =>
      refine ⟨⟨rfl, ?_⟩, writeFits_fitWrite slice answer⟩
      simp only [Script.answers, writes, List.length_cons]
      omega

theorem onWire_pollProceed_within (fuel : Nat) (buf : CopyBuffer) :
    Triple (fun copying => copying.Within fuel ∧ copying.buf = buf)
      (onWire Wire.pollProceed)
      (fun _ after => after.Within fuel ∧ after.buf = buf) Answerable := by
  apply Triple.zoom
  intro state premise wire current
  obtain ⟨within, same⟩ := premise
  subst current
  unfold Wire.pollProceed
  split_ifs with budgeted
  · cases budget : state.wire.script.budget with
    | nil => simp [Answerable]
    | cons answer rest =>
        refine ⟨⟨within.ordered, ?_⟩, same⟩
        have fewer := within.fewer
        simp only [Script.answers, budget, List.length_cons] at fewer ⊢
        omega
  · exact ⟨within, same⟩

/-- A read leaves the written part alone and never takes bytes away. -/
theorem pollFillBuf_spent (copying : Copying) :
    Triple (· = copying) pollFillBuf
      (fun _ after => after.buf.pos = copying.buf.pos ∧
        copying.buf.cap ≤ after.buf.cap ∧
        after.wire.script.answers < copying.wire.script.answers)
      Answerable := by
  apply Triple.get_bind
  intro state started
  subst started
  apply Triple.bind _ (onWire_pollRead_spent state _)
  intro answer
  cases answer with
  | pending =>
      apply Triple.pure
      intro after spent
      rw [spent.same]
      exact ⟨rfl, Nat.le_refl _, spent.fewer⟩
  | ready result =>
      cases result with
      | error err =>
          apply Triple.pure
          intro after spent
          rw [spent.same]
          exact ⟨rfl, Nat.le_refl _, spent.fewer⟩
      | ok data =>
          apply modifyBuf_bind
          intro read spent
          apply Triple.pure
          intro after filled
          subst filled
          change read.buf.pos = _ ∧ _ ≤ read.buf.cap + data.length ∧ _
          rw [spent.same]
          exact ⟨rfl, Nat.le_add_right _ _, spent.fewer⟩

/-- A write uses up an answer, and stays inside the slice it was given. -/
theorem pollWriteBuf_spent (copying : Copying) (ordered : copying.Ordered) :
    Triple (· = copying) pollWriteBuf
      (fun result after => after.Ordered ∧
        ∀ count, result = .ready (.ok count) → Spent copying after ∧
          count ≤ copying.buf.cap - copying.buf.pos)
      Answerable := by
  apply Triple.get_bind
  intro state started
  subst started
  apply Triple.bind _ (onWire_pollWrite_spent state _)
  intro answer
  cases answer with
  | ready result =>
      apply Triple.pure
      intro after premise
      obtain ⟨spent, fits⟩ := premise
      refine ⟨spent.ordered ordered, fun count counted => ⟨spent, ?_⟩⟩
      refine Nat.le_trans (fits count counted) ?_
      exact List.length_take_le _ _
  | pending =>
      dsimp only
      split_ifs with topsUp
      · apply Triple.bind (fun _ after => after.Ordered)
        · apply Triple.of_forall
          intro written premise
          apply (pollFillBuf_spent written).consequence
            (fun _ same => same) _ (fun _ _ stops => stops)
          intro _ after filled
          have ordered := premise.1.ordered ordered
          unfold Ordered at ordered ⊢
          omega
        · intro status
          cases status with
          | pending =>
              exact Triple.pure (fun _ ordered => ⟨ordered, by simp⟩)
          | ready result =>
              cases result with
              | error err =>
                  exact Triple.pure (fun _ ordered => ⟨ordered, by simp⟩)
              | ok _ =>
                  exact Triple.pure (fun _ ordered => ⟨ordered, by simp⟩)
      · apply Triple.pure
        intro after premise
        exact ⟨premise.1.ordered ordered, by simp⟩

section Loop

variable {fuel : Nat} {next : CopyM Copied}

theorem clearFlush_within
    (tail : Triple (Within fuel) next (fun _ => Ordered) Answerable) :
    Triple (Within fuel) (clearFlush next) (fun _ => Ordered) Answerable := by
  apply Triple.of_forall
  intro copying within
  apply Triple.bind _ (onWire_pollFlush_spent copying)
  intro answer
  cases answer with
  | pending =>
      exact Triple.pure (fun _ spent => (spent.within within).ordered)
  | ready result =>
      cases result with
      | error err =>
          exact Triple.pure (fun _ spent => (spent.within within).ordered)
      | ok _ =>
          apply modifyBuf_bind
          intro flushed spent
          have still := spent.within within
          apply tail.startingAt
          exact ⟨still.ordered, still.fewer⟩

theorem flushHead_within
    (tail : Triple (Within fuel) next (fun _ => Ordered) Answerable) :
    Triple (Within fuel) (flushHead next) (fun _ => Ordered) Answerable := by
  apply Triple.get_bind
  intro copying within
  split_ifs with due
  · exact (clearFlush_within tail).startingAt within
  · exact tail.startingAt within

/-- A round that may still come back to the head has used up an answer, or is
going to do so by a write, or has seen the end of the input. -/
def Advances (fuel : Nat) (copying : Copying) : Prop :=
  copying.wire.script.answers < fuel ∨
    copying.buf.pos < copying.buf.cap ∨ copying.buf.readDone = true

theorem fillEmpty_within
    (tail : Triple
      (fun copying => copying.Within (fuel + 1) ∧ copying.Advances fuel)
      next (fun _ => Ordered) Answerable) :
    Triple (Within (fuel + 1)) (fillEmpty next) (fun _ => Ordered)
      Answerable := by
  apply Triple.get_bind
  intro copying within
  split_ifs with reads
  · apply modifyBuf_bind
    intro state same
    subst same
    have spare := within.fewer
    apply Triple.bind _ (pollFillBuf_spent _)
    intro status
    have filled : ∀ after : Copying,
        after.buf.pos = 0 ∧ 0 ≤ after.buf.cap ∧
          after.wire.script.answers < state.wire.script.answers →
        after.Within (fuel + 1) ∧ after.Advances fuel := by
      intro after premise
      obtain ⟨atStart, _, fewer⟩ := premise
      refine ⟨⟨?_, by omega⟩, .inl (by omega)⟩
      unfold Ordered
      omega
    cases status with
    | pending =>
        apply Triple.get_bind
        intro after premise
        have still := (filled after premise).1
        have idle : Triple (Within (fuel + 1))
            (return .pending : CopyM Copied) (fun _ => Ordered)
            Answerable := Triple.pure (fun _ within => within.ordered)
        split_ifs with due
        · exact (clearFlush_within idle).startingAt still
        · exact idle.startingAt still
    | ready result =>
        cases result with
        | error err =>
            exact Triple.pure (fun after premise =>
              (filled after premise).1.ordered)
        | ok _ =>
            exact tail.strengthenPre filled
  · apply tail.startingAt
    refine ⟨within, ?_⟩
    have ordered := within.ordered
    unfold Ordered at ordered
    simp only [Bool.and_eq_true, beq_iff_eq, Bool.not_eq_eq_eq_not,
      Bool.not_true, not_and, Bool.not_eq_false] at reads
    by_cases empty : copying.buf.pos = copying.buf.cap
    · exact .inr (.inr (reads empty))
    · exact .inr (.inl (by omega))

/-- The induction is on the rounds left: a round uses up an answer, and after
the first one fewer than `fuel` are left. -/
theorem writeWhile_within
    (tail : Triple
      (fun copying => copying.Within (fuel + 1) ∧ copying.Advances fuel ∧
        copying.buf.pos = copying.buf.cap)
      next (fun _ => Ordered) Answerable) :
    ∀ rounds, rounds ≤ fuel + 1 → Triple
      (fun copying => copying.Within rounds ∧ copying.Advances fuel)
      (writeWhile rounds next) (fun _ => Ordered) Answerable := by
  intro rounds
  induction rounds with
  | zero =>
      intro _
      exact Triple.throw (fun _ premise => (Nat.not_lt_zero _
        premise.1.fewer).elim)
  | succ rounds induction =>
      intro bounded
      have again := induction (by omega)
      apply Triple.get_bind
      intro copying premise
      obtain ⟨within, advances⟩ := premise
      have ordered := within.ordered
      unfold Ordered at ordered
      split_ifs with unwritten
      · apply Triple.bind _ ((onWire_pollProceed_within (rounds + 1)
          copying.buf).startingAt ⟨within, rfl⟩)
        intro proceeds
        cases proceeds with
        | pending => exact Triple.pure (fun _ premise => premise.1.ordered)
        | ready _ =>
            apply Triple.of_forall
            intro ready premise
            obtain ⟨stillWithin, same⟩ := premise
            apply Triple.bind _
              (pollWriteBuf_spent ready stillWithin.ordered)
            intro result
            cases result with
            | pending => exact Triple.pure (fun _ premise => premise.1)
            | ready result =>
                cases result with
                | error err =>
                    exact Triple.pure (fun _ premise => premise.1)
                | ok count =>
                    dsimp only
                    split_ifs with zero
                    · exact Triple.pure (fun _ premise => premise.1)
                    · apply modifyBuf_bind
                      intro written premise
                      obtain ⟨spent, fits⟩ := premise.2 count rfl
                      apply again.startingAt
                      have fewer := stillWithin.fewer
                      have lower := spent.fewer
                      refine ⟨⟨?_, ?_⟩, .inl ?_⟩
                      · change written.buf.pos + count ≤ written.buf.cap
                        rw [spent.same, same]
                        rw [same] at fits
                        omega
                      · change written.wire.script.answers < rounds
                        omega
                      · change written.wire.script.answers < fuel
                        omega
      · apply tail.startingAt
        exact ⟨⟨within.ordered, by have := within.fewer; omega⟩, advances,
          by omega⟩

theorem finish_within
    (tail : Triple (Within fuel) next (fun _ => Ordered) Answerable) :
    Triple
      (fun copying => copying.Within (fuel + 1) ∧ copying.Advances fuel ∧
        copying.buf.pos = copying.buf.cap)
      (finish next) (fun _ => Ordered) Answerable := by
  apply Triple.get_bind
  intro copying premise
  obtain ⟨within, advances, empty⟩ := premise
  split_ifs with ended
  · apply Triple.bind _ (onWire_pollFlush_spent copying)
    intro answer
    cases answer with
    | pending =>
        exact Triple.pure (fun _ spent => (spent.within within).ordered)
    | ready result =>
        cases result with
        | error err =>
            exact Triple.pure (fun _ spent => (spent.within within).ordered)
        | ok _ =>
            exact Triple.pure (fun _ spent => (spent.within within).ordered)
  · apply tail.startingAt
    simp only [empty, BEq.rfl, Bool.true_and, Bool.not_eq_true] at ended
    refine ⟨within.ordered, ?_⟩
    rcases advances with fewer | unwritten | closed
    · exact fewer
    · omega
    · rw [ended] at closed
      cases closed

theorem pollCopyLoop_within (fuel : Nat) :
    Triple (Within fuel) (pollCopyLoop fuel) (fun _ => Ordered)
      Answerable := by
  induction fuel with
  | zero =>
      exact Triple.throw (fun _ within => (Nat.not_lt_zero _
        within.fewer).elim)
  | succ fuel induction =>
      apply flushHead_within
      apply fillEmpty_within
      exact writeWhile_within (finish_within induction) _ (Nat.le_refl _)

end Loop

theorem pollCopy_answerable :
    Triple Ordered pollCopy (fun _ => Ordered) Answerable := by
  intro copying ordered
  exact pollCopyLoop_within _ copying ⟨ordered, Nat.lt_succ_self _⟩

theorem copyRun_answerable (polls : Nat) :
    Triple Ordered (copyRun polls) (fun _ => Ordered) Answerable := by
  induction polls with
  | zero => exact Triple.pure (fun _ ordered => ordered)
  | succ polls induction =>
      apply Triple.bind _ pollCopy_answerable
      intro result
      cases result with
      | pending => exact induction
      | ready result => exact Triple.pure (fun _ ordered => ordered)

end Copying

namespace Direction

def Answerable (call : Call) (_ : Direction) : Prop := call ≠ .horizon

def Ordered (direction : Direction) : Prop :=
  ∀ buf, direction.state = .running buf → buf.pos ≤ buf.cap

/-- The number of states a direction has yet to go through. -/
def remaining (direction : Direction) : Nat :=
  match direction.state with
  | .running _ => 2
  | .shuttingDown _ => 1
  | .done _ => 0

theorem onBuffer_answerable {buf : CopyBuffer} (ordered : buf.pos ≤ buf.cap) :
    Triple (fun _ => True) (onBuffer buf Copying.pollCopy)
      (fun _ direction => direction.Ordered) Answerable := by
  apply Triple.zoom
  intro direction _
  apply Copying.pollCopy_answerable.consequence
  · intro copying started
    subst started
    exact ordered
  · intro _ copying still after running
    cases running
    exact still
  · exact fun _ _ answerable => answerable

theorem transferRound_answerable {rounds : Nat}
    {again : DirectionM (Poll (IoResult Nat))}
    (tail : Triple
      (fun direction => direction.Ordered ∧ direction.remaining < rounds)
      again (fun _ => Ordered) Answerable) :
    Triple
      (fun direction => direction.Ordered ∧ direction.remaining ≤ rounds)
      (transferRound again) (fun _ => Ordered) Answerable := by
  apply Triple.get_bind
  intro direction premise
  obtain ⟨ordered, bounded⟩ := premise
  unfold remaining at bounded
  cases state : direction.state with
  | running buf =>
      rw [state] at bounded
      apply Triple.bind _ ((onBuffer_answerable (ordered buf state)).strengthenPre
        (fun _ _ => trivial))
      intro result
      cases result with
      | pending => exact Triple.pure (fun _ still => still)
      | ready result =>
          cases result with
          | error err => exact Triple.pure (fun _ still => still)
          | ok count =>
              apply Triple.modify_bind
              intro copied _
              apply tail.startingAt
              exact ⟨fun _ running => (by cases running), bounded⟩
  | shuttingDown count =>
      rw [state] at bounded
      apply Triple.bind (fun _ after => after.state = .shuttingDown count)
      · apply Triple.zoom
        intro current started wire same
        subst started same
        unfold Wire.pollShutdown
        cases current.wire.script.shutdowns with
        | nil => simp [Answerable]
        | cons answer rest => exact state
      · have shutting : ∀ after : Direction,
            after.state = .shuttingDown count → after.Ordered := by
          intro after same buf running
          rw [same] at running
          cases running
        intro answer
        cases answer with
        | pending => exact Triple.pure shutting
        | ready result =>
            cases result with
            | error err => exact Triple.pure shutting
            | ok _ =>
                apply Triple.modify_bind
                intro shut _
                apply tail.startingAt
                exact ⟨fun _ running => (by cases running), bounded⟩
  | done count =>
      apply Triple.pure
      intro current same
      subst same
      exact ordered

theorem transferOneDirection_answerable :
    Triple Ordered transferOneDirection (fun _ => Ordered) Answerable := by
  have noneLeft : Triple
      (fun direction => direction.Ordered ∧ direction.remaining < 0)
      (throw .horizon : DirectionM (Poll (IoResult Nat)))
      (fun _ => Ordered) Answerable :=
    Triple.throw (fun _ premise => (Nat.not_lt_zero _ premise.2).elim)
  have weaken : ∀ {rounds : Nat} {again : DirectionM (Poll (IoResult Nat))},
      Triple (fun direction => direction.Ordered ∧ direction.remaining ≤ rounds)
        again (fun _ => Ordered) Answerable →
      Triple
        (fun direction => direction.Ordered ∧ direction.remaining < rounds + 1)
        again (fun _ => Ordered) Answerable := by
    intro rounds again triple
    exact triple.strengthenPre
      (fun _ premise => ⟨premise.1, Nat.le_of_lt_succ premise.2⟩)
  have rounds := transferRound_answerable (weaken (transferRound_answerable
    (weaken (transferRound_answerable noneLeft))))
  apply rounds.strengthenPre
  intro direction ordered
  refine ⟨ordered, ?_⟩
  unfold remaining
  split <;> simp

end Direction

namespace Duplex

/-- A call of the source, as opposed to the end of an unrolling. -/
def Answerable (call : DuplexCall) (_ : Duplex) : Prop :=
  ∀ side, call ≠ .direction side .horizon

/-- Both directions have a well-formed buffer. -/
abbrev Ordered : Duplex → Prop := Both Direction.Ordered

variable {side other : Side} {next : Poll Nat → DuplexM Transferred}

theorem ordered_stopRunning {duplex : Duplex} (ordered : duplex.Ordered) :
    (duplex.stopRunning side).Ordered := by
  unfold stopRunning
  split
  · apply both_setDirection ordered
    intro buf running
    cases running
  · exact ordered

theorem transfer_answerable
    (tail : ∀ result,
      Triple Ordered (next result) (fun _ => Ordered) Answerable) :
    Triple Ordered (transfer side next) (fun _ => Ordered) Answerable := by
  apply Triple.bind (fun _ duplex => duplex.Ordered)
  · apply Triple.zoom
    intro duplex ordered
    apply Direction.transferOneDirection_answerable.consequence
    · intro direction same
      subst same
      exact ordered side
    · exact fun _ direction still => both_setDirection ordered still
    · intro call direction answerable current same
      cases same
      exact answerable rfl
  · intro result
    cases result with
    | pending => exact tail .pending
    | ready result =>
        cases result with
        | error err => exact Triple.pure (fun _ ordered => ordered)
        | ok count => exact tail (.ready count)

theorem initiateAbort_answerable {next : DuplexM Transferred}
    (tail : Triple Ordered next (fun _ => Ordered) Answerable) :
    Triple Ordered (initiateAbort side next) (fun _ => Ordered)
      Answerable := by
  apply Triple.bind (fun _ duplex => duplex.Ordered)
  · intro duplex ordered
    unfold pollAbort
    cases duplex.abortScript side with
    | nil => simp [Answerable]
    | cons fired rest => exact ordered
  · intro fired
    cases fired with
    | false => exact tail
    | true =>
        apply Triple.modify_bind
        intro duplex ordered
        apply tail.startingAt
        exact ordered_stopRunning ordered

theorem terminate_answerable {result : Poll Nat}
    (tail : ∀ result,
      Triple Ordered (next result) (fun _ => Ordered) Answerable) :
    Triple Ordered (terminate side other result next) (fun _ => Ordered)
      Answerable := by
  apply Triple.get_bind
  intro duplex ordered
  split
  · apply Triple.modify_bind
    intro current same
    subst same
    apply (transfer_answerable tail).startingAt
    exact ordered_stopRunning ordered
  · apply (tail result).startingAt
    exact ordered

theorem pollDuplex_answerable :
    Triple Ordered pollDuplex (fun _ => Ordered) Answerable := by
  apply transfer_answerable
  intro aToB
  apply transfer_answerable
  intro bToA
  apply initiateAbort_answerable
  apply initiateAbort_answerable
  apply terminate_answerable
  intro aToB
  apply terminate_answerable
  intro bToA
  split
  · exact Triple.pure (fun _ ordered => ordered)
  · exact Triple.pure (fun _ ordered => ordered)

/-- The duplex future stops only at a call that has not been answered. -/
theorem copyDuplex_answerable (polls : Nat) :
    Triple Ordered (copyDuplexAbortableWithDatagram polls) (fun _ => Ordered)
      Answerable := by
  induction polls with
  | zero => exact Triple.pure (fun _ ordered => ordered)
  | succ polls induction =>
      apply Triple.bind _ pollDuplex_answerable
      intro result
      cases result with
      | pending => exact induction
      | ready result => exact Triple.pure (fun _ ordered => ordered)

theorem ordered_new (bufferSize : Side → Nat) (datagram : Bool)
    (script : Side → Script) (abortScript : Side → List Bool) :
    (Duplex.new bufferSize datagram script abortScript).Ordered := by
  intro side buf running
  cases running
  exact Nat.le_refl 0

/-- No run of the duplex future from its start is cut short by the bound on
the unrolling: wherever it stops, an answer is missing. -/
theorem copyDuplex_stops_answerable (bufferSize : Side → Nat)
    (datagram : Bool) (script : Side → Script)
    (abortScript : Side → List Bool) (polls : Nat) {call : DuplexCall}
    {final : Duplex}
    (stopped : copyDuplexAbortableWithDatagram polls
      (Duplex.new bufferSize datagram script abortScript) =
        .error call final) :
    ∀ side, call ≠ .direction side .horizon :=
  (copyDuplex_answerable polls).error
    (ordered_new bufferSize datagram script abortScript) stopped

end Duplex

end HoprUtilities.Network
