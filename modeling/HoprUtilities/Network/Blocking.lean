import HoprUtilities.Network.DuplexStep

/-!
# What a pending direction waits for

A future that returns `Poll::Pending` must have arranged to be polled again,
and an endpoint keeps the waker of the last call it answered with `Pending`.
`Blocked` says what a direction that cannot go on is waiting for: the call its
state needs next has been answered with `Pending` since the poll began.  A
pending `transfer_one_direction` leaves its direction blocked.
-/

namespace HoprUtilities.Network

open HoprUtilities.Lib

/-- The wire has only been used since `earlier`: its log has grown, and what
is left of the task budget was there before. -/
structure Since (earlier wire : Wire) : Prop where
  log : earlier.log <+: wire.log
  budget : wire.script.budget <:+ earlier.script.budget

/-- The call has been answered since `earlier`. -/
def Answered (earlier wire : Wire) (event : Event) : Prop :=
  ∃ events, wire.log = earlier.log ++ events ∧ event ∈ events

/-- The task budget has been refused since `earlier`. -/
def OutOfBudget (earlier wire : Wire) : Prop :=
  ∃ answers, earlier.script.budget = answers ++ wire.script.budget ∧
    Poll.pending ∈ answers

namespace Since

theorem refl (wire : Wire) : Since wire wire :=
  ⟨List.prefix_rfl, List.suffix_rfl⟩

variable {first second third : Wire}

theorem trans (before : Since first second) (after : Since second third) :
    Since first third :=
  ⟨before.log.trans after.log, after.budget.trans before.budget⟩

theorem answered (before : Since first second) {event : Event}
    (answered : Answered second third event) : Answered first third event := by
  obtain ⟨events, log, member⟩ := answered
  obtain ⟨earlier, split⟩ := before.log
  refine ⟨earlier ++ events, ?_, List.mem_append_right _ member⟩
  rw [log, ← split, List.append_assoc]

theorem still_answered (after : Since second third) {event : Event}
    (answered : Answered first second event) : Answered first third event := by
  obtain ⟨events, log, member⟩ := answered
  obtain ⟨later, split⟩ := after.log
  refine ⟨events ++ later, ?_, List.mem_append_left _ member⟩
  rw [← split, log, List.append_assoc]

theorem outOfBudget (before : Since first second)
    (refused : OutOfBudget second third) : OutOfBudget first third := by
  obtain ⟨answers, budget, member⟩ := refused
  obtain ⟨earlier, split⟩ := before.budget
  refine ⟨earlier ++ answers, ?_, List.mem_append_right _ member⟩
  rw [← split, budget, List.append_assoc]

theorem record (wire : Wire) (script : Script) (event : Event)
    (same : script.budget = wire.script.budget) :
    Since wire { script := script, log := wire.log ++ [event] } where
  log := List.prefix_append _ _
  budget := same ▸ List.suffix_rfl

end Since

theorem answered_record (wire : Wire) (script : Script) (event : Event) :
    Answered wire { script := script, log := wire.log ++ [event] } event :=
  ⟨[event], rfl, List.mem_singleton_self event⟩

namespace Copying

/-- Nothing is said about where a poll stops. -/
def Anywhere {σ : Type} (_ : Call) (_ : σ) : Prop := True

/-- A call has been answered, and the buffer is as it was. -/
structure Told (before after : Copying) (event : Event) : Prop where
  same : after.buf = before.buf
  since : Since before.wire after.wire
  answered : Answered before.wire after.wire event

theorem onWire_pollFlush_told (copying : Copying) :
    Triple (· = copying) (onWire Wire.pollFlush)
      (fun answer after => Told copying after (.flush answer)) Anywhere := by
  apply Triple.zoom
  intro state started wire current
  subst started current
  unfold Wire.pollFlush
  cases state.wire.script.flushes with
  | nil => trivial
  | cons answer rest =>
      exact ⟨rfl, .record _ _ _ rfl, answered_record _ _ _⟩

theorem onWire_pollRead_told (copying : Copying) (room : Nat) :
    Triple (· = copying) (onWire (Wire.pollRead room))
      (fun answer after => Told copying after (.read room answer))
      Anywhere := by
  apply Triple.zoom
  intro state started wire current
  subst started current
  unfold Wire.pollRead
  cases state.wire.script.reads with
  | nil => trivial
  | cons answer rest =>
      exact ⟨rfl, .record _ _ _ rfl, answered_record _ _ _⟩

theorem onWire_pollWrite_told (copying : Copying) (slice : Bytes) :
    Triple (· = copying) (onWire (Wire.pollWrite slice))
      (fun answer after => Told copying after (.write slice answer))
      Anywhere := by
  apply Triple.zoom
  intro state started wire current
  subst started current
  unfold Wire.pollWrite
  cases state.wire.script.writes with
  | nil => trivial
  | cons answer rest =>
      exact ⟨rfl, .record _ _ _ rfl, answered_record _ _ _⟩

theorem onWire_pollProceed_told (copying : Copying) :
    Triple (· = copying) (onWire Wire.pollProceed)
      (fun answer after => after.buf = copying.buf ∧
        Since copying.wire after.wire ∧
        (answer = .pending → OutOfBudget copying.wire after.wire))
      Anywhere := by
  apply Triple.zoom
  intro state started wire current
  subst started current
  unfold Wire.pollProceed
  split_ifs with budgeted
  · cases budget : state.wire.script.budget with
    | nil => trivial
    | cons answer rest =>
        refine ⟨rfl, ⟨List.prefix_rfl, ?_⟩, ?_⟩
        · exact budget ▸ List.suffix_cons answer rest
        · intro refused
          subst refused
          exact ⟨[.pending], budget, List.mem_singleton_self _⟩
  · exact ⟨rfl, .refl _, by simp⟩

/-- What a running direction waits for, of the calls answered since `start`.
The buffer says which call it needs next. -/
inductive Blocked (start : Wire) (copying : Copying) : Prop where
  | reading (room : Nat)
      (empty : copying.buf.pos = copying.buf.cap)
      (open_ : copying.buf.readDone = false)
      (answered : Answered start copying.wire (.read room .pending))
  | writing (slice : Bytes)
      (unwritten : copying.buf.pos < copying.buf.cap)
      (answered : Answered start copying.wire (.write slice .pending))
  | flushing
      (due : copying.buf.needFlush = true ∨
        copying.buf.pos = copying.buf.cap ∧ copying.buf.readDone = true)
      (answered : Answered start copying.wire (.flush .pending))
  | outOfBudget
      (unwritten : copying.buf.pos < copying.buf.cap)
      (refused : OutOfBudget start copying.wire)

theorem Blocked.earlier {first second : Wire} {copying : Copying}
    (before : Since first second) (blocked : copying.Blocked second) :
    copying.Blocked first := by
  cases blocked with
  | reading room empty open_ answered =>
      exact .reading room empty open_ (before.answered answered)
  | writing slice unwritten answered =>
      exact .writing slice unwritten (before.answered answered)
  | flushing due answered =>
      exact .flushing due (before.answered answered)
  | outOfBudget unwritten refused =>
      exact .outOfBudget unwritten (before.outOfBudget refused)

/-- The end of a poll that began with the wire `start`. -/
def Waits (start : Wire) (result : Copied) (copying : Copying) : Prop :=
  Since start copying.wire ∧ (result = .pending → copying.Blocked start)

/-- The states of a poll that began with the wire `start`. -/
def During (start : Wire) (copying : Copying) : Prop :=
  Since start copying.wire

section Poll

variable {start : Wire} {next : CopyM Copied}

theorem Told.during {before after : Copying} {event : Event}
    (told : Told before after event) (during : before.During start) :
    after.During start :=
  Since.trans during told.since

theorem Told.ready {before after : Copying} {event : Event}
    (told : Told before after event) (during : before.During start)
    (value : IoResult Nat) : Waits start (.ready value) after :=
  ⟨told.during during, by simp⟩

theorem Told.flushing {before after : Copying}
    (told : Told before after (.flush .pending))
    (during : before.During start)
    (due : before.buf.needFlush = true ∨
      before.buf.pos = before.buf.cap ∧ before.buf.readDone = true) :
    Waits start .pending after := by
  refine ⟨told.during during, fun _ => .flushing ?_ ?_⟩
  · rw [told.same]
    exact due
  · exact Since.answered during told.answered

/-- A flush that is due.  What was answered before it is still answered. -/
theorem clearFlush_waits {copying : Copying}
    (during : copying.During start) (due : copying.buf.needFlush = true)
    (tail : ∀ after, Since copying.wire after.wire →
      after.buf = { copying.buf with needFlush := false } →
      Triple (· = after) next (Waits start) Anywhere) :
    Triple (· = copying) (clearFlush next) (Waits start) Anywhere := by
  apply Triple.bind _ (onWire_pollFlush_told copying)
  intro answer
  cases answer with
  | pending =>
      exact Triple.pure (fun _ told => told.flushing during (.inl due))
  | ready result =>
      cases result with
      | error err =>
          exact Triple.pure (fun _ told => told.ready during _)
      | ok _ =>
          apply modifyBuf_bind
          intro flushed told
          apply tail
          · exact told.since
          · rw [told.same]

theorem flushHead_waits
    (tail : Triple (During start) next (Waits start) Anywhere) :
    Triple (During start) (flushHead next) (Waits start) Anywhere := by
  apply Triple.get_bind
  intro copying during
  split_ifs with due
  · simp only [Bool.and_eq_true] at due
    apply clearFlush_waits during due.2
    intro after since _
    exact tail.startingAt (Since.trans during since)
  · exact tail.startingAt during

theorem pollFillBuf_told (copying : Copying) :
    Triple (· = copying) pollFillBuf
      (fun result after => Since copying.wire after.wire ∧
        after.buf.pos = copying.buf.pos ∧
        copying.buf.cap ≤ after.buf.cap ∧
        (result = .pending → after.buf = copying.buf ∧
          ∃ room, Answered copying.wire after.wire (.read room .pending)))
      Anywhere := by
  apply Triple.get_bind
  intro state started
  subst started
  apply Triple.bind _ (onWire_pollRead_told state _)
  intro answer
  cases answer with
  | pending =>
      apply Triple.pure
      intro after told
      rw [told.same]
      exact ⟨told.since, rfl, Nat.le_refl _,
        fun _ => ⟨rfl, _, told.answered⟩⟩
  | ready result =>
      cases result with
      | error err =>
          apply Triple.pure
          intro after told
          rw [told.same]
          exact ⟨told.since, rfl, Nat.le_refl _, by simp⟩
      | ok data =>
          apply modifyBuf_bind
          intro read told
          apply Triple.pure
          intro after filled
          subst filled
          change _ ∧ read.buf.pos = _ ∧ _ ≤ read.buf.cap + data.length ∧ _
          rw [told.same]
          exact ⟨told.since, rfl, Nat.le_add_right _ _, by simp⟩

theorem fillEmpty_waits
    (tail : Triple (During start) next (Waits start) Anywhere) :
    Triple (During start) (fillEmpty next) (Waits start) Anywhere := by
  apply Triple.get_bind
  intro copying during
  split_ifs with reads
  · simp only [Bool.and_eq_true, beq_iff_eq, Bool.not_eq_eq_eq_not,
      Bool.not_true] at reads
    apply modifyBuf_bind
    intro state same
    subst same
    apply Triple.bind _ (pollFillBuf_told _)
    intro status
    cases status with
    | pending =>
        apply Triple.get_bind
        intro after told
        obtain ⟨since, _, _, asked⟩ := told
        obtain ⟨same, room, answered⟩ := asked rfl
        have still : after.During start := Since.trans during since
        -- The reader keeps the waker, whatever the flush after it comes to.
        have blocked : ∀ final : Copying, Since after.wire final.wire →
            final.buf = { after.buf with needFlush := false } ∨
              final.buf = after.buf →
            Waits start .pending final := by
          intro final later kept
          refine ⟨Since.trans still later, fun _ => .reading room ?_ ?_ ?_⟩
          · rcases kept with kept | kept <;> rw [kept, same]
          · rcases kept with kept | kept <;> rw [kept, same] <;> exact reads.2
          · exact later.still_answered (Since.answered during answered)
        split_ifs with due
        · apply clearFlush_waits still due
          intro final later cleared
          apply Triple.pure
          intro _ same
          subst same
          exact blocked _ later (.inl cleared)
        · apply Triple.pure
          intro _ same
          subst same
          exact blocked _ (.refl _) (.inr rfl)
    | ready result =>
        cases result with
        | error err =>
            apply Triple.pure
            intro after told
            exact ⟨Since.trans during told.1, by simp⟩
        | ok _ =>
            apply tail.strengthenPre
            intro after told
            exact Since.trans during told.1
  · exact tail.startingAt during

/-- A write that has to wait leaves the waker with the writer, whether or not
the buffer could be topped up. -/
theorem pollWriteBuf_told (copying : Copying) :
    Triple (· = copying) pollWriteBuf
      (fun result after => Since copying.wire after.wire ∧
        (result = .pending → after.buf.pos = copying.buf.pos ∧
          copying.buf.cap ≤ after.buf.cap ∧
          ∃ slice, Answered copying.wire after.wire (.write slice .pending)))
      Anywhere := by
  apply Triple.get_bind
  intro state started
  subst started
  apply Triple.bind _ (onWire_pollWrite_told state _)
  intro answer
  cases answer with
  | ready result =>
      exact Triple.pure (fun _ told => ⟨told.since, by simp⟩)
  | pending =>
      dsimp only
      split_ifs with topsUp
      · apply Triple.bind (fun _ after => Since state.wire after.wire ∧
          after.buf.pos = state.buf.pos ∧ state.buf.cap ≤ after.buf.cap ∧
          Answered state.wire after.wire
            (.write state.buf.slice .pending))
        · apply Triple.of_forall
          intro written told
          apply (pollFillBuf_told written).consequence
            (fun _ same => same) _ (fun _ _ stops => stops)
          intro _ after filled
          obtain ⟨since, pos, cap, _⟩ := filled
          rw [told.same] at pos cap
          exact ⟨told.since.trans since, pos, cap,
            since.still_answered told.answered⟩
        · intro status
          cases status with
          | pending =>
              apply Triple.pure
              intro after told
              exact ⟨told.1, fun _ => ⟨told.2.1, told.2.2.1, _, told.2.2.2⟩⟩
          | ready result =>
              cases result with
              | error err =>
                  exact Triple.pure (fun _ told => ⟨told.1, by simp⟩)
              | ok _ =>
                  apply Triple.pure
                  intro after told
                  exact ⟨told.1,
                    fun _ => ⟨told.2.1, told.2.2.1, _, told.2.2.2⟩⟩
      · apply Triple.pure
        intro after told
        rw [told.same]
        exact ⟨told.since, fun _ => ⟨rfl, Nat.le_refl _, _, told.answered⟩⟩

theorem writeWhile_waits
    (tail : Triple (During start) next (Waits start) Anywhere)
    (rounds : Nat) :
    Triple (During start) (writeWhile rounds next) (Waits start)
      Anywhere := by
  induction rounds with
  | zero => exact Triple.throw (fun _ _ => trivial)
  | succ rounds induction =>
      apply Triple.get_bind
      intro copying during
      split_ifs with unwritten
      · apply Triple.bind _ (onWire_pollProceed_told copying)
        intro proceeds
        cases proceeds with
        | pending =>
            apply Triple.pure
            intro after told
            obtain ⟨same, since, refused⟩ := told
            refine ⟨Since.trans during since, fun _ => .outOfBudget ?_ ?_⟩
            · rw [same]
              exact unwritten
            · exact Since.outOfBudget during (refused rfl)
        | ready _ =>
            apply Triple.of_forall
            intro ready told
            obtain ⟨same, since, _⟩ := told
            have still : ready.During start := Since.trans during since
            apply Triple.bind _ (pollWriteBuf_told ready)
            intro result
            cases result with
            | pending =>
                apply Triple.pure
                intro after written
                obtain ⟨later, asked⟩ := written
                obtain ⟨pos, cap, slice, answered⟩ := asked rfl
                refine ⟨Since.trans still later,
                  fun _ => .writing slice ?_ ?_⟩
                · rw [same] at pos cap
                  omega
                · exact Since.answered still answered
            | ready result =>
                cases result with
                | error err =>
                    exact Triple.pure (fun _ written =>
                      ⟨Since.trans still written.1, by simp⟩)
                | ok count =>
                    dsimp only
                    split_ifs with zero
                    · exact Triple.pure (fun _ written =>
                        ⟨Since.trans still written.1, by simp⟩)
                    · apply modifyBuf_bind
                      intro after written
                      apply induction.startingAt
                      exact Since.trans still written.1
      · exact tail.startingAt during

theorem finish_waits
    (tail : Triple (During start) next (Waits start) Anywhere) :
    Triple (During start) (finish next) (Waits start) Anywhere := by
  apply Triple.get_bind
  intro copying during
  split_ifs with ended
  · simp only [Bool.and_eq_true, beq_iff_eq] at ended
    apply Triple.bind _ (onWire_pollFlush_told copying)
    intro answer
    cases answer with
    | pending =>
        exact Triple.pure (fun _ told => told.flushing during (.inr ended))
    | ready result =>
        cases result with
        | error err =>
            exact Triple.pure (fun _ told => told.ready during _)
        | ok _ =>
            exact Triple.pure (fun _ told => told.ready during _)
  · exact tail.startingAt during

theorem pollCopyLoop_waits (fuel : Nat) :
    Triple (During start) (pollCopyLoop fuel) (Waits start) Anywhere := by
  induction fuel with
  | zero => exact Triple.throw (fun _ _ => trivial)
  | succ fuel induction =>
      apply flushHead_waits
      apply fillEmpty_waits
      apply writeWhile_waits
      exact finish_waits induction

theorem pollCopy_waits :
    Triple (During start) pollCopy (Waits start) Anywhere := by
  intro copying during
  exact pollCopyLoop_waits _ copying during

end Poll

end Copying

namespace Direction

/-- What a direction that is not done waits for. -/
inductive Blocked (start : Wire) (direction : Direction) : Prop where
  | copying {buf : CopyBuffer}
      (running : direction.state = .running buf)
      (blocked :
        Copying.Blocked start { buf := buf, wire := direction.wire })
  | shutdown {count : Nat}
      (shutting : direction.state = .shuttingDown count)
      (answered : Answered start direction.wire (.shutdown .pending))

theorem Blocked.earlier {first second : Wire} {direction : Direction}
    (before : Since first second) (blocked : direction.Blocked second) :
    direction.Blocked first := by
  cases blocked with
  | copying running blocked => exact .copying running (blocked.earlier before)
  | shutdown shutting answered =>
      exact .shutdown shutting (before.answered answered)

/-- What the result of a transfer says about its direction. -/
def Shows (start : Wire) (direction : Direction) : Poll Nat → Prop
  | .ready count => direction.state = .done count
  | .pending => direction.Blocked start

theorem Shows.earlier {first second : Wire} {direction : Direction}
    {result : Poll Nat} (before : Since first second)
    (shows_ : direction.Shows second result) :
    direction.Shows first result := by
  cases result with
  | ready count => exact shows_
  | pending => exact Blocked.earlier before shows_

/-- The end of a transfer in a poll that began with the wire `start`. -/
def Waits (start : Wire) (result : Poll (IoResult Nat))
    (direction : Direction) : Prop :=
  Since start direction.wire ∧
    match result with
    | .ready (.ok count) => direction.Shows start (.ready count)
    | .ready (.error _) => True
    | .pending => direction.Shows start .pending

/-- The states of a poll that began with the wire `start`. -/
def During (start : Wire) (direction : Direction) : Prop :=
  Since start direction.wire

theorem note_during {start : Wire} {direction : Direction}
    (during : direction.During start) (state : TransferState)
    (events : List Event) : (direction.note state events).During start :=
  Since.trans during ⟨List.prefix_append _ _, List.suffix_rfl⟩

theorem transferRound_waits {start : Wire}
    {again : DirectionM (Poll (IoResult Nat))}
    (tail : Triple (During start) again (Waits start) Copying.Anywhere) :
    Triple (During start) (transferRound again) (Waits start)
      Copying.Anywhere := by
  apply Triple.get_bind
  intro direction during
  cases state : direction.state with
  | running buf =>
      apply Triple.bind (fun result after => During start after ∧
        (result = .pending → after.Blocked start))
      · apply Triple.zoom
        intro current same
        subst same
        apply Copying.pollCopy_waits.consequence
        · intro copying same
          subst same
          exact during
        · intro result copying waits
          exact ⟨waits.1, fun pending => .copying rfl (waits.2 pending)⟩
        · exact fun _ _ _ => trivial
      · intro result
        match result with
        | .pending =>
            exact Triple.pure (fun _ waits => ⟨waits.1, waits.2 rfl⟩)
        | .ready (.error err) =>
            exact Triple.pure (fun _ waits => ⟨waits.1, trivial⟩)
        | .ready (.ok count) =>
            apply Triple.modify_bind
            intro copied waits
            exact tail.startingAt (note_during waits.1 _ _)
  | shuttingDown count =>
      apply Triple.bind (fun answer after => During start after ∧
        after.state = .shuttingDown count ∧
        Answered start after.wire (.shutdown answer))
      · apply Triple.zoom
        intro current same wire same₂
        subst same same₂
        unfold Wire.pollShutdown
        cases current.wire.script.shutdowns with
        | nil => trivial
        | cons answer rest =>
            exact ⟨Since.trans during (.record _ _ _ rfl), state,
              Since.answered during (answered_record _ _ _)⟩
      · intro answer
        match answer with
        | .pending =>
            apply Triple.pure
            intro after told
            exact ⟨told.1, .shutdown told.2.1 told.2.2⟩
        | .ready (.error err) =>
            exact Triple.pure (fun _ told => ⟨told.1, trivial⟩)
        | .ready (.ok ()) =>
            apply Triple.modify_bind
            intro shut told
            exact tail.startingAt (note_during told.1 _ _)
  | done count =>
      apply Triple.pure
      intro after same
      subst same
      exact ⟨during, state⟩

theorem transferOneDirection_waits (start : Wire) :
    Triple (During start) transferOneDirection (Waits start)
      Copying.Anywhere := by
  apply transferRound_waits
  apply transferRound_waits
  apply transferRound_waits
  exact Triple.throw (fun _ _ => trivial)

end Direction

end HoprUtilities.Network
