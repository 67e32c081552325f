import HoprUtilities.Network.CopyBuffer

/-!
# What `poll_copy` can do

`CopyStep` lists, once and for all, the steps of `poll_copy`: an answered call
with the bookkeeping that follows it.  The main result of this module is the
rule `pollCopy_triple`: a predicate that every step preserves holds wherever
`poll_copy` ends or stops.  Every later invariant is proved by going through
the constructors of `CopyStep` and never unfolds `poll_copy` again.

`ResumeFlush` is kept apart from the other steps.  It is the flush at the head
of the loop when the future is polled again in the middle of a datagram, and
it can only be the first step of a poll.
-/

namespace HoprUtilities.Network

open HoprUtilities.Lib

namespace CopyBuffer

/-- The buffer after an answered flush that is meant to clear `need_flush`. -/
def onFlush (self : CopyBuffer) : Poll (IoResult Unit) → CopyBuffer
  | .ready (.ok ()) => { self with needFlush := false }
  | _ => self

/-- The buffer after an answered read. -/
def onRead (self : CopyBuffer) : Poll (IoResult Bytes) → CopyBuffer
  | .ready (.ok data) => self.fill data
  | _ => self

/-- The buffer after an answered write. -/
def onWrite (self : CopyBuffer) : Poll (IoResult Nat) → CopyBuffer
  | .ready (.ok count) => if count == 0 then self else self.advance count
  | _ => self

end CopyBuffer

/-- A read answer that keeps to the room it was offered. -/
def ReadFits (room : Nat) (answer : Poll (IoResult Bytes)) : Prop :=
  ∀ data, answer = .ready (.ok data) → data.length ≤ room

/-- A write answer that keeps to the slice it was offered. -/
def WriteFits (slice : Bytes) (answer : Poll (IoResult Nat)) : Prop :=
  ∀ count, answer = .ready (.ok count) → count ≤ slice.length

theorem readFits_fitRead (room : Nat) (answer : Poll (IoResult Bytes)) :
    ReadFits room (fitRead room answer) := by
  intro data equality
  unfold fitRead at equality
  split at equality
  · cases equality
    exact List.length_take_le room _
  · next notOk => exact (notOk data equality).elim

theorem writeFits_fitWrite (slice : Bytes) (answer : Poll (IoResult Nat)) :
    WriteFits slice (fitWrite slice answer) := by
  intro count equality
  unfold fitWrite at equality
  split at equality
  · cases equality
    exact Nat.min_le_right _ _
  · next notOk => exact (notOk count equality).elim

namespace Copying

/-- The copying state after one more event. -/
def record (copying : Copying) (buf : CopyBuffer) (script : Script)
    (event : Event) : Copying :=
  { buf := buf
    wire := { script := script, log := copying.wire.log ++ [event] } }

@[simp] theorem record_buf (copying : Copying) (buf : CopyBuffer)
    (script : Script) (event : Event) :
    (copying.record buf script event).buf = buf := rfl

@[simp] theorem record_log (copying : Copying) (buf : CopyBuffer)
    (script : Script) (event : Event) :
    (copying.record buf script event).wire.log =
      copying.wire.log ++ [event] := rfl

/-- The steps of `poll_copy` other than a resumed flush. -/
inductive CopyStep (copying : Copying) : Copying → Prop where
  | flush (script : Script) (answer : Poll (IoResult Unit))
      (empty : copying.buf.pos = copying.buf.cap)
      (due : copying.buf.needFlush = true) :
      CopyStep copying
        (copying.record (copying.buf.onFlush answer) script (.flush answer))
  | rewind
      (empty : copying.buf.pos = copying.buf.cap)
      (open_ : copying.buf.readDone = false)
      (flushed : copying.buf.datagram = true → copying.buf.needFlush = false) :
      CopyStep copying
        { copying with buf := { copying.buf with pos := 0, cap := 0 } }
  | fill (script : Script) (answer : Poll (IoResult Bytes))
      (atStart : copying.buf.pos = 0 ∧ copying.buf.cap = 0)
      (open_ : copying.buf.readDone = false)
      (flushed : copying.buf.datagram = true → copying.buf.needFlush = false)
      (fits : ReadFits copying.buf.buf.length answer) :
      CopyStep copying
        (copying.record (copying.buf.onRead answer) script
          (.read copying.buf.buf.length answer))
  | proceed (script : Script)
      (unwritten : copying.buf.pos < copying.buf.cap) :
      CopyStep copying
        { copying with wire := { copying.wire with script := script } }
  | write (script : Script) (answer : Poll (IoResult Nat))
      (unwritten : copying.buf.pos < copying.buf.cap)
      (fits : WriteFits copying.buf.slice answer) :
      CopyStep copying
        (copying.record (copying.buf.onWrite answer) script
          (.write copying.buf.slice answer))
  | topUp (script : Script) (answer : Poll (IoResult Bytes))
      (unwritten : copying.buf.pos < copying.buf.cap)
      (stream : copying.buf.datagram = false)
      (open_ : copying.buf.readDone = false)
      (roomy : copying.buf.cap < copying.buf.buf.length)
      (fits : ReadFits (copying.buf.buf.length - copying.buf.cap) answer) :
      CopyStep copying
        (copying.record (copying.buf.onRead answer) script
          (.read (copying.buf.buf.length - copying.buf.cap) answer))
  | finalFlush (script : Script) (answer : Poll (IoResult Unit))
      (empty : copying.buf.pos = copying.buf.cap)
      (closed : copying.buf.readDone = true) :
      CopyStep copying (copying.record copying.buf script (.flush answer))

/-- The state in which a poll starts by flushing a datagram that has only
been accepted in part. -/
def Resumes (copying : Copying) : Prop :=
  copying.buf.datagram = true ∧ copying.buf.needFlush = true ∧
    copying.buf.pos < copying.buf.cap

instance (copying : Copying) : Decidable copying.Resumes :=
  inferInstanceAs (Decidable (_ ∧ _ ∧ _))

/-- A loop head at which no datagram is about to be split. -/
def AtHead (copying : Copying) : Prop :=
  copying.buf.datagram = true → copying.buf.needFlush = true →
    copying.buf.pos = copying.buf.cap

inductive ResumeFlush (copying : Copying) : Copying → Prop where
  | mk (script : Script) (answer : Poll (IoResult Unit))
      (resumes : copying.Resumes) :
      ResumeFlush copying
        (copying.record (copying.buf.onFlush answer) script (.flush answer))

/-- What a poll that ended has returned, and in which state it did so. -/
inductive Ended (copying : Copying) : Copied → Prop where
  | pending : Ended copying .pending
  | copied {earlier : List Event}
      (empty : copying.buf.pos = copying.buf.cap)
      (closed : copying.buf.readDone = true)
      (flushed : copying.wire.log = earlier ++ [.flush (.ready (.ok ()))]) :
      Ended copying (.ready (.ok copying.buf.amt))
  | flushError {earlier : List Event} {err : IoError}
      (last : copying.wire.log = earlier ++ [.flush (.ready (.error err))]) :
      Ended copying (.ready (.error err))
  | fillError {earlier : List Event} {room : Nat} {err : IoError}
      (empty : copying.buf.pos = copying.buf.cap)
      (last : copying.wire.log =
        earlier ++ [.read room (.ready (.error err))]) :
      Ended copying (.ready (.error (.wrapped .brokenPipe err)))
  | topUpError {earlier : List Event} {room : Nat} {err : IoError}
      (unwritten : copying.buf.pos < copying.buf.cap)
      (last : copying.wire.log =
        earlier ++ [.read room (.ready (.error err))]) :
      Ended copying (.ready (.error err))
  | writeError {earlier : List Event} {slice : Bytes} {err : IoError}
      (last : copying.wire.log =
        earlier ++ [.write slice (.ready (.error err))]) :
      Ended copying (.ready (.error err))
  | writeZero {earlier : List Event} {slice : Bytes}
      (last : copying.wire.log =
        earlier ++ [.write slice (.ready (.ok 0))]) :
      Ended copying
        (.ready (.error (.message .writeZero "write zero byte")))

/-- Where a poll can be waiting for an answer. -/
inductive Waiting (copying : Copying) : Call → Prop where
  | flush (empty : copying.buf.pos = copying.buf.cap) : Waiting copying .flush
  | fill (atStart : copying.buf.pos = 0 ∧ copying.buf.cap = 0)
      (flushed : copying.buf.datagram = true → copying.buf.needFlush = false) :
      Waiting copying (.read copying.buf.buf.length)
  | topUp (unwritten : copying.buf.pos < copying.buf.cap)
      (stream : copying.buf.datagram = false) :
      Waiting copying (.read (copying.buf.buf.length - copying.buf.cap))
  | proceed : Waiting copying .proceed
  | write (unwritten : copying.buf.pos < copying.buf.cap) :
      Waiting copying (.write copying.buf.slice)
  | horizon : Waiting copying .horizon

section Calls

variable {α : Type} {pre : Copying → Prop} {stopped : Call → Copying → Prop}

theorem onWire_pollFlush_triple {post : Poll (IoResult Unit) → Copying → Prop}
    (waits : ∀ copying, pre copying → stopped .flush copying)
    (answers : ∀ copying script answer, pre copying →
      post answer (copying.record copying.buf script (.flush answer))) :
    Triple pre (onWire Wire.pollFlush) post stopped := by
  apply Triple.zoom
  intro copying entered wire same
  subst same
  unfold Wire.pollFlush
  cases copying.wire.script.flushes with
  | nil => exact waits copying entered
  | cons answer rest => exact answers copying _ answer entered

theorem onWire_pollRead_triple {room : Nat}
    {post : Poll (IoResult Bytes) → Copying → Prop}
    (waits : ∀ copying, pre copying → stopped (.read room) copying)
    (answers : ∀ copying script answer, pre copying → ReadFits room answer →
      post answer (copying.record copying.buf script (.read room answer))) :
    Triple pre (onWire (Wire.pollRead room)) post stopped := by
  apply Triple.zoom
  intro copying entered wire same
  subst same
  unfold Wire.pollRead
  cases copying.wire.script.reads with
  | nil => exact waits copying entered
  | cons answer rest =>
      exact answers copying _ _ entered (readFits_fitRead room answer)

theorem onWire_pollWrite_triple {slice : Bytes}
    {post : Poll (IoResult Nat) → Copying → Prop}
    (waits : ∀ copying, pre copying → stopped (.write slice) copying)
    (answers : ∀ copying script answer, pre copying → WriteFits slice answer →
      post answer (copying.record copying.buf script (.write slice answer))) :
    Triple pre (onWire (Wire.pollWrite slice)) post stopped := by
  apply Triple.zoom
  intro copying entered wire same
  subst same
  unfold Wire.pollWrite
  cases copying.wire.script.writes with
  | nil => exact waits copying entered
  | cons answer rest =>
      exact answers copying _ _ entered (writeFits_fitWrite slice answer)

theorem onWire_pollProceed_triple {post : Poll Unit → Copying → Prop}
    (waits : ∀ copying, pre copying → stopped .proceed copying)
    (answers : ∀ copying script answer, pre copying →
      post answer
        { copying with wire := { copying.wire with script := script } }) :
    Triple pre (onWire Wire.pollProceed) post stopped := by
  apply Triple.zoom
  intro copying entered wire same
  subst same
  unfold Wire.pollProceed
  split_ifs with budgeted
  · cases copying.wire.script.budget with
    | nil => exact waits copying entered
    | cons answer rest => exact answers copying _ answer entered
  · exact answers copying copying.wire.script _ entered

theorem modifyBuf_bind {update : CopyBuffer → CopyBuffer}
    {next : PUnit → CopyM α} {post : α → Copying → Prop}
    (tail : ∀ copying, pre copying →
      Triple (· = { copying with buf := update copying.buf }) (next ⟨⟩)
        post stopped) :
    Triple pre (modifyBuf update >>= next) post stopped :=
  Triple.modify_bind tail

/-- What `poll_fill_buf` reports of the answer of the reader. -/
def fillStatus : Poll (IoResult Bytes) → Poll (IoResult Unit)
  | .ready (.ok _) => .ready (.ok ())
  | .ready (.error err) => .ready (.error err)
  | .pending => .pending

theorem fillStatus_eq_error {answer : Poll (IoResult Bytes)} {err : IoError}
    (failed : fillStatus answer = .ready (.error err)) :
    answer = .ready (.error err) := by
  cases answer with
  | pending => cases failed
  | ready result =>
      cases result with
      | error => cases failed; rfl
      | ok => cases failed

theorem fillStatus_eq_pending {answer : Poll (IoResult Bytes)}
    (parked : fillStatus answer = .pending) : answer = .pending := by
  cases answer with
  | pending => rfl
  | ready result => cases result <;> cases parked

theorem pollFillBuf_triple {post : Poll (IoResult Unit) → Copying → Prop}
    (waits : ∀ copying, pre copying →
      stopped (.read (copying.buf.buf.length - copying.buf.cap)) copying)
    (answers : ∀ copying script answer, pre copying →
      ReadFits (copying.buf.buf.length - copying.buf.cap) answer →
      post (fillStatus answer)
        (copying.record (copying.buf.onRead answer) script
          (.read (copying.buf.buf.length - copying.buf.cap) answer))) :
    Triple pre pollFillBuf post stopped := by
  apply Triple.get_bind
  intro copying entered
  apply Triple.bind (fun answer read => ∃ script,
    ReadFits (copying.buf.buf.length - copying.buf.cap) answer ∧
    read = copying.record copying.buf script
      (.read (copying.buf.buf.length - copying.buf.cap) answer))
  · apply onWire_pollRead_triple
    · intro current same
      subst same
      exact waits current entered
    · intro current script answer same fits
      subst same
      exact ⟨script, fits, rfl⟩
  · intro answer
    match answer with
    | .ready (.ok data) =>
        apply modifyBuf_bind
        intro read premise
        obtain ⟨script, fits, rfl⟩ := premise
        apply Triple.pure
        intro final same
        subst same
        exact answers copying script _ entered fits
    | .ready (.error err) =>
        apply Triple.pure
        intro read premise
        obtain ⟨script, fits, rfl⟩ := premise
        exact answers copying script _ entered fits
    | .pending =>
        apply Triple.pure
        intro read premise
        obtain ⟨script, fits, rfl⟩ := premise
        exact answers copying script _ entered fits

theorem clearFlush_triple {next : CopyM Copied} {copying : Copying}
    {post : Copied → Copying → Prop}
    (waits : stopped .flush copying)
    (parked : ∀ script, post .pending
      (copying.record copying.buf script (.flush .pending)))
    (failed : ∀ script err, post (.ready (.error err))
      (copying.record copying.buf script (.flush (.ready (.error err)))))
    (tail : ∀ script, Triple
      (· = copying.record (copying.buf.onFlush (.ready (.ok ()))) script
        (.flush (.ready (.ok ())))) next post stopped) :
    Triple (· = copying) (clearFlush next) post stopped := by
  apply Triple.bind (fun answer flushed => ∃ script,
    flushed = copying.record copying.buf script (.flush answer))
  · apply onWire_pollFlush_triple
    · intro state same
      subst same
      exact waits
    · intro state script answer same
      subst same
      exact ⟨script, rfl⟩
  · intro answer
    match answer with
    | .pending =>
        apply Triple.pure
        intro flushed premise
        obtain ⟨script, rfl⟩ := premise
        exact parked script
    | .ready (.error err) =>
        apply Triple.pure
        intro flushed premise
        obtain ⟨script, rfl⟩ := premise
        exact failed script err
    | .ready (.ok ()) =>
        apply modifyBuf_bind
        intro flushed premise
        obtain ⟨script, rfl⟩ := premise
        exact tail script

end Calls

section Loop

variable {invariant : Copying → Prop}

/-- The invariant together with the outcome of a poll. -/
def EndsIn (invariant : Copying → Prop) (result : Copied)
    (copying : Copying) : Prop :=
  invariant copying ∧ copying.Ended result

/-- The invariant together with the call a poll waits for. -/
def StopsIn (invariant : Copying → Prop) (call : Call)
    (copying : Copying) : Prop :=
  invariant copying ∧ copying.Waiting call

variable
  (closed : ∀ copying next, CopyStep copying next → invariant copying →
    invariant next)

include closed

theorem pollWriteBuf_triple :
    Triple
      (fun copying => invariant copying ∧ copying.buf.pos < copying.buf.cap)
      pollWriteBuf
      (fun result copying =>
        match result with
        | .pending => invariant copying
        | .ready (.error err) =>
            invariant copying ∧ copying.Ended (.ready (.error err))
        | .ready (.ok count) => ∃ earlier script,
            invariant earlier ∧ earlier.buf.pos < earlier.buf.cap ∧
            WriteFits earlier.buf.slice (.ready (.ok count)) ∧
            copying = earlier.record earlier.buf script
              (.write earlier.buf.slice (.ready (.ok count))))
      (StopsIn invariant) := by
  apply Triple.get_bind
  intro copying premise
  obtain ⟨holds, unwritten⟩ := premise
  apply Triple.bind (fun answer written => ∃ script,
    WriteFits copying.buf.slice answer ∧
    written = copying.record copying.buf script
      (.write copying.buf.slice answer))
  · apply onWire_pollWrite_triple
    · intro current same
      subst same
      exact ⟨holds, .write unwritten⟩
    · intro current script answer same fits
      subst same
      exact ⟨script, fits, rfl⟩
  · intro answer
    match answer with
    | .ready (.ok count) =>
        apply Triple.pure
        intro written premise
        obtain ⟨script, fits, rfl⟩ := premise
        exact ⟨copying, script, holds, unwritten, fits, rfl⟩
    | .ready (.error err) =>
        apply Triple.pure
        intro written premise
        obtain ⟨script, fits, rfl⟩ := premise
        exact ⟨closed _ _ (.write script _ unwritten fits) holds,
          .writeError rfl⟩
    | .pending =>
        have waited : ∀ written, (∃ script,
            WriteFits copying.buf.slice .pending ∧
            written = copying.record copying.buf script
              (.write copying.buf.slice .pending)) →
            invariant written ∧ written.buf = copying.buf := by
          intro written premise
          obtain ⟨script, fits, rfl⟩ := premise
          exact ⟨closed _ _ (.write script _ unwritten fits) holds, rfl⟩
        dsimp only
        split_ifs with topsUp
        · simp only [Bool.and_eq_true, Bool.not_eq_eq_eq_not, Bool.not_true,
            decide_eq_true_eq] at topsUp
          obtain ⟨⟨stream, open_⟩, roomy⟩ := topsUp
          apply Triple.bind (fun status read => invariant read ∧
            ∀ err, status = .ready (.error err) →
              read.Ended (.ready (.error err)))
          · apply pollFillBuf_triple
            · intro written premise
              obtain ⟨written_holds, same⟩ := waited written premise
              exact ⟨written_holds, .topUp (by rw [same]; exact unwritten)
                (by rw [same]; exact stream)⟩
            · intro written script read premise fits
              obtain ⟨written_holds, same⟩ := waited written premise
              refine ⟨closed _ _ (.topUp script read
                (by rw [same]; exact unwritten) (by rw [same]; exact stream)
                (by rw [same]; exact open_) (by rw [same]; exact roomy)
                fits) written_holds, ?_⟩
              intro err failed
              obtain rfl := fillStatus_eq_error failed
              refine .topUpError ?_ rfl
              rw [record_buf]
              change written.buf.pos < written.buf.cap
              rw [same]
              exact unwritten
          · intro status
            cases status with
            | pending => exact Triple.pure (fun _ ⟨holds, _⟩ => holds)
            | ready result =>
                cases result with
                | error err =>
                    apply Triple.pure
                    intro read premise
                    obtain ⟨holds, ends⟩ := premise
                    exact ⟨holds, ends err rfl⟩
                | ok _ => exact Triple.pure (fun _ ⟨holds, _⟩ => holds)
        · apply Triple.pure
          intro written premise
          exact (waited written premise).1

variable
  (bounded : ∀ copying, invariant copying →
    copying.buf.pos ≤ copying.buf.cap)

theorem finish_triple {again : CopyM Copied}
    (tail : Triple
      (fun copying => invariant copying ∧ copying.buf.pos = copying.buf.cap)
      again (EndsIn invariant) (StopsIn invariant)) :
    Triple
      (fun copying => invariant copying ∧ copying.buf.pos = copying.buf.cap)
      (finish again) (EndsIn invariant) (StopsIn invariant) := by
  apply Triple.get_bind
  intro copying premise
  obtain ⟨holds, empty⟩ := premise
  split_ifs with ended
  · simp only [Bool.and_eq_true, beq_iff_eq] at ended
    apply Triple.bind (fun answer flushed => ∃ script,
      flushed = copying.record copying.buf script (.flush answer))
    · apply onWire_pollFlush_triple
      · intro current same
        subst same
        exact ⟨holds, .flush empty⟩
      · intro current script answer same
        subst same
        exact ⟨script, rfl⟩
    · intro answer
      match answer with
      | .pending =>
          apply Triple.pure
          intro flushed premise
          obtain ⟨script, rfl⟩ := premise
          exact ⟨closed _ _ (.finalFlush script _ empty ended.2) holds,
            .pending⟩
      | .ready (.error err) =>
          apply Triple.pure
          intro flushed premise
          obtain ⟨script, rfl⟩ := premise
          exact ⟨closed _ _ (.finalFlush script _ empty ended.2) holds,
            .flushError rfl⟩
      | .ready (.ok ()) =>
          apply Triple.pure
          intro flushed premise
          obtain ⟨script, rfl⟩ := premise
          exact ⟨closed _ _ (.finalFlush script _ empty ended.2) holds,
            .copied empty ended.2 rfl⟩
  · exact tail.startingAt ⟨holds, empty⟩

include bounded

theorem writeWhile_triple {next : CopyM Copied}
    (tail : Triple
      (fun copying => invariant copying ∧ copying.buf.pos = copying.buf.cap)
      next (EndsIn invariant) (StopsIn invariant)) (fuel : Nat) :
    Triple invariant (writeWhile fuel next)
      (EndsIn invariant) (StopsIn invariant) := by
  induction fuel with
  | zero => exact Triple.throw (fun _ holds => ⟨holds, .horizon⟩)
  | succ fuel induction =>
      apply Triple.get_bind
      intro copying holds
      split_ifs with unwritten
      · apply Triple.bind (fun _ proceeded =>
          invariant proceeded ∧ proceeded.buf.pos < proceeded.buf.cap)
        · apply onWire_pollProceed_triple
          · intro current same
            subst same
            exact ⟨holds, .proceed⟩
          · intro current script answer same
            subst same
            exact ⟨closed _ _ (.proceed script unwritten) holds, unwritten⟩
        · intro budget
          match budget with
          | .pending =>
              exact Triple.pure (fun _ proceeded => ⟨proceeded.1, .pending⟩)
          | .ready () =>
              apply Triple.bind _ (pollWriteBuf_triple closed)
              intro written
              match written with
              | .pending =>
                  exact Triple.pure (fun _ kept => ⟨kept, .pending⟩)
              | .ready (.error err) =>
                  exact Triple.pure (fun _ ended => ended)
              | .ready (.ok 0) =>
                  apply Triple.pure
                  intro final premise
                  obtain ⟨earlier, script, earlierHolds,
                    unwritten, fits, rfl⟩ := premise
                  exact ⟨closed _ _ (.write script _ unwritten fits)
                    earlierHolds, .writeZero rfl⟩
              | .ready (.ok (count + 1)) =>
                  apply modifyBuf_bind
                  intro final premise
                  obtain ⟨earlier, script, earlierHolds,
                    unwritten, fits, rfl⟩ := premise
                  apply induction.startingAt
                  exact closed _ _ (.write script _ unwritten fits)
                    earlierHolds
      · apply tail.startingAt
        have below := bounded copying holds
        exact ⟨holds, by omega⟩

omit bounded in
theorem fillEmpty_triple {next : CopyM Copied}
    (tail : Triple invariant next (EndsIn invariant) (StopsIn invariant)) :
    Triple
      (fun copying => invariant copying ∧
        (copying.buf.datagram = true → copying.buf.needFlush = false))
      (fillEmpty next) (EndsIn invariant) (StopsIn invariant) := by
  apply Triple.get_bind
  intro copying premise
  obtain ⟨holds, flushed⟩ := premise
  split_ifs with reads
  · simp only [Bool.and_eq_true, beq_iff_eq, Bool.not_eq_eq_eq_not,
      Bool.not_true] at reads
    obtain ⟨empty, open_⟩ := reads
    apply modifyBuf_bind
    intro current same
    subst same
    have rewound := closed _ _ (.rewind empty open_ flushed) holds
    generalize rewoundEq :
      { current with buf := { current.buf with pos := 0, cap := 0 } } = start
      at rewound ⊢
    have atStart : start.buf.pos = 0 ∧ start.buf.cap = 0 := by
      subst rewoundEq
      exact ⟨rfl, rfl⟩
    have startOpen : start.buf.readDone = false := by
      subst rewoundEq
      exact open_
    have startFlushed :
        start.buf.datagram = true → start.buf.needFlush = false := by
      subst rewoundEq
      exact flushed
    apply Triple.bind (fun status read => invariant read ∧
      (∀ err, status = .ready (.error err) →
        read.Ended (.ready (.error (.wrapped .brokenPipe err)))) ∧
      (status = .pending → read.buf.pos = read.buf.cap))
    · apply pollFillBuf_triple
      · intro state same
        subst same
        rw [atStart.2]
        exact ⟨rewound, .fill atStart startFlushed⟩
      · intro state script answer same fits
        subst same
        rw [atStart.2] at fits ⊢
        have same : state.buf.pos = state.buf.cap :=
          atStart.1.trans atStart.2.symm
        refine ⟨closed _ _ (.fill script answer atStart startOpen startFlushed
          fits) rewound, ?_, ?_⟩
        · intro err failed
          obtain rfl := fillStatus_eq_error failed
          exact .fillError same rfl
        · intro parked
          obtain rfl := fillStatus_eq_pending parked
          exact same
    · intro status
      cases status with
      | ready result =>
          cases result with
          | ok _ =>
              exact tail.strengthenPre (fun _ read => read.1)
          | error err =>
              apply Triple.pure
              intro read premise
              obtain ⟨holds, ends, _⟩ := premise
              exact ⟨holds, ends err rfl⟩
      | pending =>
          apply Triple.get_bind
          intro idle premise
          obtain ⟨idleHolds, _, parked⟩ := premise
          have idleEmpty := parked rfl
          split_ifs with due
          · have step := fun script answer =>
              closed _ _ (.flush script answer idleEmpty due) idleHolds
            apply clearFlush_triple ⟨idleHolds, .flush idleEmpty⟩
            · exact fun script => ⟨step script .pending, .pending⟩
            · exact fun script err =>
                ⟨step script (.ready (.error err)), .flushError rfl⟩
            · intro script
              apply Triple.pure
              intro final same
              subst same
              exact ⟨step script (.ready (.ok ())), .pending⟩
          · apply Triple.pure
            intro final same
            subst same
            exact ⟨idleHolds, .pending⟩
  · exact tail.startingAt holds

omit bounded in
theorem flushHead_triple {next : CopyM Copied}
    (tail : Triple
      (fun copying => invariant copying ∧
        (copying.buf.datagram = true → copying.buf.needFlush = false))
      next (EndsIn invariant) (StopsIn invariant)) :
    Triple (fun copying => invariant copying ∧ copying.AtHead)
      (flushHead next) (EndsIn invariant) (StopsIn invariant) := by
  apply Triple.get_bind
  intro copying premise
  obtain ⟨holds, head⟩ := premise
  split_ifs with due
  · simp only [Bool.and_eq_true] at due
    have empty := head due.1 due.2
    have step := fun script answer =>
      closed _ _ (.flush script answer empty due.2) holds
    apply clearFlush_triple ⟨holds, .flush empty⟩
    · exact fun script => ⟨step script .pending, .pending⟩
    · exact fun script err =>
        ⟨step script (.ready (.error err)), .flushError rfl⟩
    · intro script
      apply tail.startingAt
      exact ⟨step script (.ready (.ok ())), fun _ => rfl⟩
  · apply tail.startingAt
    refine ⟨holds, fun datagram => ?_⟩
    simpa [datagram] using due

theorem pollCopyLoop_triple (fuel : Nat) :
    Triple (fun copying => invariant copying ∧ copying.AtHead)
      (pollCopyLoop fuel) (EndsIn invariant) (StopsIn invariant) := by
  induction fuel with
  | zero => exact Triple.throw (fun _ premise => ⟨premise.1, .horizon⟩)
  | succ fuel induction =>
      apply flushHead_triple closed
      apply fillEmpty_triple closed
      apply writeWhile_triple closed bounded
      apply finish_triple closed
      exact induction.strengthenPre
        (fun _ premise => ⟨premise.1, fun _ _ => premise.2⟩)

/-- A poll that does not resume a datagram keeps what every step keeps. -/
theorem pollCopy_triple_of_not_resumes :
    Triple (fun copying => invariant copying ∧ ¬copying.Resumes)
      pollCopy (EndsIn invariant) (StopsIn invariant) := by
  intro copying premise
  obtain ⟨holds, fresh⟩ := premise
  have head : copying.AtHead := by
    intro datagram due
    have below := bounded copying holds
    by_contra different
    exact fresh ⟨datagram, due, by omega⟩
  exact pollCopyLoop_triple closed bounded _ copying ⟨holds, head⟩

/-- A poll that resumes a datagram starts with its flush.  Only a successful
one lets it go on, under any invariant that holds from there. -/
theorem pollCopy_triple_of_resumes {copying : Copying}
    {post : Copied → Copying → Prop} {stopped : Call → Copying → Prop}
    (resumes : copying.Resumes)
    (waits : stopped .flush copying)
    (parked : ∀ script, post .pending
      (copying.record copying.buf script (.flush .pending)))
    (failed : ∀ script err, post (.ready (.error err))
      (copying.record copying.buf script (.flush (.ready (.error err)))))
    (flushed : ∀ script, invariant
      (copying.record (copying.buf.onFlush (.ready (.ok ()))) script
        (.flush (.ready (.ok ())))))
    (ends : ∀ result final, EndsIn invariant result final → post result final)
    (stops : ∀ call final, StopsIn invariant call final →
      stopped call final) :
    Triple (· = copying) pollCopy post stopped := by
  have rest := fun fuel : Nat =>
    fillEmpty_triple closed (writeWhile_triple closed bounded
      (finish_triple closed
        ((pollCopyLoop_triple closed bounded fuel).strengthenPre
          (fun _ premise => ⟨premise.1, fun _ _ => premise.2⟩))) (fuel + 1))
  have head : Triple (· = copying)
      (pollCopyLoop (copying.wire.script.answers + 1)) post stopped := by
    apply Triple.get_bind
    intro state same
    subst same
    rw [if_pos (by simp [resumes.1, resumes.2.1])]
    apply clearFlush_triple waits parked failed
    intro script
    apply (rest _).consequence _ ends stops
    intro resumed same
    subst same
    exact ⟨flushed script, fun _ => rfl⟩
  intro state same
  subst same
  exact head state rfl

/-- Every poll keeps what every step keeps, the resumed flush included. -/
theorem pollCopy_triple
    (resumed : ∀ copying next, ResumeFlush copying next → invariant copying →
      invariant next) :
    Triple invariant pollCopy (EndsIn invariant)
      (fun call copying => invariant copying ∧
        (copying.Waiting call ∨ call = .flush ∧ copying.Resumes)) := by
  apply Triple.of_forall
  intro copying holds
  by_cases resumes : copying.Resumes
  · have step := fun script answer =>
      resumed _ _ (.mk script answer resumes) holds
    apply pollCopy_triple_of_resumes closed bounded resumes
    · exact ⟨holds, .inr ⟨rfl, resumes⟩⟩
    · exact fun script => ⟨step script .pending, .pending⟩
    · exact fun script err =>
        ⟨step script (.ready (.error err)), .flushError rfl⟩
    · exact fun script => step script (.ready (.ok ()))
    · exact fun _ _ ended => ended
    · exact fun _ _ stopped => ⟨stopped.1, .inl stopped.2⟩
  · exact (pollCopy_triple_of_not_resumes closed bounded).consequence
      (by rintro state rfl; exact ⟨holds, resumes⟩) (fun _ _ ends => ends)
      (fun _ _ stops => ⟨stops.1, .inl stops.2⟩)

theorem copyRun_triple
    (resumed : ∀ copying next, ResumeFlush copying next → invariant copying →
      invariant next) (polls : Nat) :
    Triple invariant (copyRun polls) (EndsIn invariant)
      (fun call copying => invariant copying ∧
        (copying.Waiting call ∨ call = .flush ∧ copying.Resumes)) := by
  induction polls with
  | zero => exact Triple.pure (fun _ holds => ⟨holds, .pending⟩)
  | succ polls induction =>
      apply Triple.bind _ (pollCopy_triple closed bounded resumed)
      intro result
      cases result with
      | pending =>
          exact induction.strengthenPre (fun _ ended => ended.1)
      | ready res => exact Triple.pure (fun _ ended => ended)

end Loop

end Copying

end HoprUtilities.Network
