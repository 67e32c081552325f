import HoprUtilities.Network.Conservation
import HoprUtilities.Network.UdpStream

/-!
# Copying into a UDP stream

The embedding of `poll_write` and `poll_flush` of `ConnectedUdpStream`, and
its composition with `poll_copy`.  The two machines meet in the calls that
`poll_copy` makes on its writer: a run of the composition is a run of the copy
whose answered writes and flushes the stream can replay, with the same
answers, from its own script of answers of the egress queue.

`poll_write` keeps nothing but a length while it waits for the queue to be
flushed, and `poll_copy` may have read more data when it calls again.  What
makes this work is that the buffer only grows at its end.
-/

namespace HoprUtilities.Network.Udp

open HoprUtilities.Lib

/-- The calls of the stream to its egress queue. -/
inductive SinkCall where
  | ready
  | startSend (item : Bytes)
  | flush
  deriving DecidableEq, Repr

/-- The answers the egress queue is going to give. -/
structure Sender where
  readies : List (Poll (IoResult Unit))
  starts : List (IoResult Unit)
  flushes : List (Poll (IoResult Unit))
  deriving DecidableEq, Repr

inductive WriteState where
  | writing
  | flushing (len : Nat)
  deriving DecidableEq, Repr

/-- The writing half of a `ConnectedUdpStream`.  `egressTx` says that the
field of that name is set, `sender` is what it holds, and `items` are those
that were passed to `start_send`. -/
structure Writer where
  egressTx : Bool
  sender : Sender
  state : WriteState
  items : List Bytes
  deriving DecidableEq, Repr

abbrev WriterM (α : Type) := EStateM SinkCall Writer α

def closedError : IoError := .message notConnected "udp stream is closed"

def otherError (error : IoError) : IoError := .wrapped (.other 0) error

namespace Writer

def new (sender : Sender) : Writer :=
  { egressTx := true, sender := sender, state := .writing, items := [] }

def pollReadyUnpin : WriterM (Poll (IoResult Unit)) :=
  fun writer =>
    match writer.sender.readies with
    | [] => .error .ready writer
    | answer :: rest =>
        .ok answer { writer with sender := { writer.sender with readies := rest } }

def startSendUnpin (item : Bytes) : WriterM (IoResult Unit) :=
  fun writer =>
    match writer.sender.starts with
    | [] => .error (.startSend item) writer
    | answer :: rest =>
        .ok answer
          { writer with
            sender := { writer.sender with starts := rest }
            items := writer.items ++ [item] }

def pollFlushUnpin : WriterM (Poll (IoResult Unit)) :=
  fun writer =>
    match writer.sender.flushes with
    | [] => .error .flush writer
    | answer :: rest =>
        .ok answer { writer with sender := { writer.sender with flushes := rest } }

def setState (state : WriteState) : WriterM PUnit :=
  modify fun writer => { writer with state := state }

/-- The round of the loop of `poll_write` in which it flushes and returns. -/
def finishWrite (len : Nat) : WriterM (Poll (IoResult Nat)) := do
  match ← pollFlushUnpin with
  | .pending => return .pending
  | .ready res => do
      setState .writing
      return .ready (res.map fun _ => len)

/-- The round of the loop in which it submits the item; the next round
flushes. -/
def submit (buf : Bytes) : WriterM (Poll (IoResult Nat)) := do
  match ← pollReadyUnpin with
  | .pending => return .pending
  | .ready (.error error) => return .ready (.error error)
  | .ready (.ok ()) =>
      match ← startSendUnpin buf with
      | .error error => return .ready (.error error)
      | .ok () => do
          setState (.flushing buf.length)
          finishWrite buf.length

def pollWrite (buf : Bytes) : WriterM (Poll (IoResult Nat)) := do
  let writer ← get
  if writer.egressTx then
    match writer.state with
    | .writing => submit buf
    | .flushing len => finishWrite len
  else return .ready (.error closedError)

def pollFlush : WriterM (Poll (IoResult Unit)) := do
  let writer ← get
  if writer.egressTx then
    match ← pollFlushUnpin with
    | .pending => return .pending
    | .ready res => return .ready (res.mapError otherError)
  else return .ready (.error closedError)

inductive Wrote (slice : Bytes) (writer : Writer) :
    Poll (IoResult Nat) → Writer → Prop where
  | busy {after : Writer} (writing : writer.state = .writing)
      (state : after.state = .writing) (items : after.items = writer.items) :
      Wrote slice writer .pending after
  | submitted {after : Writer} (writing : writer.state = .writing)
      (state : after.state = .flushing slice.length)
      (items : after.items = writer.items ++ [slice]) :
      Wrote slice writer .pending after
  | written {after : Writer} (writing : writer.state = .writing)
      (state : after.state = .writing)
      (items : after.items = writer.items ++ [slice]) :
      Wrote slice writer (.ready (.ok slice.length)) after
  | waiting {len : Nat} {after : Writer}
      (flushing : writer.state = .flushing len)
      (state : after.state = .flushing len)
      (items : after.items = writer.items) :
      Wrote slice writer .pending after
  | flushed {len : Nat} {after : Writer}
      (flushing : writer.state = .flushing len)
      (state : after.state = .writing) (items : after.items = writer.items) :
      Wrote slice writer (.ready (.ok len)) after
  | failed (error : IoError) (after : Writer) :
      Wrote slice writer (.ready (.error error)) after

/-- Where a call of `poll_write` can be waiting for an answer: before or after
it has submitted the item. -/
inductive Submitting (slice : Bytes) (writer : Writer) : Writer → Prop where
  | before {after : Writer} (state : after.state = writer.state)
      (items : after.items = writer.items) : Submitting slice writer after
  | after {after : Writer} (writing : writer.state = .writing)
      (state : after.state = .flushing slice.length)
      (items : after.items = writer.items ++ [slice]) :
      Submitting slice writer after

theorem pollFlushUnpin_triple (writer : Writer) :
    Triple (· = writer) pollFlushUnpin
      (fun _ after => after.state = writer.state ∧ after.items = writer.items)
      (fun _ after => after = writer) := by
  intro start same
  subst same
  unfold pollFlushUnpin
  cases start.sender.flushes with
  | nil => rfl
  | cons answer rest => exact ⟨rfl, rfl⟩

theorem finishWrite_triple (len : Nat) (writer : Writer) :
    Triple (· = writer) (finishWrite len)
      (fun result after => after.items = writer.items ∧
        (result = .pending ∧ after.state = writer.state ∨
          result = .ready (.ok len) ∧ after.state = .writing ∨
          ∃ error, result = .ready (.error error)))
      (fun _ after => after = writer) := by
  apply Triple.bind _ (pollFlushUnpin_triple writer)
  intro answer
  cases answer with
  | pending =>
      apply Triple.pure
      intro after premise
      exact ⟨premise.2, .inl ⟨rfl, premise.1⟩⟩
  | ready res =>
      apply Triple.modify_bind
      intro flushed premise
      apply Triple.pure
      intro after same
      subst same
      refine ⟨premise.2, .inr ?_⟩
      cases res with
      | ok => exact .inl ⟨rfl, rfl⟩
      | error error => exact .inr ⟨error, rfl⟩

theorem submit_triple (slice : Bytes) (writer : Writer)
    (writing : writer.state = .writing) :
    Triple (· = writer) (submit slice) (Wrote slice writer)
      (fun _ after => Submitting slice writer after) := by
  apply Triple.bind (fun _ after =>
    after.state = .writing ∧ after.items = writer.items)
  · intro start same
    subst same
    unfold pollReadyUnpin
    cases start.sender.readies with
    | nil => exact .before rfl rfl
    | cons answer rest => exact ⟨writing, rfl⟩
  · intro answer
    match answer with
    | .pending =>
        apply Triple.pure
        intro after premise
        exact .busy writing premise.1 premise.2
    | .ready (.error error) =>
        exact Triple.pure (fun after _ => .failed error after)
    | .ready (.ok ()) =>
        apply Triple.bind (fun _ after =>
          after.items = writer.items ++ [slice])
        · intro start premise
          unfold startSendUnpin
          cases start.sender.starts with
          | nil => exact .before (premise.1.trans writing.symm) premise.2
          | cons answer rest =>
              change start.items ++ [slice] = writer.items ++ [slice]
              rw [premise.2]
        · intro started
          match started with
          | .error error =>
              exact Triple.pure (fun after _ => .failed error after)
          | .ok () =>
              apply Triple.modify_bind
              intro sent items
              apply (finishWrite_triple slice.length _).consequence
                (fun _ same => same)
              · intro result after premise
                obtain ⟨sameItems, cases⟩ := premise
                have submitted := sameItems.trans items
                obtain ⟨rfl, state⟩ | ⟨rfl, state⟩ | ⟨error, rfl⟩ := cases
                · exact .submitted writing state submitted
                · exact .written writing state submitted
                · exact .failed error after
              · intro call after same
                subst same
                exact .after writing rfl items

theorem pollWrite_triple (slice : Bytes) (writer : Writer) :
    Triple (· = writer) (pollWrite slice) (Wrote slice writer)
      (fun _ after => Submitting slice writer after) := by
  apply Triple.get_bind
  intro start same
  subst same
  split_ifs
  · split
    · next writing => exact submit_triple slice start writing
    · next len flushing =>
        apply (finishWrite_triple len start).consequence (fun _ same => same)
        · intro result after premise
          obtain ⟨items, cases⟩ := premise
          obtain ⟨rfl, state⟩ | ⟨rfl, state⟩ | ⟨error, rfl⟩ := cases
          · exact .waiting flushing (state.trans flushing) items
          · exact .flushed flushing state items
          · exact .failed error after
        · intro call after same
          subst same
          exact .before rfl rfl
  · exact Triple.pure (fun after _ => .failed closedError after)

theorem pollFlush_triple (writer : Writer) :
    Triple (· = writer) pollFlush
      (fun _ after => after.state = writer.state ∧ after.items = writer.items)
      (fun _ after => after = writer) := by
  apply Triple.get_bind
  intro start same
  subst same
  split_ifs
  · apply Triple.bind _ (pollFlushUnpin_triple start)
    intro answer
    cases answer with
    | pending => exact Triple.pure (fun _ premise => premise)
    | ready res => exact Triple.pure (fun _ premise => premise)
  · apply Triple.pure
    intro after same
    subst same
    exact ⟨rfl, rfl⟩

/-- The stream after a call of the copy that it answers as recorded. -/
def replay (writer : Writer) : Event → Option Writer
  | .write slice answer =>
      match pollWrite slice writer with
      | .ok result after => if result = answer then some after else none
      | .error _ _ => none
  | .flush answer =>
      match pollFlush writer with
      | .ok result after => if result = answer then some after else none
      | .error _ _ => none
  | _ => some writer

/-- The stream after a log of the copy. -/
def replayAll : List Event → Writer → Option Writer
  | [], writer => some writer
  | event :: rest, writer => (writer.replay event).bind (replayAll rest)

theorem replayAll_snoc (log : List Event) (event : Event) (writer : Writer) :
    replayAll (log ++ [event]) writer =
      (replayAll log writer).bind (·.replay event) := by
  induction log generalizing writer with
  | nil => simp [replayAll, Option.bind_some]
  | cons first rest induction =>
      simp only [List.cons_append, replayAll, Option.bind_assoc]
      congr 1
      funext next
      exact induction next

theorem replay_write {writer after : Writer} {slice : Bytes}
    {answer : Poll (IoResult Nat)}
    (replayed : writer.replay (.write slice answer) = some after) :
    Wrote slice writer answer after := by
  have spec := pollWrite_triple slice writer writer rfl
  simp only [replay] at replayed
  cases called : pollWrite slice writer with
  | ok result state =>
      rw [called] at spec replayed
      simp only at replayed
      split_ifs at replayed with same
      cases replayed
      exact same ▸ spec
  | error call state =>
      rw [called] at replayed
      cases replayed

theorem replay_flush {writer after : Writer} {answer : Poll (IoResult Unit)}
    (replayed : writer.replay (.flush answer) = some after) :
    after.state = writer.state ∧ after.items = writer.items := by
  have spec := pollFlush_triple writer writer rfl
  simp only [replay] at replayed
  cases called : pollFlush writer with
  | ok result state =>
      rw [called] at spec replayed
      simp only at replayed
      split_ifs at replayed
      cases replayed
      exact spec
  | error call state =>
      rw [called] at replayed
      cases replayed

end Writer

/-- The non-empty reads of a log, in order. -/
def datagrams (log : List Event) : List Bytes :=
  (log.map Event.delivers).filter (· ≠ [])

@[simp] theorem datagrams_append (log more : List Event) :
    datagrams (log ++ more) = datagrams log ++ datagrams more := by
  simp [datagrams]

/-- A datagram that may not be there. -/
def single (data : Bytes) : List Bytes := if data = [] then [] else [data]

theorem datagrams_singleton (event : Event) :
    datagrams [event] = single event.delivers := by
  by_cases empty : event.delivers = [] <;> simp [datagrams, single, empty]

/-- The call was answered with an error. -/
def isFailure : Event → Bool
  | .read _ (.ready (.error _)) => true
  | .write _ (.ready (.error _)) => true
  | .flush (.ready (.error _)) => true
  | _ => false

/-- The part of the slice that was not passed to `start_send` yet. -/
def Writer.unsubmitted (writer : Writer) (slice : Bytes) : Bytes :=
  match writer.state with
  | .writing => slice
  | .flushing len => slice.drop len

/-- The slice after an answered write. -/
def afterWrite (slice : Bytes) : Poll (IoResult Nat) → Bytes
  | .ready (.ok count) => slice.drop count
  | _ => slice

/-- The items are what was read, up to the part of the buffer that was not
submitted yet.  While the stream waits for a flush, the length it remembers
lies within the slice, and is all of it in datagram mode. -/
structure Joint (datagram : Bool) (log : List Event) (slice : Bytes)
    (writer : Writer) : Prop where
  within : ∀ len, writer.state = .flushing len →
    0 < len ∧ len ≤ slice.length ∧ (datagram = true → len = slice.length)
  bytes : delivered log = writer.items.flatten ++ writer.unsubmitted slice
  boundaries : datagram = true →
    datagrams log = writer.items ++ single (writer.unsubmitted slice)

namespace Joint

variable {datagram : Bool} {log : List Event} {slice : Bytes}
  {writer after : Writer}

theorem quiet (joint : Joint datagram log slice writer) {event : Event}
    (silent : event.delivers = []) (state : after.state = writer.state)
    (items : after.items = writer.items) :
    Joint datagram (log ++ [event]) slice after := by
  have same : after.unsubmitted slice = writer.unsubmitted slice := by
    simp only [Writer.unsubmitted, state]
  constructor
  · rw [state]
    exact joint.within
  · rw [items, same]
    simpa [silent] using joint.bytes
  · intro isDatagram
    rw [items, same]
    simpa [datagrams_singleton, silent, single] using
      joint.boundaries isDatagram

theorem submitted (joint : Joint datagram log slice writer)
    (nonempty : slice ≠ []) (writing : writer.state = .writing)
    (state : after.state = .flushing slice.length)
    (items : after.items = writer.items ++ [slice]) :
    Joint datagram log slice after := by
  have bytes := joint.bytes
  have boundaries := joint.boundaries
  simp only [Writer.unsubmitted, writing] at bytes boundaries
  constructor
  · intro len flushing
    obtain rfl : slice.length = len := by
      rw [state] at flushing
      cases flushing
      rfl
    exact ⟨List.length_pos_iff.mpr nonempty, Nat.le_refl _, fun _ => rfl⟩
  · simpa [Writer.unsubmitted, state, items] using bytes
  · intro isDatagram
    simpa [Writer.unsubmitted, state, items, single, nonempty] using
      boundaries isDatagram

theorem acknowledged (joint : Joint datagram log slice writer) {len : Nat}
    (flushing : writer.state = .flushing len)
    (state : after.state = .writing) (items : after.items = writer.items) :
    Joint datagram log (slice.drop len) after := by
  have bytes := joint.bytes
  have boundaries := joint.boundaries
  simp only [Writer.unsubmitted, flushing] at bytes boundaries
  constructor
  · intro other flushed
    rw [state] at flushed
    cases flushed
  · simpa only [Writer.unsubmitted, state, items] using bytes
  · intro isDatagram
    simpa only [Writer.unsubmitted, state, items] using boundaries isDatagram

/-- More data at the end of the slice.  In datagram mode the slice was empty
before. -/
theorem read (joint : Joint datagram log slice writer) {room : Nat}
    {data : Bytes} (whole : datagram = true → slice = []) :
    Joint datagram (log ++ [.read room (.ready (.ok data))]) (slice ++ data)
      writer := by
  have bytes := joint.bytes
  have boundaries := joint.boundaries
  cases state : writer.state with
  | writing =>
      simp only [Writer.unsubmitted, state] at bytes boundaries
      constructor
      · intro len flushing
        rw [state] at flushing
        cases flushing
      · simp [Writer.unsubmitted, state, Event.delivers, bytes]
      · intro isDatagram
        have before := boundaries isDatagram
        simp only [whole isDatagram, single, if_true, List.append_nil]
          at before
        simp [Writer.unsubmitted, state, datagrams_singleton, Event.delivers,
          before, whole isDatagram]
  | flushing len =>
      -- the slice is not empty, so this is a byte stream
      obtain ⟨positive, short, _⟩ := joint.within len state
      have isStream : datagram = false := by
        by_contra isDatagram
        rw [whole (by simpa using isDatagram), List.length_nil] at short
        omega
      simp only [Writer.unsubmitted, state] at bytes
      constructor
      · intro other flushing
        rw [state] at flushing
        cases flushing
        refine ⟨positive, ?_, fun isDatagram => ?_⟩
        · rw [List.length_append]
          omega
        · rw [isStream] at isDatagram
          cases isDatagram
      · simp [Writer.unsubmitted, state, Event.delivers, bytes,
          List.drop_append_of_le_length short]
      · intro isDatagram
        rw [isStream] at isDatagram
        cases isDatagram

/-- An answered `poll_write` accepts at most the slice it was given. -/
theorem writeFits (joint : Joint datagram log slice writer)
    {answer : Poll (IoResult Nat)}
    (wrote : Writer.Wrote slice writer answer after) :
    WriteFits slice answer := by
  intro count accepted
  cases wrote with
  | written =>
      cases accepted
      exact Nat.le_refl _
  | flushed flushing =>
      cases accepted
      exact (joint.within count flushing).2.1
  | busy | submitted | waiting | failed => cases accepted

theorem write (joint : Joint datagram log slice writer)
    (nonempty : slice ≠ []) {answer : Poll (IoResult Nat)}
    (wrote : Writer.Wrote slice writer answer after)
    (successful : isFailure (.write slice answer) = false) :
    Joint datagram (log ++ [.write slice answer]) (afterWrite slice answer)
      after := by
  have silent : (Event.write slice answer).delivers = [] := rfl
  cases wrote with
  | busy writing state items =>
      exact joint.quiet silent (state.trans writing.symm) items
  | submitted writing state items =>
      exact (joint.submitted nonempty writing state items).quiet silent rfl rfl
  | written writing state items =>
      -- the item is submitted and acknowledged within one call
      have submitted : Joint datagram log slice
          { after with state := .flushing slice.length } :=
        joint.submitted nonempty writing rfl items
      have acknowledged : Joint datagram log (slice.drop slice.length) after :=
        submitted.acknowledged rfl state rfl
      exact acknowledged.quiet silent rfl rfl
  | waiting flushing state items =>
      exact joint.quiet silent (state.trans flushing.symm) items
  | flushed flushing state items =>
      have acknowledged := joint.acknowledged flushing state items
      exact acknowledged.quiet silent rfl rfl
  | failed error => cases successful

theorem submitting (joint : Joint datagram log slice writer)
    (nonempty : slice ≠ [])
    (submitting : Writer.Submitting slice writer after) :
    Joint datagram log slice after := by
  cases submitting with
  | before state items =>
      have same : after.unsubmitted slice = writer.unsubmitted slice := by
        simp only [Writer.unsubmitted, state]
      exact ⟨state ▸ joint.within, by rw [items, same]; exact joint.bytes,
        by rw [items, same]; exact joint.boundaries⟩
  | after writing state items =>
      exact joint.submitted nonempty writing state items

end Joint

theorem slice_onWrite (buf : CopyBuffer) (answer : Poll (IoResult Nat)) :
    (buf.onWrite answer).slice = afterWrite buf.slice answer := by
  cases answer with
  | pending => rfl
  | ready result =>
      cases result with
      | error => rfl
      | ok count =>
          cases count with
          | zero => simp [CopyBuffer.onWrite, afterWrite]
          | succ count => exact buf.slice_advance (count + 1)

/-- The composition keeps the buffer in shape, and every stream that replays
the log of a copy without errors agrees with it. -/
structure Composed (datagram : Bool) (start : Writer) (copying : Copying) :
    Prop where
  mode : copying.buf.datagram = datagram
  pos_le_cap : copying.buf.pos ≤ copying.buf.cap
  cap_le_length : copying.buf.cap ≤ copying.buf.buf.length
  joint : ∀ writer, start.replayAll copying.wire.log = some writer →
    (∀ event ∈ copying.wire.log, isFailure event = false) →
    Joint datagram copying.wire.log copying.buf.slice writer

namespace Composed

variable {datagram : Bool} {start : Writer} {copying : Copying}

theorem new (bufSize : Nat) (datagram : Bool) (script : Script)
    (sender : Sender) :
    Composed datagram (Writer.new sender)
      { buf := CopyBuffer.new bufSize datagram
        wire := { script := script, log := [] } } := by
  refine ⟨rfl, Nat.le_refl 0, Nat.zero_le _, ?_⟩
  intro writer replayed _
  cases replayed
  constructor
  · intro len flushing
    cases flushing
  · rfl
  · intro _
    rfl

theorem joint_snoc (composed : Composed datagram start copying)
    {event : Event} {slice : Bytes}
    (agrees : ∀ writer after, writer.replay event = some after →
      isFailure event = false →
      Joint datagram copying.wire.log copying.buf.slice writer →
      Joint datagram (copying.wire.log ++ [event]) slice after)
    (writer : Writer)
    (replayed : start.replayAll (copying.wire.log ++ [event]) = some writer)
    (successful : ∀ other ∈ copying.wire.log ++ [event],
      isFailure other = false) :
    Joint datagram (copying.wire.log ++ [event]) slice writer := by
  rw [Writer.replayAll_snoc] at replayed
  obtain ⟨before, earlier, last⟩ := Option.bind_eq_some_iff.mp replayed
  apply agrees before writer last (successful event (by simp))
  exact composed.joint before earlier
    (fun other member => successful other (by simp [member]))

theorem flush (composed : Composed datagram start copying) (script : Script)
    (answer : Poll (IoResult Unit)) {buf : CopyBuffer}
    (same : buf = copying.buf ∨ buf = copying.buf.onFlush answer) :
    Composed datagram start (copying.record buf script (.flush answer)) := by
  have kept : buf.datagram = copying.buf.datagram ∧ buf.pos = copying.buf.pos ∧
      buf.cap = copying.buf.cap ∧ buf.buf = copying.buf.buf := by
    rcases same with rfl | rfl
    · exact ⟨rfl, rfl, rfl, rfl⟩
    · unfold CopyBuffer.onFlush
      split <;> exact ⟨rfl, rfl, rfl, rfl⟩
  obtain ⟨mode, pos, cap, bytes⟩ := kept
  refine ⟨mode.trans composed.mode, ?_, ?_, ?_⟩
  · rw [Copying.record_buf, pos, cap]
    exact composed.pos_le_cap
  · rw [Copying.record_buf, cap, bytes]
    exact composed.cap_le_length
  · have slice : buf.slice = copying.buf.slice := by
      simp only [CopyBuffer.slice, pos, cap, bytes]
    rw [Copying.record_buf, slice]
    apply composed.joint_snoc
    intro writer after replayed _ joint
    obtain ⟨state, items⟩ := Writer.replay_flush replayed
    exact joint.quiet rfl state items

theorem read (composed : Composed datagram start copying) (script : Script)
    {room : Nat} {answer : Poll (IoResult Bytes)}
    (isRoom : room = copying.buf.buf.length - copying.buf.cap)
    (fits : ReadFits room answer)
    (whole : datagram = true → copying.buf.slice = []) :
    Composed datagram start
      (copying.record (copying.buf.onRead answer) script
        (.read room answer)) := by
  have inside := composed.cap_le_length
  match answer with
  | .pending | .ready (.error _) =>
      refine ⟨composed.mode, composed.pos_le_cap, inside, ?_⟩
      apply composed.joint_snoc
      intro writer after replayed _ joint
      cases replayed
      exact joint.quiet rfl rfl rfl
  | .ready (.ok data) =>
      have short : data.length ≤ room := fits data rfl
      have within : copying.buf.cap + data.length ≤
          copying.buf.buf.length := by omega
      refine ⟨composed.mode, ?_, ?_, ?_⟩
      · exact Nat.le_trans composed.pos_le_cap (Nat.le_add_right _ _)
      · change copying.buf.cap + data.length ≤ (copying.buf.fill data).buf.length
        rw [CopyBuffer.length_fill within]
        exact within
      · change ∀ writer, _ → _ →
          Joint datagram _ (copying.buf.fill data).slice writer
        rw [CopyBuffer.slice_fill composed.pos_le_cap inside]
        apply composed.joint_snoc
        intro writer after replayed _ joint
        cases replayed
        exact joint.read whole

theorem write (composed : Composed datagram start copying) (script : Script)
    {answer : Poll (IoResult Nat)}
    (unwritten : copying.buf.pos < copying.buf.cap)
    (fits : WriteFits copying.buf.slice answer) :
    Composed datagram start
      (copying.record (copying.buf.onWrite answer) script
        (.write copying.buf.slice answer)) := by
  have inside := composed.cap_le_length
  have sliceLength := CopyBuffer.length_slice inside
  have nonempty : copying.buf.slice ≠ [] := by
    apply List.length_pos_iff.mp
    omega
  have advanced : (copying.buf.onWrite answer).pos ≤
      (copying.buf.onWrite answer).cap ∧
      (copying.buf.onWrite answer).cap = copying.buf.cap ∧
      (copying.buf.onWrite answer).buf = copying.buf.buf ∧
      (copying.buf.onWrite answer).datagram = copying.buf.datagram := by
    match answer with
    | .pending | .ready (.error _) | .ready (.ok 0) =>
        exact ⟨composed.pos_le_cap, rfl, rfl, rfl⟩
    | .ready (.ok (count + 1)) =>
        have short := fits (count + 1) rfl
        refine ⟨?_, rfl, rfl, rfl⟩
        change copying.buf.pos + (count + 1) ≤ copying.buf.cap
        omega
  obtain ⟨below, cap, bytes, mode⟩ := advanced
  refine ⟨mode.trans composed.mode, below, ?_, ?_⟩
  · rw [Copying.record_buf, cap, bytes]
    exact inside
  · rw [Copying.record_buf, slice_onWrite]
    apply composed.joint_snoc
    intro writer after replayed successful joint
    exact joint.write nonempty (Writer.replay_write replayed) successful

theorem step (composed : Composed datagram start copying) {next : Copying}
    (step : Copying.CopyStep copying next) :
    Composed datagram start next := by
  cases step with
  | flush script answer empty due =>
      exact composed.flush script answer (.inr rfl)
  | rewind empty open_ flushed =>
      have drained := CopyBuffer.slice_eq_nil empty
      refine ⟨composed.mode, Nat.le_refl 0, Nat.zero_le _, ?_⟩
      intro writer replayed successful
      have joint := composed.joint writer replayed successful
      rw [drained] at joint
      simpa [CopyBuffer.slice] using joint
  | fill script answer atStart open_ flushed fits =>
      apply composed.read script _ fits
      · intro _
        exact CopyBuffer.slice_eq_nil (atStart.1.trans atStart.2.symm)
      · rw [atStart.2]
        rfl
  | proceed script unwritten =>
      exact ⟨composed.mode, composed.pos_le_cap, composed.cap_le_length,
        composed.joint⟩
  | write script answer unwritten fits =>
      exact composed.write script unwritten fits
  | topUp script answer unwritten stream open_ roomy fits =>
      apply composed.read script rfl fits
      intro isDatagram
      rw [← composed.mode, stream] at isDatagram
      cases isDatagram
  | finalFlush script answer empty closed =>
      exact composed.flush script answer (.inl rfl)

theorem resume (composed : Composed datagram start copying) {next : Copying}
    (step : Copying.ResumeFlush copying next) :
    Composed datagram start next := by
  cases step with
  | mk script answer resumes =>
      exact composed.flush script answer (.inr rfl)

end Composed

def newCopy (bufSize : Nat) (datagram : Bool) (script : Script) : Copying :=
  { buf := CopyBuffer.new bufSize datagram
    wire := { script := script, log := [] } }

/-- At every point of every copy into a UDP stream, as long as no call has
failed: in datagram mode the items that were passed to `start_send` are the
datagrams that were read, one by one, except for the one in the buffer that
was not submitted yet.  In either mode their bytes are the bytes that were
read, up to the part of the buffer that was not submitted yet.  A call of
`poll_write` returns at most the length of its slice, and the same holds while
it waits for an answer of the egress queue. -/
theorem copy_submits_once (bufSize : Nat) (datagram : Bool) (script : Script)
    (sender : Sender) (polls : Nat) (copying : Copying)
    (seen : Observed (Copying.copyRun polls) (newCopy bufSize datagram script)
      copying)
    (writer : Writer)
    (replayed : (Writer.new sender).replayAll copying.wire.log = some writer)
    (successful : ∀ event ∈ copying.wire.log, isFailure event = false) :
    (datagram = true → datagrams copying.wire.log =
      writer.items ++ single (writer.unsubmitted copying.buf.slice)) ∧
    delivered copying.wire.log =
      writer.items.flatten ++ writer.unsubmitted copying.buf.slice ∧
    ∀ slice,
      Copying.copyRun polls (newCopy bufSize datagram script) =
        .error (.write slice) copying →
      (∀ result after, writer.pollWrite slice = .ok result after →
        WriteFits slice result) ∧
      ∀ call after, writer.pollWrite slice = .error call after →
        (datagram = true → datagrams copying.wire.log =
          after.items ++ single (after.unsubmitted copying.buf.slice)) ∧
        delivered copying.wire.log =
          after.items.flatten ++ after.unsubmitted copying.buf.slice := by
  have rule := Copying.copyRun_triple
    (fun _ _ step (held : Composed datagram (Writer.new sender) _) =>
      held.step step)
    (fun _ held => held.pos_le_cap) (fun _ _ step held => held.resume step)
    polls
  have begins := Composed.new bufSize datagram script sender
  have composed := rule.observed begins seen (fun _ _ ends => ends.1)
    (fun _ _ stops => stops.1)
  have joint := composed.joint writer replayed successful
  refine ⟨joint.boundaries, joint.bytes, ?_⟩
  intro slice stopped
  have spec := Writer.pollWrite_triple slice writer
  have waiting := (rule.error begins stopped).2
  obtain ⟨rfl, unwritten⟩ : slice = copying.buf.slice ∧
      copying.buf.pos < copying.buf.cap := by
    rcases waiting with waits | ⟨other, _⟩
    · cases waits with
      | write unwritten => exact ⟨rfl, unwritten⟩
    · cases other
  have nonempty : copying.buf.slice ≠ [] := by
    have sliceLength := CopyBuffer.length_slice composed.cap_le_length
    apply List.length_pos_iff.mp
    omega
  constructor
  · intro result after ended
    exact joint.writeFits (spec.ok rfl ended)
  · intro call after halted
    have waits := joint.submitting nonempty (spec.error rfl halted)
    exact ⟨waits.boundaries, waits.bytes⟩

/-- Two reads, the second of which falls between the two polls that the first
write takes. -/
def slowFlush : Script :=
  { reads := [.ready (.ok [1, 2]), .ready (.ok [3]), .ready (.ok [])]
    writes := [.pending, .ready (.ok 2), .ready (.ok 1)]
    flushes := List.replicate 3 (.ready (.ok ()))
    shutdowns := []
    tokioUnstable := false
    budget := [] }

/-- The egress queue is not flushed at once. -/
def slowSender : Sender :=
  { readies := List.replicate 2 (.ready (.ok ()))
    starts := List.replicate 2 (.ok ())
    flushes := .pending :: List.replicate 5 (.ready (.ok ())) }

/-- The copy in the given mode after two polls. -/
def slowCopy (datagram : Bool) : Copying :=
  halt (Copying.copyRun 2) (newCopy 4 datagram slowFlush)

/-- The copy is finished, and the stream has replayed it. -/
def slowCopyDone (datagram : Bool) : Bool :=
  ((Writer.new slowSender).replayAll (slowCopy datagram).wire.log).any
    (fun writer => writer.items == [[1, 2], [3]] && writer.state == .writing) &&
  (slowCopy datagram).wire.log.all (!isFailure ·) &&
  (slowCopy datagram).buf.pos == (slowCopy datagram).buf.cap

theorem copy_submits_once_slowFlush :
    delivered (slowCopy false).wire.log = [1, 2, 3] ∧
      datagrams (slowCopy true).wire.log = [[1, 2], [3]] := by
  have sound : ∀ mode, slowCopyDone mode = true →
      (mode = true → datagrams (slowCopy mode).wire.log = [[1, 2], [3]]) ∧
        delivered (slowCopy mode).wire.log = [1, 2, 3] := by
    intro mode passed
    simp only [slowCopyDone, Bool.and_eq_true, Option.any_eq_true, beq_iff_eq,
      List.all_eq_true, Bool.not_eq_eq_eq_not, Bool.not_true] at passed
    obtain ⟨⟨⟨writer, replayed, items, state⟩, successful⟩, drained⟩ := passed
    obtain ⟨boundaries, bytes, _⟩ := copy_submits_once 4 mode slowFlush
      slowSender 2 (slowCopy mode) (observed_halt _ _) writer replayed
      successful
    simp only [Writer.unsubmitted, state, items,
      CopyBuffer.slice_eq_nil drained] at boundaries bytes
    exact ⟨fun isDatagram => by simpa [single] using boundaries isDatagram,
      by simpa using bytes⟩
  have streamDone : slowCopyDone false = true := by decide +kernel
  have datagramDone : slowCopyDone true = true := by decide +kernel
  exact ⟨(sound false streamDone).2, (sound true datagramDone).1 rfl⟩

end HoprUtilities.Network.Udp
