import HoprUtilities.Network.Conservation

/-!
# Errors of the reader

`poll_copy` polls its reader in two places: into the empty buffer, and behind
unwritten bytes while the writer is not ready.  Only the first one wraps an
error of the reader into `BrokenPipe`.  The two are told apart by the room the
reader is offered, which is the whole buffer in the first case only.
-/

namespace HoprUtilities.Network

open HoprUtilities.Lib

def IoError.kind : IoError → ErrorKind
  | .simple kind => kind
  | .message kind _ => kind
  | .wrapped kind _ => kind

namespace Copying

def new (bufSize : Nat) (datagram : Bool) (script : Script) : Copying :=
  { buf := CopyBuffer.new bufSize datagram
    wire := { script := script, log := [] } }

/-- A read that failed with nothing after it stands before an empty buffer or
behind unwritten bytes. -/
structure Placed (bufSize : Nat) (copying : Copying) : Prop where
  balanced : Balanced copying
  sized : copying.buf.buf.length = bufSize
  failed : ∀ earlier room cause,
    copying.wire.log = earlier ++ [.read room (.ready (.error cause))] →
    room = bufSize ∧ copying.buf.pos = copying.buf.cap ∨
      room < bufSize ∧ copying.buf.pos < copying.buf.cap

namespace Placed

variable {bufSize : Nat} {copying next : Copying}

theorem new (sized : 0 < bufSize) (datagram : Bool) (script : Script) :
    Placed bufSize (Copying.new bufSize datagram script) :=
  { balanced := Balanced.new datagram script sized
    sized := List.length_replicate
    failed := by simp [Copying.new] }

theorem of_other {event : Event} (balanced : Balanced next)
    (sized : next.buf.buf.length = bufSize)
    (grown : next.wire.log = copying.wire.log ++ [event])
    (other : ∀ room cause, event ≠ .read room (.ready (.error cause))) :
    Placed bufSize next := by
  refine ⟨balanced, sized, ?_⟩
  intro earlier room cause last
  rw [grown] at last
  have same := List.append_inj_right' last rfl
  exact (other room cause (List.singleton_inj.mp same)).elim

theorem of_read {script : Script} {room : Nat}
    {answer : Poll (IoResult Bytes)} (placed : Placed bufSize copying)
    (balanced : Balanced
      (copying.record (copying.buf.onRead answer) script (.read room answer)))
    (isRoom : room = bufSize - copying.buf.cap)
    (fits : ReadFits room answer)
    (place : room = bufSize ∧ copying.buf.pos = copying.buf.cap ∨
      room < bufSize ∧ copying.buf.pos < copying.buf.cap) :
    Placed bufSize
      (copying.record (copying.buf.onRead answer) script
        (.read room answer)) := by
  have inside := placed.balanced.cap_le_length
  rw [placed.sized] at inside
  match answer with
  | .ready (.error _) =>
      refine ⟨balanced, placed.sized, ?_⟩
      intro earlier offered cause last
      have same := List.append_inj_right' last rfl
      cases same
      exact place
  | .pending => exact of_other balanced placed.sized rfl (by simp)
  | .ready (.ok data) =>
      have short : data.length ≤ room := fits data rfl
      have sized : (copying.buf.fill data).buf.length = bufSize := by
        rw [CopyBuffer.length_fill (by rw [placed.sized]; omega),
          placed.sized]
      exact of_other balanced sized rfl (by simp)

theorem step (placed : Placed bufSize copying)
    (step : CopyStep copying next) : Placed bufSize next := by
  have balanced := placed.balanced.step step
  have flushed : ∀ answer, (copying.buf.onFlush answer).buf.length = bufSize := by
    intro answer
    rw [← placed.sized]
    unfold CopyBuffer.onFlush
    split <;> rfl
  cases step with
  | flush script answer _ _ =>
      exact of_other balanced (flushed answer) rfl (by simp)
  | rewind empty _ _ =>
      refine ⟨balanced, placed.sized, ?_⟩
      intro earlier room cause last
      rcases placed.failed earlier room cause last with
        ⟨whole, _⟩ | ⟨_, unwritten⟩
      · exact .inl ⟨whole, rfl⟩
      · omega
  | fill script answer atStart _ _ fits =>
      have whole : copying.buf.buf.length = bufSize - copying.buf.cap := by
        rw [placed.sized, atStart.2, Nat.sub_zero]
      exact placed.of_read balanced whole fits
        (.inl ⟨placed.sized, atStart.1.trans atStart.2.symm⟩)
  | proceed script _ => exact ⟨balanced, placed.sized, placed.failed⟩
  | write script answer _ _ =>
      refine of_other balanced ?_ rfl (by simp)
      rw [← placed.sized]
      unfold CopyBuffer.onWrite
      split
      · split <;> rfl
      · rfl
  | topUp script answer unwritten _ _ roomy fits =>
      have sized := placed.sized
      exact placed.of_read balanced (by rw [sized]) fits
        (.inr ⟨by omega, unwritten⟩)
  | finalFlush script answer _ _ =>
      exact of_other balanced placed.sized rfl (by simp)

theorem resume (placed : Placed bufSize copying)
    (step : ResumeFlush copying next) : Placed bufSize next := by
  have balanced := placed.balanced.resume step
  cases step with
  | mk script answer resumes =>
      refine of_other balanced ?_ rfl (by simp)
      rw [← placed.sized]
      unfold CopyBuffer.onFlush
      split <;> rfl

end Placed

/-- What a future that has been polled so often has come to. -/
def outcome (bufSize : Nat) (datagram : Bool) (script : Script)
    (polls : Nat) : Copying :=
  halt (copyRun polls) (Copying.new bufSize datagram script)

/-- `poll_copy` has returned `err` because the reader, which was offered so
much room, has failed with `cause`. -/
structure ReaderFails (bufSize : Nat) (datagram : Bool) (script : Script)
    (polls room : Nat) (cause err : IoError) : Prop where
  returned : value? (copyRun polls) (Copying.new bufSize datagram script) =
    some (.ready (.error err))
  last : ∃ earlier, (outcome bufSize datagram script polls).wire.log =
    earlier ++ [.read room (.ready (.error cause))]

section Outcome

variable {bufSize : Nat} {datagram : Bool} {script : Script}
  {polls room : Nat} {cause err : IoError}

theorem ReaderFails.ended (sized : 0 < bufSize)
    (fails : ReaderFails bufSize datagram script polls room cause err) :
    Placed bufSize (outcome bufSize datagram script polls) ∧
      Ended (outcome bufSize datagram script polls) (.ready (.error err)) :=
  (copyRun_triple (fun _ _ step placed => Placed.step placed step)
    (fun _ placed => placed.balanced.pos_le_cap)
    (fun _ _ step placed => Placed.resume placed step) polls).ok
    (Placed.new sized datagram script) (eq_ok_of_value? fails.returned)

theorem ReaderFails.drained (sized : 0 < bufSize)
    (fails : ReaderFails bufSize datagram script polls room cause err) :
    accepted (outcome bufSize datagram script polls).wire.log =
        delivered (outcome bufSize datagram script polls).wire.log ↔
      (outcome bufSize datagram script polls).buf.pos =
        (outcome bufSize datagram script polls).buf.cap := by
  have balanced := (fails.ended sized).1.balanced
  have length := CopyBuffer.length_slice balanced.cap_le_length
  rw [balanced.conserved]
  constructor
  · intro same
    have none_left := List.append_right_eq_self.mp same.symm
    have below := balanced.pos_le_cap
    rw [none_left, List.length_nil] at length
    omega
  · intro empty
    rw [CopyBuffer.slice_eq_nil empty, List.append_nil]

theorem ReaderFails.kind (sized : 0 < bufSize)
    (fails : ReaderFails bufSize datagram script polls room cause err)
    (whole : room = bufSize) :
    err = .wrapped .brokenPipe cause ∧
      (outcome bufSize datagram script polls).buf.pos =
        (outcome bufSize datagram script polls).buf.cap := by
  obtain ⟨placed, ended⟩ := fails.ended sized
  obtain ⟨earlier, last⟩ := fails.last
  have empty : (outcome bufSize datagram script polls).buf.pos =
      (outcome bufSize datagram script polls).buf.cap := by
    rcases placed.failed earlier room cause last with
      ⟨_, empty⟩ | ⟨smaller, _⟩
    · exact empty
    · omega
  refine ⟨?_, empty⟩
  cases ended with
  | flushError here | writeError here | writeZero here =>
      rw [last] at here
      cases List.append_inj_right' here rfl
  | fillError _ here =>
      rw [last] at here
      cases List.append_inj_right' here rfl
      rfl
  | topUpError unwritten _ => omega

end Outcome

/-- The errors of the reader are treated as promised if and only if the read
that fails is offered the whole buffer, that is, if it is not a top-up behind
unwritten bytes. -/
theorem reader_errors_iff (bufSize : Nat) (sized : 0 < bufSize)
    (datagram : Bool) (script : Script) (polls : Nat) :
    (∀ room cause err,
      ReaderFails bufSize datagram script polls room cause err →
      err.kind = .brokenPipe ∧
        accepted (outcome bufSize datagram script polls).wire.log =
          delivered (outcome bufSize datagram script polls).wire.log) ↔
    ∀ room cause err,
      ReaderFails bufSize datagram script polls room cause err →
      room = bufSize := by
  constructor
  · intro treated room cause err fails
    obtain ⟨earlier, last⟩ := fails.last
    have empty := (fails.drained sized).mp (treated room cause err fails).2
    rcases (fails.ended sized).1.failed earlier room cause last with
      ⟨whole, _⟩ | ⟨_, unwritten⟩
    · exact whole
    · omega
  · intro filled room cause err fails
    obtain ⟨wrapped, empty⟩ := fails.kind sized (filled room cause err fails)
    refine ⟨?_, (fails.drained sized).mpr empty⟩
    rw [wrapped]
    rfl

/-- A reader that fails after two bytes, and a writer that takes them. -/
def failingReader (writes : List (Poll (IoResult Nat))) : Script :=
  { reads := [.ready (.ok [1, 2]), .ready (.error (.simple (.other 7)))]
    writes := writes
    flushes := []
    shutdowns := []
    tokioUnstable := false
    budget := [] }

theorem reader_errors_failingReader :
    ReaderFails 4 false (failingReader [.ready (.ok 2)]) 1 4
      (.simple (.other 7)) (.wrapped .brokenPipe (.simple (.other 7))) ∧
    accepted (outcome 4 false (failingReader [.ready (.ok 2)]) 1).wire.log =
      [1, 2] := by
  have log : (outcome 4 false (failingReader [.ready (.ok 2)]) 1).wire.log =
      [.read 4 (.ready (.ok [1, 2])), .write [1, 2] (.ready (.ok 2)),
        .read 4 (.ready (.error (.simple (.other 7))))] := by
    decide +kernel
  have fails : ReaderFails 4 false (failingReader [.ready (.ok 2)]) 1 4
      (.simple (.other 7)) (.wrapped .brokenPipe (.simple (.other 7))) :=
    { returned := by decide +kernel
      last := ⟨[.read 4 (.ready (.ok [1, 2])),
        .write [1, 2] (.ready (.ok 2))], log⟩ }
  have treated := (reader_errors_iff 4 (by decide) false
    (failingReader [.ready (.ok 2)]) 1).mpr (by
      intro room cause err other
      obtain ⟨earlier, last⟩ := other.last
      have same : [_, _] ++ [_] = earlier ++ [_] := log.symm.trans last
      have event := List.append_inj_right' same rfl
      cases event
      rfl) 4 _ _ fails
  refine ⟨fails, treated.2.trans ?_⟩
  rw [log]
  rfl

/-- The writer is not ready, and the read behind its back fails: the error is
passed on as it is, and two bytes are lost. -/
theorem reader_error_unwrapped :
    ¬ ∀ room cause err,
      ReaderFails 4 false (failingReader [.pending]) 1 room cause err →
      err.kind = .brokenPipe ∧
        accepted (outcome 4 false (failingReader [.pending]) 1).wire.log =
          delivered (outcome 4 false (failingReader [.pending]) 1).wire.log := by
  intro treated
  have fails : ReaderFails 4 false (failingReader [.pending]) 1 2
      (.simple (.other 7)) (.simple (.other 7)) :=
    { returned := by decide +kernel
      last := ⟨[.read 4 (.ready (.ok [1, 2])), .write [1, 2] .pending],
        by decide +kernel⟩ }
  have kind := (treated 2 _ _ fails).1
  cases kind

end Copying

end HoprUtilities.Network
