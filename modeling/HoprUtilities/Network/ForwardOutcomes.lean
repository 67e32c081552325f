import HoprUtilities.Network.Forwarding

/-!
# How forwarding ends

`ForwardWithTimeout` over any sink whose errors are `SinkTimeoutError`s, so
that any of its calls may report a timeout: when a poll panics, and what the
future says about its own termination.  The sink answers from the script, as
the stream does.
-/

namespace HoprUtilities.Network.Timeout

open HoprUtilities.Lib

/-- A call to the world outside, and neither a panic nor the end of a bounded
unrolling. -/
def Stop.isCall : Stop → Bool
  | .horizon => false
  | .panicked _ => false
  | _ => true

section Answers

variable {α ε : Type}

def isTimeout : Poll (Except (SinkTimeoutError ε) Unit) → Bool
  | .ready (.error .timeout) => true
  | _ => false

/-- The sink reports an error of its own. -/
def isFailure : Poll (Except (SinkTimeoutError ε) Unit) → Bool
  | .ready (.error (.inner _)) => true
  | _ => false

def endsInError : Poll (Option (Except ε α)) → Bool
  | .ready (some (.error _)) => true
  | _ => false

/-- What has been taken from the list when `left` is left of it. -/
def spent {β : Type} (all left : List β) : List β :=
  all.take (all.length - left.length)

theorem spent_append {β : Type} (given left : List β) :
    spent (given ++ left) left = given := by
  simp [spent]

theorem spent_tail {β : Type} {all rest : List β} {entry : β}
    (suffix : (entry :: rest) <:+ all) :
    rest <:+ all ∧ spent all rest = spent all (entry :: rest) ++ [entry] := by
  obtain ⟨given, rfl⟩ := suffix
  refine ⟨⟨given ++ [entry], by simp⟩, ?_⟩
  rw [spent_append, List.append_cons, spent_append]

theorem any_snoc {β : Type} (holds : β → Bool) (list : List β) (last : β) :
    (list ++ [last]).any holds = (list.any holds || holds last) := by
  simp

namespace Script

/-- The answers that have been given when `left` is left of the script. -/
def given {κ : Type} (script left : Script α ε κ) : Script α ε κ :=
  { nexts := spent script.nexts left.nexts
    readies := spent script.readies left.readies
    starts := spent script.starts left.starts
    flushes := spent script.flushes left.flushes
    closes := spent script.closes left.closes
    sleeps := spent script.sleeps left.sleeps
    pauses := spent script.pauses left.pauses }

/-- The sink reports a timeout from another call than `poll_ready`. -/
def timesOut (given : Script α ε (SinkTimeoutError ε)) : Bool :=
  given.starts.any (fun entry => isTimeout (.ready entry.2)) ||
    given.flushes.any (fun entry => isTimeout entry.2) ||
    given.closes.any (fun entry => isTimeout entry.2)

/-- The stream or the sink reports an error which is no timeout. -/
def fails (given : Script α ε (SinkTimeoutError ε)) : Bool :=
  given.nexts.any (fun entry => endsInError entry.2) ||
    given.readies.any (fun entry => isFailure entry.2) ||
    given.starts.any (fun entry => isFailure (.ready entry.2)) ||
    given.flushes.any (fun entry => isFailure entry.2) ||
    given.closes.any (fun entry => isFailure entry.2)

end Script

/-- Of the script, `left` is left, and what the answers so far have reported:
a timeout from another call than `poll_ready`, and a failure. -/
structure Reported (script left : Script α ε (SinkTimeoutError ε))
    (late failed : Bool) : Prop where
  nexts : left.nexts <:+ script.nexts
  readies : left.readies <:+ script.readies
  starts : left.starts <:+ script.starts
  flushes : left.flushes <:+ script.flushes
  closes : left.closes <:+ script.closes
  late : (script.given left).timesOut = late
  failed : (script.given left).fails = failed

namespace Reported

variable {script left : Script α ε (SinkTimeoutError ε)} {late failed : Bool}
  {delay : Nat}

theorem start (script : Script α ε (SinkTimeoutError ε)) :
    Reported script script false false := by
  constructor
  · exact List.suffix_rfl
  · exact List.suffix_rfl
  · exact List.suffix_rfl
  · exact List.suffix_rfl
  · exact List.suffix_rfl
  · simp [Script.given, Script.timesOut, spent]
  · simp [Script.given, Script.fails, spent]

theorem next (reported : Reported script left late failed)
    {answer : Poll (Option (Except ε α))}
    {rest : List (Nat × Poll (Option (Except ε α)))}
    (first : left.nexts = (delay, answer) :: rest) :
    Reported script { left with nexts := rest } late
      (failed || endsInError answer) := by
  obtain ⟨suffix, taken⟩ := spent_tail (first ▸ reported.nexts)
  rw [← first] at taken
  refine ⟨suffix, reported.readies, reported.starts, reported.flushes,
    reported.closes, reported.late, ?_⟩
  rw [← reported.failed]
  simp only [Script.fails, Script.given, taken, any_snoc]
  ac_rfl

theorem ready (reported : Reported script left late failed)
    {answer : Poll (Except (SinkTimeoutError ε) Unit)}
    {rest : List (Nat × Poll (Except (SinkTimeoutError ε) Unit))}
    (first : left.readies = (delay, answer) :: rest) :
    Reported script { left with readies := rest } late
      (failed || isFailure answer) := by
  obtain ⟨suffix, taken⟩ := spent_tail (first ▸ reported.readies)
  rw [← first] at taken
  refine ⟨reported.nexts, suffix, reported.starts, reported.flushes,
    reported.closes, reported.late, ?_⟩
  rw [← reported.failed]
  simp only [Script.fails, Script.given, taken, any_snoc]
  ac_rfl

theorem sent (reported : Reported script left late failed)
    {answer : Except (SinkTimeoutError ε) Unit}
    {rest : List (Nat × Except (SinkTimeoutError ε) Unit)}
    (first : left.starts = (delay, answer) :: rest) :
    Reported script { left with starts := rest }
      (late || isTimeout (.ready answer))
      (failed || isFailure (.ready answer)) := by
  obtain ⟨suffix, taken⟩ := spent_tail (first ▸ reported.starts)
  rw [← first] at taken
  refine ⟨reported.nexts, reported.readies, suffix, reported.flushes,
    reported.closes, ?_, ?_⟩
  · rw [← reported.late]
    simp only [Script.timesOut, Script.given, taken, any_snoc]
    ac_rfl
  · rw [← reported.failed]
    simp only [Script.fails, Script.given, taken, any_snoc]
    ac_rfl

theorem flushed (reported : Reported script left late failed)
    {answer : Poll (Except (SinkTimeoutError ε) Unit)}
    {rest : List (Nat × Poll (Except (SinkTimeoutError ε) Unit))}
    (first : left.flushes = (delay, answer) :: rest) :
    Reported script { left with flushes := rest } (late || isTimeout answer)
      (failed || isFailure answer) := by
  obtain ⟨suffix, taken⟩ := spent_tail (first ▸ reported.flushes)
  rw [← first] at taken
  refine ⟨reported.nexts, reported.readies, reported.starts, suffix,
    reported.closes, ?_, ?_⟩
  · rw [← reported.late]
    simp only [Script.timesOut, Script.given, taken, any_snoc]
    ac_rfl
  · rw [← reported.failed]
    simp only [Script.fails, Script.given, taken, any_snoc]
    ac_rfl

theorem closed (reported : Reported script left late failed)
    {answer : Poll (Except (SinkTimeoutError ε) Unit)}
    {rest : List (Nat × Poll (Except (SinkTimeoutError ε) Unit))}
    (first : left.closes = (delay, answer) :: rest) :
    Reported script { left with closes := rest } (late || isTimeout answer)
      (failed || isFailure answer) := by
  obtain ⟨suffix, taken⟩ := spent_tail (first ▸ reported.closes)
  rw [← first] at taken
  refine ⟨reported.nexts, reported.readies, reported.starts, reported.flushes,
    suffix, ?_, ?_⟩
  · rw [← reported.late]
    simp only [Script.timesOut, Script.given, taken, any_snoc]
    ac_rfl
  · rw [← reported.failed]
    simp only [Script.fails, Script.given, taken, any_snoc]
    ac_rfl

end Reported

end Answers

section Log

variable {α ε κ : Type}

/-- The event is neither a timeout of `poll_ready` nor its consequence. -/
def Event.isCalm : Event α ε κ → Bool
  | .answered _ (.ready (.error .timeout)) => false
  | .discarded _ => false
  | _ => true

/-- The last event is that `poll_ready` has timed out with the item
buffered. -/
def TimedOut (log : List (Nat × Event α ε κ)) (item : α) : Prop :=
  ∃ time, log.getLast? = some (time, .answered item (.ready (.error .timeout)))

/-- An item is discarded right after a timeout with this item, and only
then. -/
def Discards (before : List (Nat × Event α ε κ)) (entry : Nat × Event α ε κ) :
    Prop :=
  ∀ item, entry.2 = .discarded item ↔ TimedOut before item

/-- Every timeout of `poll_ready` has cost the item that was on offer, and no
other item has been discarded. -/
structure Settled (log : List (Nat × Event α ε κ)) : Prop where
  chronicle : Chronicle Discards log
  done : ∀ item, ¬ TimedOut log item

namespace Settled

variable {log : List (Nat × Event α ε κ)} {time later : Nat}
  {event : Event α ε κ}

theorem nil : Settled ([] : List (Nat × Event α ε κ)) := by
  refine ⟨.nil, ?_⟩
  intro item timedOut
  obtain ⟨time, last⟩ := timedOut
  cases last

theorem snoc (settled : Settled log) (calm : event.isCalm = true) :
    Settled (log ++ [(time, event)]) := by
  constructor
  · apply settled.chronicle.snoc
    intro item
    constructor
    · rintro rfl
      cases calm
    · intro timedOut
      exact absurd timedOut (settled.done item)
  · intro item timedOut
    obtain ⟨moment, last⟩ := timedOut
    rw [List.getLast?_concat] at last
    cases last
    cases calm

theorem discard (settled : Settled log) (item : α) :
    Settled (log ++ [(time, .answered item (.ready (.error .timeout)))] ++
      [(later, .discarded item)]) := by
  constructor
  · apply Chronicle.snoc
    · apply settled.chronicle.snoc
      intro other
      constructor
      · intro equality
        cases equality
      · intro timedOut
        exact absurd timedOut (settled.done other)
    · intro other
      constructor
      · intro equality
        cases equality
        exact ⟨time, List.getLast?_concat⟩
      · intro timedOut
        obtain ⟨moment, last⟩ := timedOut
        rw [List.getLast?_concat] at last
        cases last
        rfl
  · intro other timedOut
    obtain ⟨moment, last⟩ := timedOut
    rw [List.getLast?_concat] at last
    cases last

end Settled

/-- Something has been asked for after the last discarded item. -/
def Onward (log : List (Nat × Event α ε κ)) : Prop :=
  ∀ entry, log.getLast? = some entry → entry.2.discarded? = none

theorem Onward.of_last {log : List (Nat × Event α ε κ)} {time : Nat}
    {event : Event α ε κ} (last : log.getLast? = some (time, event))
    (kept : event.discarded? = none) : Onward log := by
  intro entry equality
  rw [last] at equality
  cases equality
  exact kept

end Log

section Polls

variable {α ε β : Type}

/-- The future over a sink that answers from the script. -/
abbrev Scripted (α ε : Type) := ForwardWithTimeout Unit α ε (SinkTimeoutError ε)

/-- The sink is set or not, and the answers so far have reported what the
flags say. -/
structure Goes (script : Script α ε (SinkTimeoutError ε))
    (late failed isSet : Bool) (this : Scripted α ε) : Prop where
  sink : this.sink = isSet
  settled : Settled this.world.log
  reported : Reported script this.world.script late failed

/-- How a poll comes out, of which `late` and `failed` have been reported
before. -/
inductive Polled (script : Script α ε (SinkTimeoutError ε))
    (late failed : Bool) : Except Stop (Forwarded ε) → Scripted α ε → Prop where
  | pending {this : Scripted α ε} (goes : Goes script late failed true this)
      (onward : Onward this.world.log) :
      Polled script late failed (.ok .pending) this
  | done {this : Scripted α ε} (goes : Goes script late failed false this)
      (closed : ∃ time, this.world.log.getLast? =
        some (time, .close (.ready (.ok ())))) :
      Polled script late failed (.ok (.ready (.ok ()))) this
  | failed {this : Scripted α ε} (goes : Goes script late true true this)
      (error : ε) :
      Polled script late failed (.ok (.ready (.error error))) this
  | panicked {this : Scripted α ε} (goes : Goes script true failed true this)
      (message : String) :
      Polled script late failed (.error (.panicked message)) this
  | silent {this : Scripted α ε} (goes : Goes script late failed true this)
      (stop : Stop) (quiet : ∀ message, stop ≠ .panicked message) :
      Polled script late failed (.error stop) this

variable {script : Script α ε (SinkTimeoutError ε)} {late failed : Bool}

namespace Goes

variable {isSet : Bool} {this : Scripted α ε}

/-- A calm event has been logged, and the script is shorter by an answer. -/
theorem answer {late' failed' : Bool} {event : Event α ε (SinkTimeoutError ε)}
    {next : Scripted α ε} {time : Nat} (goes : Goes script late failed isSet this)
    (sink : next.sink = this.sink)
    (logged : next.world.log = this.world.log ++ [(time, event)])
    (calm : event.isCalm = true)
    (reported : Reported script next.world.script late' failed') :
    Goes script late' failed' isSet next := by
  refine ⟨sink.trans goes.sink, ?_, reported⟩
  rw [logged]
  exact goes.settled.snoc calm

theorem note {event : Event α ε (SinkTimeoutError ε)}
    (goes : Goes script late failed isSet this) (calm : event.isCalm = true) :
    Goes script late failed isSet
      { this with world := this.world.record 0 event } :=
  goes.answer rfl rfl calm goes.reported

end Goes

namespace ForwardWithTimeout

abbrev Polls (script : Script α ε (SinkTimeoutError ε)) (late failed : Bool)
    (pre : Scripted α ε → Prop)
    (code : ForwardM Unit α ε (SinkTimeoutError ε) (Forwarded ε)) : Prop :=
  Triple pre code (fun result => Polled script late failed (.ok result))
    (fun stop => Polled script late failed (.error stop))

/-- A call on the sink that is answered from a part of the script. -/
theorem onSink_call_triple {stop : Stop}
    {event : β → Event α ε (SinkTimeoutError ε)}
    {answers : Script α ε (SinkTimeoutError ε) → List (Nat × β)}
    {put : List (Nat × β) → Script α ε (SinkTimeoutError ε) →
      Script α ε (SinkTimeoutError ε)}
    {late' failed' : β → Bool} (quiet : ∀ message, stop ≠ .panicked message)
    (calm : ∀ answer, (event answer).isCalm = true)
    (report : ∀ {left delay answer rest},
      Reported script left late failed →
      answers left = (delay, answer) :: rest →
      Reported script (put rest left) (late' answer) (failed' answer)) :
    Triple (Goes script late failed true)
      (onSink (onWorld (World.call stop event answers put)))
      (fun answer after =>
        Goes script (late' answer) (failed' answer) true after ∧
        ∃ time, after.world.log.getLast? = some (time, event answer))
      (fun stop => Polled script late failed (.error stop)) := by
  apply Triple.zoom
  intro this goes
  apply Triple.zoom
  intro pair same world view
  subst same view
  unfold World.call
  cases next : answers this.world.script with
  | nil => exact .silent goes stop quiet
  | cons entry rest =>
      refine ⟨?_, _, List.getLast?_concat⟩
      exact goes.answer rfl rfl (calm _) (report goes.reported next)

theorem pollReady_goes :
    Triple (Goes script late failed true) (onSink scripted.pollReady)
      (fun answer => Goes script late (failed || isFailure answer) true)
      (fun stop => Polled script late failed (.error stop)) := by
  apply (onSink_call_triple (fun _ => Stop.noConfusion) (fun _ => rfl)
    (fun reported next => reported.ready next)).consequence
      (fun _ goes => goes)
  · intro answer after holds
    exact holds.1
  · intro stop after stopped
    exact stopped

theorem startSend_goes (item : α) :
    Triple (Goes script late failed true) (onSink (scripted.startSend item))
      (fun answer => Goes script (late || isTimeout (.ready answer))
        (failed || isFailure (.ready answer)) true)
      (fun stop => Polled script late failed (.error stop)) := by
  apply Triple.zoom
  intro this goes
  apply Triple.zoom
  intro pair same world view
  subst same view
  unfold World.startSend
  dsimp only
  cases next : (this.world.record 0 (.startSend item)).script.starts with
  | nil =>
      apply Polled.silent
      · exact goes.answer rfl rfl rfl goes.reported
      · exact fun _ => Stop.noConfusion
  | cons entry rest =>
      exact goes.answer rfl rfl rfl (goes.reported.sent next)

theorem pollNext_goes :
    Triple (Goes script late failed true) pollNext
      (fun answer => Goes script late (failed || endsInError answer) true)
      (fun stop => Polled script late failed (.error stop)) := by
  apply Triple.get_bind
  intro this goes
  by_cases isOver : this.done = true
  · rw [if_pos isOver]
    apply Triple.pure
    intro after same
    subst same
    simpa [endsInError] using goes
  · rw [if_neg isOver]
    apply Triple.bind (fun answer => Goes script late
      (failed || endsInError answer) true)
    · apply Triple.zoom
      intro state same world view
      subst same view
      unfold World.pollNext World.call
      dsimp only
      cases next : state.world.script.nexts with
      | nil => exact .silent goes _ (fun _ => Stop.noConfusion)
      | cons entry rest =>
          exact goes.answer rfl rfl rfl (goes.reported.next next)
    · intro answer
      split
      · apply Triple.modify_bind
        intro after goes
        apply Triple.pure
        intro final same
        subst same
        exact ⟨goes.sink, goes.settled, goes.reported⟩
      · exact Triple.pure (fun _ goes => goes)

theorem pending_polls (event : Event α ε (SinkTimeoutError ε))
    (kept : event.discarded? = none) :
    Polls script late failed
      (fun this => Goes script late failed true this ∧
        ∃ time, this.world.log.getLast? = some (time, event))
      (pure .pending) := by
  apply Triple.pure
  intro this holds
  obtain ⟨goes, _, last⟩ := holds
  exact .pending goes (.of_last last kept)

theorem failWith_polls (error : SinkTimeoutError ε) :
    Polls script late failed
      (Goes script (late || isTimeout (.ready (.error error)))
        (failed || isFailure (.ready (.error error))) true)
      (failWith error) := by
  cases error with
  | timeout =>
      apply Triple.throw
      intro this goes
      apply Polled.panicked
      simpa [isTimeout, isFailure] using goes
  | inner error =>
      apply Triple.pure
      intro this goes
      apply Polled.failed
      simpa [isTimeout, isFailure] using goes

theorem finish_polls :
    Polls script late failed (Goes script late failed true)
      (finish scripted) := by
  apply Triple.bind _ (onSink_call_triple (fun _ => Stop.noConfusion)
    (fun _ => rfl) (fun reported next => reported.closed next))
  intro answer
  match answer with
  | .pending =>
      refine (pending_polls (.close .pending) rfl).strengthenPre ?_
      intro this holds
      simpa [isTimeout, isFailure] using holds
  | .ready (.error error) =>
      exact (failWith_polls error).strengthenPre (fun _ holds => holds.1)
  | .ready (.ok ()) =>
      apply Triple.modify_bind
      intro this holds
      obtain ⟨goes, closed⟩ := holds
      apply Triple.pure
      intro final same
      subst same
      refine .done ⟨rfl, goes.settled, ?_⟩ closed
      simpa [isTimeout, isFailure] using goes.reported

theorem rest_polls :
    Polls script late failed (Goes script late failed true)
      (rest scripted) := by
  apply Triple.bind _ (onSink_call_triple (fun _ => Stop.noConfusion)
    (fun _ => rfl) (fun reported next => reported.flushed next))
  intro answer
  match answer with
  | .pending =>
      refine (pending_polls (.flush .pending) rfl).strengthenPre ?_
      intro this holds
      simpa [isTimeout, isFailure] using holds
  | .ready (.error error) =>
      exact (failWith_polls error).strengthenPre (fun _ holds => holds.1)
  | .ready (.ok ()) =>
      refine (pending_polls (.flush (.ready (.ok ()))) rfl).strengthenPre ?_
      intro this holds
      simpa [isTimeout, isFailure] using holds

theorem pull_polls {again : ForwardM Unit α ε (SinkTimeoutError ε) (Forwarded ε)}
    (next : Polls script late failed (Goes script late failed true) again) :
    Polls script late failed (Goes script late failed true)
      (pull scripted again) := by
  apply Triple.bind _ pollNext_goes
  intro answer
  match answer with
  | .ready (some (.error error)) =>
      apply Triple.pure
      intro this goes
      apply Polled.failed
      simpa [endsInError] using goes
  | .ready (some (.ok item)) =>
      apply Triple.modify_bind
      intro this goes
      apply next.startingAt
      refine ⟨goes.sink, goes.settled, ?_⟩
      simpa [endsInError] using goes.reported
  | .ready none =>
      apply finish_polls.strengthenPre
      intro this goes
      simpa [endsInError] using goes
  | .pending =>
      apply rest_polls.strengthenPre
      intro this goes
      simpa [endsInError] using goes

theorem send_polls {again : ForwardM Unit α ε (SinkTimeoutError ε) (Forwarded ε)}
    (next : Polls script late failed (Goes script late failed true) again)
    (item : α) :
    Polls script late failed (Goes script late failed true)
      (send scripted item again) := by
  apply Triple.modify_bind
  intro this goes
  have gone : Goes script late failed true { this with bufferedItem := none } :=
    ⟨goes.sink, goes.settled, goes.reported⟩
  apply Triple.bind _ ((startSend_goes item).startingAt gone)
  intro answer
  match answer with
  | .error error => exact failWith_polls error
  | .ok () =>
      apply (pull_polls next).strengthenPre
      intro after sent
      simpa [isTimeout, isFailure] using sent

/-- What the offer of an item comes back with. -/
inductive Taken (script : Script α ε (SinkTimeoutError ε))
    (late failed : Bool) (item : α) :
    Poll (Except (SinkTimeoutError ε) Unit) → Scripted α ε → Prop where
  | pending {this : Scripted α ε} (goes : Goes script late failed true this)
      (onward : Onward this.world.log) :
      Taken script late failed item .pending this
  | ready {this : Scripted α ε} (goes : Goes script late failed true this) :
      Taken script late failed item (.ready (.ok ())) this
  | failed {this : Scripted α ε} (goes : Goes script late true true this)
      (error : ε) :
      Taken script late failed item (.ready (.error (.inner error))) this
  | expired {this : Scripted α ε}
      (goes : Goes script late failed true (this.discard item)) :
      Taken script late failed item (.ready (.error .timeout)) this

theorem offer_goes (item : α) :
    Triple (Goes script late failed true) (offer scripted item)
      (Taken script late failed item)
      (fun stop => Polled script late failed (.error stop)) := by
  apply Triple.modify_bind
  intro this goes
  have asks : Goes script late failed true { this with
      world := this.world.elapse.record 0 (.asked item) } :=
    goes.answer rfl rfl rfl ⟨goes.reported.nexts, goes.reported.readies,
      goes.reported.starts, goes.reported.flushes, goes.reported.closes,
      goes.reported.late, goes.reported.failed⟩
  apply Triple.bind _ (pollReady_goes.startingAt asks)
  intro answer
  apply Triple.modify_bind
  intro after goes
  apply Triple.pure
  intro final noted
  subst noted
  match answer with
  | .pending =>
      refine .pending (Goes.note ?_ rfl) (.of_last List.getLast?_concat rfl)
      simpa [isFailure] using goes
  | .ready (.ok ()) =>
      apply Taken.ready
      apply Goes.note _ rfl
      simpa [isFailure] using goes
  | .ready (.error (.inner error)) =>
      apply Taken.failed
      apply Goes.note _ rfl
      simpa [isFailure] using goes
  | .ready (.error .timeout) =>
      have same : Reported script after.world.script late failed := by
        simpa [isFailure] using goes.reported
      exact .expired ⟨goes.sink, goes.settled.discard item, same⟩

theorem pollLoop_polls (fuel : Nat) :
    Polls script late failed (Goes script late failed true)
      (pollLoop scripted fuel) := by
  induction fuel with
  | zero =>
      apply Triple.throw
      intro this goes
      exact .silent goes _ (fun _ => Stop.noConfusion)
  | succ fuel induction =>
      apply Triple.get_bind
      intro this goes
      cases this.bufferedItem with
      | none => exact (pull_polls induction).startingAt goes
      | some item =>
          apply Triple.bind _ ((offer_goes item).startingAt goes)
          intro answer
          apply Triple.of_forall
          intro after taken
          cases taken with
          | pending goes onward =>
              apply Triple.pure
              intro final same
              subst same
              exact .pending goes onward
          | ready goes => exact (send_polls induction item).startingAt goes
          | failed goes error =>
              apply Triple.pure
              intro final same
              subst same
              exact .failed goes error
          | expired goes =>
              apply Triple.modify_bind
              intro final same
              subst same
              exact induction.startingAt goes

theorem poll_polls :
    Polls script late failed (Goes script late failed true)
      (poll scripted) := by
  intro this goes
  unfold poll
  rw [if_pos goes.sink]
  exact pollLoop_polls _ this goes

end ForwardWithTimeout

end Polls

section Runs

variable {σ α ε κ : Type}

open ForwardWithTimeout

namespace ForwardWithTimeout

/-- Poll the future until it is ready, but no more than so many times. -/
def pollToEnd (si : Sink σ (World α ε κ) α (SinkTimeoutError ε)) :
    Nat → ForwardM σ α ε κ (Forwarded ε)
  | 0 => return .pending
  | polls + 1 => do
      match ← poll si with
      | .pending => pollToEnd si polls
      | .ready res => return .ready res

end ForwardWithTimeout

/-- The future over a sink that answers from the script, as the stream does. -/
def serving (script : Script α ε (SinkTimeoutError ε)) (clock : Nat) :
    Scripted α ε :=
  .new () { script := script, clock := clock, log := [] }

/-- Timeouts have cost items and nothing else.  The run goes on after a
discarded item, and it waits for an answer or has ended for another reason: an
error which is no timeout has been reported, or the sink is closed. -/
structure OnlyDiscards (script : Script α ε (SinkTimeoutError ε))
    (comes : Except Stop (Forwarded ε)) (this : Scripted α ε) : Prop where
  calm : ∀ stop, comes = .error stop → stop.isCall = true
  onward : comes = .ok .pending → Onward this.world.log
  failed : ∀ error, comes = .ok (.ready (.error error)) →
    (script.given this.world.script).fails = true
  closed : comes = .ok (.ready (.ok ())) →
    ∃ time, this.world.log.getLast? = some (time, .close (.ready (.ok ())))
  settled : Settled this.world.log

theorem onward_serving (script : Script α ε (SinkTimeoutError ε))
    (clock : Nat) : Onward (serving script clock).world.log := by
  intro entry last
  cases last

theorem Goes.serving (script : Script α ε (SinkTimeoutError ε)) (clock : Nat) :
    Goes script false false true (serving script clock) :=
  ⟨rfl, .nil, .start script⟩

theorem apart_scripted :
    Apart (scripted : Sink Unit (World α ε (SinkTimeoutError ε)) α
      (SinkTimeoutError ε)) := by
  constructor
  · exact Keeps.call _ _ Stop.noConfusion (fun _ _ => rfl)
  · intro item
    exact Keeps.startSend item
  · exact Keeps.call _ _ Stop.noConfusion (fun _ _ => rfl)
  · exact Keeps.call _ _ Stop.noConfusion (fun _ _ => rfl)

theorem pollToEnd_ends {si : Sink σ (World α ε κ) α (SinkTimeoutError ε)}
    (apart : Apart si) (polls : Nat) :
    Ends (fun _ => True) (pollToEnd si polls) := by
  induction polls with
  | zero => exact Triple.pure (fun _ _ => trivial)
  | succ polls induction =>
      apply Triple.bind _ (poll_ends apart _)
      intro result
      cases result with
      | pending => exact induction
      | ready res => exact Triple.pure (fun _ _ => trivial)

theorem ForwardWithTimeout.Ends.outcome {β : Type}
    {pre : ForwardWithTimeout σ α ε κ → Prop} {code : ForwardM σ α ε κ β}
    {start : ForwardWithTimeout σ α ε κ} (ends : Ends pre code)
    (entered : pre start) : outcome code start ≠ .error .horizon := by
  have holds := ends start entered
  unfold Lib.outcome
  cases result : code start with
  | ok value final => exact fun equality => by cases equality
  | error call final =>
      rw [result] at holds
      intro equality
      exact holds (Except.error.inj equality)

theorem pollToEnd_polls {script : Script α ε (SinkTimeoutError ε)}
    {late failed : Bool} (polls : Nat) :
    Polls script late failed
      (fun this => Goes script late failed true this ∧ Onward this.world.log)
      (pollToEnd scripted polls) := by
  induction polls with
  | zero => exact Triple.pure (fun _ holds => .pending holds.1 holds.2)
  | succ polls induction =>
      apply Triple.bind _ (poll_polls.strengthenPre (fun _ holds => holds.1))
      intro result
      cases result with
      | pending =>
          apply induction.strengthenPre
          intro this polled
          cases polled with
          | pending goes onward => exact ⟨goes, onward⟩
      | ready res => exact Triple.pure (fun _ polled => polled)

theorem Polled.onlyDiscards {script : Script α ε (SinkTimeoutError ε)}
    {comes : Except Stop (Forwarded ε)} {this : Scripted α ε}
    (polled : Polled script false false comes this)
    (ends : comes ≠ .error .horizon) :
    OnlyDiscards script comes this ↔
      (script.given this.world.script).timesOut = false := by
  cases polled with
  | pending goes onward =>
      rw [goes.reported.late]
      refine iff_of_true ⟨?_, fun _ => onward, ?_, ?_, goes.settled⟩ rfl
      · exact fun _ equality => by cases equality
      · exact fun _ equality => by cases equality
      · exact fun equality => by cases equality
  | done goes closed =>
      rw [goes.reported.late]
      refine iff_of_true ⟨?_, ?_, ?_, fun _ => closed, goes.settled⟩ rfl
      · exact fun _ equality => by cases equality
      · exact fun equality => by cases equality
      · exact fun _ equality => by cases equality
  | failed goes error =>
      rw [goes.reported.late]
      refine iff_of_true ⟨?_, ?_, fun _ _ => goes.reported.failed, ?_,
        goes.settled⟩ rfl
      · exact fun _ equality => by cases equality
      · exact fun equality => by cases equality
      · exact fun equality => by cases equality
  | panicked goes message =>
      rw [goes.reported.late]
      refine iff_of_false ?_ Bool.noConfusion
      intro only
      cases only.calm _ rfl
  | silent goes stop quiet =>
      rw [goes.reported.late]
      refine iff_of_true ⟨?_, ?_, ?_, ?_, goes.settled⟩ rfl
      · intro other equality
        cases equality
        cases stop with
        | horizon => exact absurd rfl ends
        | panicked message => exact absurd rfl (quiet message)
        | _ => rfl
      · exact fun equality => by cases equality
      · exact fun _ equality => by cases equality
      · exact fun equality => by cases equality

/-- For every sink, every stream and every number of polls up to the first
`Ready`, no poll panics and timeouts only discard items exactly if the sink
reports no timeout from `start_send`, `poll_flush` or `poll_close`. -/
theorem forwarding_only_discards_iff (script : Script α ε (SinkTimeoutError ε))
    (clock polls : Nat) :
    OnlyDiscards script (outcome (pollToEnd scripted polls)
        (serving script clock))
      (halt (pollToEnd scripted polls) (serving script clock)) ↔
    (script.given (halt (pollToEnd scripted polls)
      (serving script clock)).world.script).timesOut = false := by
  have polled := (pollToEnd_polls polls).outcome
    ⟨Goes.serving script clock, onward_serving script clock⟩
  apply polled.onlyDiscards
  exact (pollToEnd_ends apart_scripted polls).outcome trivial

/-- The sink takes the item into a buffer, which times out when it is
flushed. -/
def lateFlush : Script Nat Unit (SinkTimeoutError Unit) :=
  { nexts := [(0, .ready (some (.ok 7))), (1, .pending)]
    readies := [(0, .ready (.ok ()))]
    starts := [(0, .ok ())]
    flushes := [(10, .ready (.error .timeout))]
    closes := []
    sleeps := []
    pauses := [] }

theorem late_timeout_panics :
    outcome (pollToEnd scripted 1) (serving lateFlush 0) = .error
      (.panicked "called `Option::unwrap()` on a `None` value") ∧
    ¬ OnlyDiscards lateFlush
      (outcome (pollToEnd scripted 1) (serving lateFlush 0))
      (halt (pollToEnd scripted 1) (serving lateFlush 0)) := by
  have panics : outcome (pollToEnd scripted 1) (serving lateFlush 0) = .error
      (.panicked "called `Option::unwrap()` on a `None` value") := rfl
  refine ⟨panics, ?_⟩
  intro only
  cases only.calm _ panics

end Runs

section Termination

variable {σ α ε κ : Type}

open ForwardWithTimeout

/-- The poll has returned `Ready`. -/
def isReady : Except Stop (Forwarded ε) → Bool
  | .ok (.ready _) => true
  | _ => false

namespace ForwardWithTimeout

/-- Poll the future so many times, whatever comes of it: whether a poll has
returned `Ready`, and the future after the last one. -/
def watch (si : Sink σ (World α ε κ) α (SinkTimeoutError ε))
    (start : ForwardWithTimeout σ α ε κ) :
    Nat → Bool × ForwardWithTimeout σ α ε κ
  | 0 => (false, start)
  | polls + 1 =>
      let (ready, this) := watch si start polls
      (ready || isReady (outcome (poll si) this), halt (poll si) this)

/-- At any time, `is_terminated` says whether a poll has returned `Ready`. -/
def IsFused (si : Sink σ (World α ε κ) α (SinkTimeoutError ε))
    (start : ForwardWithTimeout σ α ε κ) (polls : Nat) : Prop :=
  ∀ before ≤ polls,
    (watch si start before).2.isTerminated = (watch si start before).1

theorem isFused_succ {si : Sink σ (World α ε κ) α (SinkTimeoutError ε)}
    {start : ForwardWithTimeout σ α ε κ} {polls : Nat} :
    IsFused si start (polls + 1) ↔ IsFused si start polls ∧
      (watch si start (polls + 1)).2.isTerminated =
        (watch si start (polls + 1)).1 := by
  constructor
  · intro fused
    refine ⟨?_, fused _ (Nat.le_refl _)⟩
    intro before earlier
    exact fused before (Nat.le_succ_of_le earlier)
  · intro premise before earlier
    rcases Nat.le_succ_iff.mp earlier with old | rfl
    · exact premise.1 before old
    · exact premise.2

end ForwardWithTimeout

variable {script : Script α ε (SinkTimeoutError ε)} {late failed : Bool}

/-- A poll unsets the sink exactly if it returns `Ready` without a failure. -/
theorem Polled.goes {comes : Except Stop (Forwarded ε)} {this : Scripted α ε}
    (polled : Polled script late failed comes this) :
    ∃ late' failed' isSet, Goes script late' failed' isSet this ∧
      (failed' = false ↔ failed = false ∧ isSet = !isReady comes) := by
  cases polled with
  | pending goes onward => exact ⟨_, _, _, goes, by simp [isReady]⟩
  | done goes closed => exact ⟨_, _, _, goes, by simp [isReady]⟩
  | failed goes error => exact ⟨_, _, _, goes, by simp [isReady]⟩
  | panicked goes message => exact ⟨_, _, _, goes, by simp [isReady]⟩
  | silent goes stop quiet => exact ⟨_, _, _, goes, by simp [isReady]⟩

theorem poll_of_unset {this : Scripted α ε} (unset : this.sink = false) :
    outcome (poll scripted) this =
        .error (.panicked "polled `Forward` after completion") ∧
      halt (poll scripted) this = this := by
  unfold outcome halt poll
  simp [unset]

/-- A poll tells of its termination what it returns, unless it fails. -/
theorem Goes.poll {isSet : Bool} {this : Scripted α ε}
    (goes : Goes script late failed isSet this) :
    ∃ late' failed' isSet',
      Goes script late' failed' isSet' (halt (poll scripted) this) ∧
      (failed' = false ↔ failed = false ∧
        (!isSet') = (!isSet || isReady (outcome (poll scripted) this))) := by
  cases isSet with
  | false =>
      obtain ⟨panics, same⟩ := poll_of_unset goes.sink
      rw [panics, same]
      exact ⟨late, failed, false, goes, by simp⟩
  | true =>
      obtain ⟨late', failed', isSet', gone, unset⟩ :=
        (poll_polls.outcome goes).goes
      refine ⟨late', failed', isSet', gone, unset.trans ?_⟩
      generalize isReady (outcome (ForwardWithTimeout.poll scripted) this) =
        ready
      cases isSet' <;> cases ready <;> simp

theorem watch_goes (script : Script α ε (SinkTimeoutError ε))
    (clock polls : Nat) :
    ∃ late failed isSet,
      Goes script late failed isSet
        (watch scripted (serving script clock) polls).2 ∧
      (failed = false ↔ IsFused scripted (serving script clock) polls) := by
  induction polls with
  | zero =>
      refine ⟨_, _, _, Goes.serving script clock, iff_of_true rfl ?_⟩
      intro before none
      obtain rfl := Nat.le_zero.mp none
      rfl
  | succ polls induction =>
      obtain ⟨late, failed, isSet, goes, fused⟩ := induction
      obtain ⟨late', failed', isSet', gone, told⟩ := goes.poll
      refine ⟨late', failed', isSet', gone, ?_⟩
      rw [told, isFused_succ, fused]
      apply and_congr_right
      intro soFar
      have terminated : (watch scripted (serving script clock) polls).1 =
          !isSet := by
        rw [← soFar polls (Nat.le_refl _), isTerminated, goes.sink]
      rw [isTerminated, watch, gone.sink]
      dsimp only
      rw [terminated]

/-- For every stream, sink and number of polls, `is_terminated` is true from
the first `Ready` on and not before, exactly if neither the stream nor the
sink reports an error which is no timeout. -/
theorem isFused_iff (script : Script α ε (SinkTimeoutError ε))
    (clock polls : Nat) :
    IsFused scripted (serving script clock) polls ↔
      (script.given (watch scripted (serving script clock)
        polls).2.world.script).fails = false := by
  obtain ⟨late, failed, isSet, goes, fused⟩ := watch_goes script clock polls
  rw [goes.reported.failed]
  exact fused.symm

def failingStream : Script Nat Unit (SinkTimeoutError Unit) :=
  { nexts := [(0, .ready (some (.error ())))]
    readies := []
    starts := []
    flushes := []
    closes := []
    sleeps := []
    pauses := [] }

theorem ready_not_terminated :
    outcome (poll scripted) (serving failingStream 0) =
      .ok (.ready (.error ())) ∧
    (halt (poll scripted) (serving failingStream 0)).isTerminated = false ∧
    ¬ IsFused scripted (serving failingStream 0) 1 := by
  have stays : (halt (poll scripted) (serving failingStream 0)).isTerminated =
      false := rfl
  refine ⟨rfl, stays, ?_⟩
  intro fused
  have after : (halt (poll scripted) (serving failingStream 0)).isTerminated =
      true := fused 1 (Nat.le_refl 1)
  rw [stays] at after
  cases after

end Termination

end HoprUtilities.Network.Timeout
