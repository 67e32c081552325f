import HoprUtilities.Lib.Transition
import HoprUtilities.Network.TimeoutSink

/-!
# The attempts of a `TimeoutSink`

Calls on a `TimeoutSink` by any caller, with any answers of the inner sink and
any time between them.  The sink does not know its attempts: an attempt begins
with the first `poll_ready` for an item and ends when `poll_ready` is ready,
or is abandoned when the caller begins another one.  The timer knows neither.

The timers are never early, but may be late.
-/

namespace HoprUtilities.Network.Timeout

open HoprUtilities.Lib

variable {α ε : Type}

/-- A call on the sink, with the answers that it is going to get and the time
until each of them. -/
inductive SinkCall (α ε : Type) where
  | pollReady (begins : Bool) (inner : Nat × Poll (Except ε Unit))
      (timer : Nat × Poll Unit)
  | startSend (item : α) (inner : Nat × Except ε Unit)
  | pollFlush (inner : Nat × Poll (Except ε Unit))
  | pollClose (inner : Nat × Poll (Except ε Unit))
  | pause (time : Nat)

namespace SinkCall

def silence : Script α ε ε :=
  { nexts := []
    readies := []
    starts := []
    flushes := []
    closes := []
    sleeps := []
    pauses := [] }

def script : SinkCall α ε → Script α ε ε
  | .pollReady _ inner timer =>
      { silence with readies := [inner], sleeps := [timer] }
  | .startSend _ inner => { silence with starts := [inner] }
  | .pollFlush inner => { silence with flushes := [inner] }
  | .pollClose inner => { silence with closes := [inner] }
  | .pause _ => silence

end SinkCall

structure SinkAttempt (α ε : Type) where
  started : Nat
  events : List (Nat × Event α ε ε)

/-- The inner sink has been ready for an item or has flushed. -/
def Event.isProgress : Event α ε ε → Bool
  | .ready (.ready _) => true
  | .flush (.ready _) => true
  | _ => false

namespace SinkAttempt

def note (attempt : SinkAttempt α ε) (events : List (Nat × Event α ε ε)) :
    SinkAttempt α ε :=
  { attempt with events := attempt.events ++ events }

/-- The inner sink has made progress. -/
def progressed (attempt : SinkAttempt α ε) : Bool :=
  attempt.events.any fun entry => entry.2.isProgress

end SinkAttempt

/-- A caller and its sink: the attempt that is going on, and the attempts that
have timed out, each with the time at which it did. -/
structure Caller (α ε : Type) where
  sink : TimeoutSink Unit
  clock : Nat
  attempt : Option (SinkAttempt α ε)
  expired : List (Nat × SinkAttempt α ε)

namespace Caller

def initial (timeout clock : Nat) : Caller α ε :=
  { sink := .withTimeout () timeout
    clock := clock
    attempt := none
    expired := [] }

/-- The sink and the world in which a call is made. -/
def before (caller : Caller α ε) (call : SinkCall α ε) : Timed α ε ε :=
  (caller.sink, { script := call.script, clock := caller.clock, log := [] })

/-- A call is over; `attempt` is what goes on after it. -/
def after (caller : Caller α ε) (done : Timed α ε ε)
    (attempt : Option (SinkAttempt α ε)) : Caller α ε :=
  { caller with sink := done.1, clock := done.2.clock, attempt := attempt }

/-- The attempt to which a `poll_ready` belongs. -/
def polled (caller : Caller α ε) (begins : Bool) : SinkAttempt α ε :=
  match begins, caller.attempt with
  | false, some attempt => attempt
  | _, _ => { started := caller.clock, events := [] }

def step (caller : Caller α ε) (call : SinkCall α ε) : Option (Caller α ε) :=
  match call with
  | .pollReady begins _ _ =>
      match TimeoutSink.pollReady scripted (caller.before call) with
      | .error _ _ => none
      | .ok answer done =>
          if Punctual done.2.log then
            let attempt := (caller.polled begins).note done.2.log
            match answer with
            | .pending => some (caller.after done (some attempt))
            | .ready (.error .timeout) =>
                some
                  { caller.after done none with
                    expired := caller.expired ++ [(done.2.clock, attempt)] }
            | .ready _ => some (caller.after done none)
          else none
  | .startSend item _ =>
      match (TimeoutSink.sink scripted).startSend item (caller.before call) with
      | .error _ _ => none
      | .ok _ done => some (caller.after done (caller.attempt.map
          (·.note done.2.log)))
  | .pollFlush _ =>
      match (TimeoutSink.sink scripted).pollFlush (caller.before call) with
      | .error _ _ => none
      | .ok _ done => some (caller.after done (caller.attempt.map
          (·.note done.2.log)))
  | .pollClose _ =>
      match (TimeoutSink.sink scripted).pollClose (caller.before call) with
      | .error _ _ => none
      | .ok _ done => some (caller.after done (caller.attempt.map
          (·.note done.2.log)))
  | .pause time => some { caller with clock := caller.clock + time }

/-- No attempt is abandoned while it is pending, and the inner sink is not ready
in a `poll_flush` inside an attempt. -/
def steady (caller : Caller α ε) : SinkCall α ε → Bool
  | .pollReady begins _ _ => !(begins && caller.attempt.isSome)
  | .pollFlush (_, .ready _) => caller.attempt.isNone
  | _ => true

end Caller

/-- The attempt was given the whole timeout, and the inner sink has made no
progress in it. -/
def FullTimeout (timeout time : Nat) (attempt : SinkAttempt α ε) : Prop :=
  attempt.started + timeout ≤ time ∧ attempt.progressed = false

instance (timeout time : Nat) (attempt : SinkAttempt α ε) :
    Decidable (FullTimeout timeout time attempt) :=
  inferInstanceAs (Decidable (_ ∧ _))

/-- The timer that is polled when the inner sink is pending. -/
def TimeoutSink.armed (sink : TimeoutSink Unit) (clock : Nat) : Sleep :=
  sink.timer.getD { since := clock, duration := sink.timeout }

theorem pollReady_ready (caller : Caller α ε) (begins : Bool) (delay : Nat)
    (res : Except ε Unit) (timer : Nat × Poll Unit) :
    TimeoutSink.pollReady scripted
      (caller.before (.pollReady begins (delay, .ready res) timer)) =
      .ok (.ready (res.mapError .inner))
        ({ caller.sink with timer := none },
          { script := { (SinkCall.silence : Script α ε ε) with sleeps := [timer] }
            clock := caller.clock + delay
            log := [(caller.clock + delay, .ready (.ready res))] }) :=
  rfl

theorem pollReady_pending (caller : Caller α ε) (begins : Bool)
    (delay late : Nat) (answer : Poll Unit) :
    TimeoutSink.pollReady scripted
      (caller.before (.pollReady begins (delay, .pending) (late, answer))) =
      .ok
        (match answer with
          | .pending => .pending
          | .ready () => .ready (.error .timeout))
        ({ caller.sink with
            timer :=
              match answer with
              | .pending =>
                  some (caller.sink.armed (caller.clock + delay))
              | .ready () => none },
          { script := (SinkCall.silence : Script α ε ε)
            clock := caller.clock + delay + late
            log :=
              [(caller.clock + delay, .ready .pending),
                (caller.clock + delay + late,
                  .slept (caller.sink.armed (caller.clock + delay))
                    answer)] }) := by
  obtain ⟨⟨inner, timer, timeout⟩, clock, attempt, expired⟩ := caller
  cases timer <;> cases answer <;> rfl

/-- The steps of a caller, with what they do to the timer and the attempt. -/
inductive CallerStep (caller : Caller α ε) :
    SinkCall α ε → Caller α ε → Prop where
  | ready {call : SinkCall α ε} {next : Caller α ε}
      (timeout : next.sink.timeout = caller.sink.timeout)
      (timer : next.sink.timer = none) (attempt : next.attempt = none)
      (expired : next.expired = caller.expired) :
      CallerStep caller call next
  | pending {begins : Bool} {delay late : Nat} {next : Caller α ε}
      {events : List (Nat × Event α ε ε)}
      (timeout : next.sink.timeout = caller.sink.timeout)
      (timer : next.sink.timer =
        some (caller.sink.armed (caller.clock + delay)))
      (attempt : next.attempt = some ((caller.polled begins).note events))
      (idle : events.any (fun entry => entry.2.isProgress) = false)
      (expired : next.expired = caller.expired) :
      CallerStep caller (.pollReady begins (delay, .pending) (late, .pending))
        next
  | expired {begins : Bool} {delay late : Nat} {next : Caller α ε}
      {sleep : Sleep}
      (armed : sleep = caller.sink.armed (caller.clock + delay))
      (elapsed : sleep.since + sleep.duration ≤ caller.clock + delay + late)
      (timeout : next.sink.timeout = caller.sink.timeout)
      (timer : next.sink.timer = none) (attempt : next.attempt = none)
      (expired : next.expired = caller.expired ++
        [(caller.clock + delay + late,
          (caller.polled begins).note
            [(caller.clock + delay, .ready .pending),
              (caller.clock + delay + late, .slept sleep (.ready ()))])]) :
      CallerStep caller (.pollReady begins (delay, .pending) (late, .ready ()))
        next
  | other {call : SinkCall α ε} {next : Caller α ε}
      {events : List (Nat × Event α ε ε)}
      (sink : next.sink = caller.sink)
      (attempt : next.attempt = caller.attempt.map (·.note events))
      (idle : caller.attempt.isSome = true → caller.steady call = true →
        events.any (fun entry => entry.2.isProgress) = false)
      (expired : next.expired = caller.expired) :
      CallerStep caller call next

theorem SinkAttempt.note_nil (attempt : SinkAttempt α ε) :
    attempt.note [] = attempt := by
  simp [note]

theorem callerStep_of_step {caller next : Caller α ε} {call : SinkCall α ε}
    (taken : caller.step call = some next) : CallerStep caller call next := by
  cases call with
  | pollReady begins inner timer =>
      obtain ⟨delay, answer⟩ := inner
      cases answer with
      | ready res =>
          simp only [Caller.step, pollReady_ready] at taken
          split_ifs at taken
          cases res with
          | ok _ | error _ =>
              cases taken
              exact .ready rfl rfl rfl rfl
      | pending =>
          obtain ⟨late, answer⟩ := timer
          simp only [Caller.step, pollReady_pending] at taken
          split_ifs at taken with punctual
          cases answer with
          | pending =>
              cases taken
              exact .pending rfl rfl rfl rfl rfl
          | ready _ =>
              cases taken
              refine .expired rfl ?_ rfl rfl rfl rfl
              exact punctual.elapsed (List.mem_cons_of_mem _ List.mem_cons_self)
  | startSend item inner =>
      cases taken
      exact .other rfl rfl (fun _ _ => rfl) rfl
  | pollFlush inner =>
      obtain ⟨delay, answer⟩ := inner
      cases taken
      refine .other rfl rfl ?_ rfl
      intro going steady
      cases answer with
      | pending => rfl
      | ready res =>
          -- no flush is ready while an attempt is going on
          rw [Caller.steady, Option.isNone_iff_eq_none] at steady
          rw [steady] at going
          cases going
  | pollClose inner =>
      cases taken
      exact .other rfl rfl (fun _ _ => rfl) rfl
  | pause time =>
      cases taken
      have noted : caller.attempt = caller.attempt.map (·.note []) := by
        simp [SinkAttempt.note_nil]
      exact .other rfl noted (fun _ _ => rfl) rfl

/-- Every attempt that times out has had its time. -/
def KeepsPromise (timeout clock : Nat) (calls : List (SinkCall α ε)) : Prop :=
  ∀ final, run Caller.step calls (.initial timeout clock) = some final →
    ∀ entry ∈ final.expired, FullTimeout timeout entry.1 entry.2

/-- The attempt has armed the timer, and the inner sink has made no progress in
it. -/
def SinkAttempt.Owns (attempt : SinkAttempt α ε) (timer : Option Sleep) :
    Prop :=
  ∃ sleep, timer = some sleep ∧ attempt.started ≤ sleep.since ∧
    attempt.progressed = false

structure Timely (timeout : Nat) (caller : Caller α ε) : Prop where
  timeout_eq : caller.sink.timeout = timeout
  duration : ∀ sleep, caller.sink.timer = some sleep →
    sleep.duration = timeout
  waiting : ∀ attempt, caller.attempt = some attempt →
    attempt.Owns caller.sink.timer
  cleared : caller.attempt = none → caller.sink.timer = none
  expired : ∀ entry ∈ caller.expired, FullTimeout timeout entry.1 entry.2

theorem SinkAttempt.progressed_note {attempt : SinkAttempt α ε}
    {events : List (Nat × Event α ε ε)}
    (before : attempt.progressed = false)
    (idle : events.any (fun entry => entry.2.isProgress) = false) :
    (attempt.note events).progressed = false := by
  simp only [progressed, note, List.any_append, idle, Bool.or_false]
    at before ⊢
  exact before

namespace Timely

variable {timeout : Nat} {caller next : Caller α ε} {call : SinkCall α ε}

theorem initial (timeout clock : Nat) :
    Timely timeout (.initial timeout clock : Caller α ε) :=
  { timeout_eq := rfl
    duration := nofun
    waiting := nofun
    cleared := fun _ => rfl
    expired := nofun }

theorem duration_armed (timely : Timely timeout caller) (clock : Nat) :
    (caller.sink.armed clock).duration = timeout := by
  unfold TimeoutSink.armed
  cases set : caller.sink.timer with
  | none => exact timely.timeout_eq
  | some sleep => exact timely.duration sleep set

/-- The timer that a `poll_ready` finds or creates is not older than the attempt
it belongs to: one that was left over has been cleared before the attempt
began. -/
theorem polled_owns (timely : Timely timeout caller) {begins : Bool}
    {inner : Nat × Poll (Except ε Unit)} {timer : Nat × Poll Unit}
    (steady : caller.steady (.pollReady begins inner timer) = true)
    (delay : Nat) :
    (caller.polled begins).Owns
      (some (caller.sink.armed (caller.clock + delay))) := by
  refine ⟨_, rfl, ?_⟩
  cases going : caller.attempt with
  | none =>
      -- the timer is created by this call
      have unset := timely.cleared going
      have began : caller.polled begins =
          { started := caller.clock, events := [] } := by
        cases begins <;> simp [Caller.polled, going]
      rw [began, TimeoutSink.armed, unset]
      exact ⟨Nat.le_add_right _ _, rfl⟩
  | some attempt =>
      have continues : begins = false := by
        simpa [Caller.steady, going] using steady
      obtain ⟨sleep, set, begun, idle⟩ := timely.waiting attempt going
      have same : caller.polled begins = attempt := by
        simp [Caller.polled, continues, going]
      rw [same, TimeoutSink.armed, set]
      exact ⟨begun, idle⟩

theorem step (timely : Timely timeout caller)
    (taken : restrict Caller.steady Caller.step caller call = some next) :
    Timely timeout next := by
  obtain ⟨steady, stepped⟩ := step_of_restrict taken
  cases callerStep_of_step stepped with
  | ready timeout timer attempt expired =>
      exact
        { timeout_eq := timeout.trans timely.timeout_eq
          duration := by simp [timer]
          waiting := by simp [attempt]
          cleared := fun _ => timer
          expired := by rw [expired]; exact timely.expired }
  | @pending begins delay late _ events timeout timer attempt idle expired =>
      refine ⟨timeout.trans timely.timeout_eq, ?_, ?_, ?_, ?_⟩
      · intro sleep set
        rw [timer] at set
        cases set
        exact timely.duration_armed _
      · intro going continues
        rw [attempt] at continues
        cases continues
        rw [timer]
        obtain ⟨sleep, set, begun, before⟩ := timely.polled_owns steady delay
        exact ⟨sleep, set, begun, SinkAttempt.progressed_note before idle⟩
      · simp [attempt]
      · rw [expired]
        exact timely.expired
  | @expired begins delay late _ sleep armed elapsed timeout timer attempt
      expired =>
      refine ⟨timeout.trans timely.timeout_eq, by simp [timer],
        by simp [attempt], fun _ => timer, ?_⟩
      rw [expired]
      intro entry member
      rcases List.mem_append.mp member with old | new
      · exact timely.expired entry old
      · rw [List.mem_singleton.mp new]
        obtain ⟨_, set, begun, before⟩ := timely.polled_owns steady delay
        cases set
        rw [armed, timely.duration_armed] at elapsed
        refine ⟨?_, SinkAttempt.progressed_note before rfl⟩
        exact Nat.le_trans (Nat.add_le_add_right begun _) elapsed
  | other sink attempt idle expired =>
      refine ⟨?_, ?_, ?_, ?_, ?_⟩
      · rw [sink]
        exact timely.timeout_eq
      · rw [sink]
        exact timely.duration
      · intro noted continues
        rw [attempt, Option.map_eq_some_iff] at continues
        obtain ⟨going, current, rfl⟩ := continues
        obtain ⟨sleep, set, begun, before⟩ := timely.waiting going current
        rw [sink]
        refine ⟨sleep, set, begun, SinkAttempt.progressed_note before ?_⟩
        exact idle (by rw [current]; rfl) steady
      · intro ended
        rw [attempt, Option.map_eq_none_iff] at ended
        rw [sink]
        exact timely.cleared ended
      · rw [expired]
        exact timely.expired

end Timely

/-- As long as no attempt begins while another one is pending, and no
`poll_flush` is ready inside an attempt, no attempt times out early. -/
theorem keepsPromise (timeout clock : Nat) (calls : List (SinkCall α ε))
    (last : Caller α ε)
    (ran : run (restrict Caller.steady Caller.step) calls
      (.initial timeout clock) = some last) :
    KeepsPromise timeout clock calls := by
  have timely : Timely timeout last :=
    run_invariant (fun _ _ _ taken timely => timely.step taken) ran
      (.initial timeout clock)
  intro final ended
  rw [run_of_restrict ran] at ended
  cases ended
  exact timely.expired

/-- A caller that polls until the sink gives up. -/
def patient : List (SinkCall Nat Unit) :=
  [.pollReady true (1, .pending) (0, .pending), .pause 10,
    .pollReady false (0, .pending) (0, .ready ())]

theorem keepsPromise_patient :
    (run (restrict Caller.steady Caller.step) patient
      (.initial 10 0)).any (fun final => final.expired.length == 1) = true ∧
    KeepsPromise 10 0 patient := by
  have ended : (run (restrict Caller.steady Caller.step) patient
      (.initial 10 0)).any (fun final => final.expired.length == 1) = true := by
    decide
  obtain ⟨last, ran, _⟩ := exists_run _ ended
  exact ⟨ended, keepsPromise 10 0 patient last ran⟩

/-- The first attempt is abandoned, the second one begins nine later. -/
def abandoned : List (SinkCall Nat Unit) :=
  [.pollReady true (0, .pending) (0, .pending), .pause 9,
    .pollReady true (0, .pending) (0, .pending), .pause 1,
    .pollReady false (0, .pending) (0, .ready ())]

/-- The inner sink flushes in the middle of an attempt. -/
def flushing : List (SinkCall Nat Unit) :=
  [.pollReady true (0, .pending) (0, .pending), .pause 9,
    .pollFlush (0, .ready (.ok ())), .pause 1,
    .pollReady false (0, .pending) (0, .ready ())]

theorem not_keepsPromise {timeout clock : Nat} {calls : List (SinkCall α ε)}
    (broken : (run Caller.step calls (.initial timeout clock)).any
      (fun final => final.expired.any fun entry =>
        !decide (FullTimeout timeout entry.1 entry.2)) = true) :
    ¬ KeepsPromise timeout clock calls := by
  intro kept
  obtain ⟨final, ran, expired⟩ := exists_run _ broken
  obtain ⟨entry, member, early⟩ := List.any_eq_true.mp expired
  simp [kept final ran entry member] at early

/-- After an abandoned attempt the next one times out after one of ten, and an
attempt times out although the inner sink has flushed one before. -/
theorem attempts_cut_short :
    ¬ KeepsPromise 10 0 abandoned ∧ ¬ KeepsPromise 10 0 flushing :=
  ⟨not_keepsPromise (by decide), not_keepsPromise (by decide)⟩

end HoprUtilities.Network.Timeout
