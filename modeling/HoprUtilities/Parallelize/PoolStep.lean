import Mathlib.Data.List.Forall2
import HoprUtilities.Lib.Threads
import HoprUtilities.Parallelize.Pool

/-!
# What a step of the pool can do

`ThreadStep` lists the steps of a call, with the guards under which they are
taken, and the rules at the end of this module carry a property of all calls
through a step of the machine.  Every invariant of the pool is proved by going
through the constructors and never unfolds a step function again.
-/

namespace HoprUtilities.Parallelize

open HoprUtilities.Lib

variable {α π : Type}

/-- The steps of `admit_decode` that touch neither the counters nor a
listener. -/
inductive AdmitMove (statics : Statics) : AdmitPc → AdmitPc → Prop where
  | loadPoolThreads :
      AdmitMove statics .loadPoolThreads
        (.checkPassthrough statics.poolThreadCount)
  | startsPassthrough (poolThreads : Nat) :
      AdmitMove statics (.checkPassthrough poolThreads) .passThrough
  | starts (poolThreads : Nat) :
      AdmitMove statics (.checkPassthrough poolThreads)
        (.checkEnabled poolThreads)
  | disabled (poolThreads : Nat) :
      AdmitMove statics (.checkEnabled poolThreads) .passThrough
  | enabled (poolThreads : Nat) :
      AdmitMove statics (.checkEnabled poolThreads)
        (.loadOccupancy poolThreads)
  | loadOccupancy (poolThreads : Nat) :
      AdmitMove statics (.loadOccupancy poolThreads)
        (.loadReserve poolThreads statics.settings.occupancyPct)
  | loadReserve (poolThreads occupancyPct : Nat) :
      AdmitMove statics (.loadReserve poolThreads occupancyPct)
        (.tryReserve
          { poolThreads := poolThreads
            occupancyPct := occupancyPct
            reservePct := statics.settings.encodeReservePct } .loadDec)
  | tryNext {gate : Gate} {pc after : TryPc}
      (step : TryStep gate statics.counters pc (.next after)) :
      AdmitMove statics (.tryReserve gate pc) (.tryReserve gate after)
  | tryRefused {gate : Gate} {pc : TryPc}
      (step : TryStep gate statics.counters pc (.returned false)) :
      AdmitMove statics (.tryReserve gate pc) (.listen gate)
  | stillDisabled (gate : Gate) :
      AdmitMove statics (.recheckEnabled gate) .passThrough
  | stillEnabled {gate : Gate} (enabled : statics.settings.enabled = true) :
      AdmitMove statics (.recheckEnabled gate) (.retryReserve gate .loadDec)
  | retryNext {gate : Gate} {pc after : TryPc}
      (step : TryStep gate statics.counters pc (.next after)) :
      AdmitMove statics (.retryReserve gate pc) (.retryReserve gate after)
  | retryRefused {gate : Gate} {pc : TryPc}
      (step : TryStep gate statics.counters pc (.returned false)) :
      AdmitMove statics (.retryReserve gate pc) (.await gate)

/-- The steps of `admit_decode` that raise `DECODE_OUTSTANDING`. -/
inductive Reserves (statics : Statics) : AdmitPc → Prop where
  | tryReserve {gate : Gate} {pc : TryPc}
      (step : TryStep gate statics.counters pc (.returned true)) :
      Reserves statics (.tryReserve gate pc)
  | retryReserve {gate : Gate} {pc : TryPc}
      (step : TryStep gate statics.counters pc (.returned true)) :
      Reserves statics (.retryReserve gate pc)
  | passThrough : Reserves statics .passThrough

/-- What a received result makes of a call. -/
def Finish.ofResult : Except π α → Finish α π
  | .ok value => .returned value
  | .error panic => .resumed panic

inductive TaskStep (counters : Counters) (f : Except π α) (task : Task α π) :
    Counters → Task α π → Signal → Prop where
  | skip (place : task.pc = .queued) (gone : task.receiverDropped = true) :
      TaskStep counters f task counters
        { task.note [.checked, .cancelled] with pc := .releaseSlot } .silent
  | start (place : task.pc = .queued) (alive : task.receiverDropped = false) :
      TaskStep counters f task counters
        { task.note [.checked] with pc := .enterRunning } .silent
  | enterRunning (place : task.pc = .enterRunning) :
      TaskStep counters f task (counters.fetchAdd .running)
        { task with pc := .execute } .silent
  | execute (place : task.pc = .execute) :
      TaskStep counters f task counters
        { task.note [.executed] with pc := .send f } .silent
  | orphan {result : Except π α} (place : task.pc = .send result)
      (gone : task.receiverDropped = true) :
      TaskStep counters f task counters
        { task.note [.orphaned] with
          pc := .leaveRunning
          senderDropped := true } .silent
  | complete {result : Except π α} (place : task.pc = .send result)
      (alive : task.receiverDropped = false) :
      TaskStep counters f task counters
        { task.note [.completed] with
          pc := .leaveRunning
          senderDropped := true
          data := some result } .silent
  | leaveRunning (place : task.pc = .leaveRunning) :
      TaskStep counters f task (counters.fetchSub .running)
        { task with pc := .notifyRunning } .silent
  | notifyRunning (place : task.pc = .notifyRunning) :
      TaskStep counters f task counters
        { task with pc := .releaseSlot } (.notify true)
  | releaseSlot (place : task.pc = .releaseSlot) :
      TaskStep counters f task (counters.fetchSub .outstanding)
        { task with pc := .finished, senderDropped := true } .silent

theorem taskStep_iff {counters after : Counters} {f : Except π α}
    {task next : Task α π} {signal : Signal} :
    taskStep counters f task = some (after, next, signal) ↔
      TaskStep counters f task after next signal := by
  constructor
  · intro taken
    unfold taskStep at taken
    split at taken
    · next place =>
        split_ifs at taken with gone
        · cases taken
          exact .skip place gone
        · cases taken
          exact .start place (by simpa using gone)
    · next place =>
        cases taken
        exact .enterRunning place
    · next place =>
        cases taken
        exact .execute place
    · next result place =>
        split_ifs at taken with gone
        · cases taken
          exact .orphan place gone
        · cases taken
          exact .complete place (by simpa using gone)
    · next place =>
        cases taken
        exact .leaveRunning place
    · next place =>
        cases taken
        exact .notifyRunning place
    · next place =>
        cases taken
        exact .releaseSlot place
    · cases taken
  · intro step
    cases step with
    | skip place gone | orphan place gone => simp [taskStep, place, gone]
    | start place alive | complete place alive =>
        simp [taskStep, place, alive]
    | enterRunning place | execute place | leaveRunning place
    | notifyRunning place | releaseSlot place => simp [taskStep, place]

/-- The steps of a call: of the polled future, of its cancellation, and of its
closure. -/
inductive ThreadStep (statics : Statics) (call : Call α π) :
    Counters → Call α π → Signal → Prop where
  | encodeEnter (place : call.pc = .encodeEnter) :
      ThreadStep statics call
        (statics.counters.fetchAdd .encodeOutstanding)
        (call.goto .acquireSlot) .silent
  | evaluate {pc after : AdmitPc} (place : call.pc = .admission pc)
      (move : AdmitMove statics pc after) :
      ThreadStep statics call statics.counters (call.admitGoto after) .silent
  | reserve {pc : AdmitPc} (place : call.pc = .admission pc)
      (reserves : Reserves statics pc) :
      ThreadStep statics call
        (statics.counters.fetchAdd .decodeOutstanding)
        (call.admitGoto .leave) .silent
  | listen {gate : Gate} (place : call.pc = .admission (.listen gate)) :
      ThreadStep statics call statics.counters
        ((call.setListener (some .waiting)).admitGoto (.recheckEnabled gate))
        .silent
  | park {gate : Gate} (place : call.pc = .admission (.await gate))
      (unnotified : call.isNotified = false) :
      ThreadStep statics call statics.counters
        (call.admitGoto (.parked gate statics.counters)) .silent
  | wake {gate : Gate}
      (place : call.pc = .admission (.await gate) ∨
        ∃ seen, call.pc = .admission (.parked gate seen))
      (notified : call.isNotified = true) :
      ThreadStep statics call statics.counters
        (call.dropListener.admitGoto (.checkEnabled gate.poolThreads)) .silent
  | leave (place : call.pc = .admission .leave) :
      ThreadStep statics call statics.counters
        (call.dropListener.goto .acquireSlot) call.handOn
  | accept (place : call.pc = .acquireSlot)
      (room : ∀ limit, statics.queueLimit = some limit →
        statics.counters .outstanding + 1 ≤ limit) :
      ThreadStep statics call (statics.counters.fetchAdd .outstanding)
        (call.goto .submit) .silent
  | reject {limit : Nat} (place : call.pc = .acquireSlot)
      (limited : statics.queueLimit = some limit)
      (full : limit < statics.counters .outstanding + 1) :
      ThreadStep statics call (statics.counters.fetchAdd .outstanding)
        (call.goto (.rejectSlot (statics.counters .outstanding) limit)) .silent
  | returnSlot {current limit : Nat}
      (place : call.pc = .rejectSlot current limit) :
      ThreadStep statics call (statics.counters.fetchSub .outstanding)
        (call.close (.queueFull current limit)) .silent
  | submit (place : call.pc = .submit) :
      ThreadStep statics call statics.counters
        ((call.goto .await).setTask Task.submitted) .silent
  | receive {task : Task α π} {result : Except π α}
      (place : call.pc = .await) (submitted : call.task = some task)
      (sent : task.data = some result) :
      ThreadStep statics call statics.counters
        ((call.close (Finish.ofResult result)).setTask
          { task with data := none }) .silent
  | channelClosed {task : Task α π}
      (place : call.pc = .await) (submitted : call.task = some task)
      (empty : task.data = none) (closed : task.senderDropped = true) :
      ThreadStep statics call statics.counters
        (call.close .channelClosed) .silent
  | dropTag {finish : Finish α π} {counter : Counter}
      (place : call.pc = .dropTag finish)
      (tagged : call.kind.tag = some counter) :
      ThreadStep statics call (statics.counters.fetchSub counter)
        (call.goto (.notifyTag finish)) .silent
  | notifyTag {finish : Finish α π} (place : call.pc = .notifyTag finish) :
      ThreadStep statics call statics.counters
        (call.goto (.finished finish)) (.notify true)
  | cancelParked {gate : Gate} {seen : Counters}
      (place : call.pc = .admission (.parked gate seen)) :
      ThreadStep statics call statics.counters
        (call.dropListener.goto (.finished .dropped)) call.handOn
  | cancelAwait {task : Task α π}
      (place : call.pc = .await) (submitted : call.task = some task) :
      ThreadStep statics call statics.counters
        ((call.close .dropped).setTask
          { task.note [.receiverDropped] with receiverDropped := true })
        .silent
  | task {task next : Task α π} {counters : Counters} {signal : Signal}
      (submitted : call.task = some task)
      (step : TaskStep statics.counters call.f task counters next signal) :
      ThreadStep statics call counters (call.setTask next) signal

theorem threadStep_of_admitStep {statics : Statics} {weak : Bool}
    {call next : Call α π} {pc : AdmitPc} {counters : Counters}
    {signal : Signal} (place : call.pc = .admission pc)
    (taken : admitStep statics weak call pc = some (counters, next, signal)) :
    ThreadStep statics call counters next signal := by
  cases pc with
  | loadPoolThreads =>
      cases taken
      exact .evaluate place .loadPoolThreads
  | checkPassthrough poolThreads =>
      cases taken
      split_ifs
      · exact .evaluate place (.startsPassthrough poolThreads)
      · exact .evaluate place (.starts poolThreads)
  | checkEnabled poolThreads =>
      cases taken
      split_ifs
      · exact .evaluate place (.disabled poolThreads)
      · exact .evaluate place (.enabled poolThreads)
  | loadOccupancy poolThreads =>
      cases taken
      exact .evaluate place (.loadOccupancy poolThreads)
  | loadReserve poolThreads occupancyPct =>
      cases taken
      exact .evaluate place (.loadReserve poolThreads occupancyPct)
  | tryReserve gate pc =>
      have step := tryStep_tryReserveDecode gate statics.counters weak pc
      simp only [admitStep, Option.some.injEq, Prod.mk.injEq] at taken
      obtain ⟨rfl, rfl, rfl⟩ := taken
      generalize tryReserveDecode gate statics.counters weak pc = move at step
      match move with
      | .next after => exact .evaluate place (.tryNext step)
      | .returned false => exact .evaluate place (.tryRefused step)
      | .returned true => exact .reserve place (.tryReserve step)
  | listen gate =>
      cases taken
      exact .listen place
  | recheckEnabled gate =>
      cases taken
      split_ifs with disabled
      · exact .evaluate place (.stillDisabled gate)
      · exact .evaluate place (.stillEnabled (by simpa using disabled))
  | retryReserve gate pc =>
      have step := tryStep_tryReserveDecode gate statics.counters weak pc
      simp only [admitStep, Option.some.injEq, Prod.mk.injEq] at taken
      obtain ⟨rfl, rfl, rfl⟩ := taken
      generalize tryReserveDecode gate statics.counters weak pc = move at step
      match move with
      | .next after => exact .evaluate place (.retryNext step)
      | .returned false => exact .evaluate place (.retryRefused step)
      | .returned true => exact .reserve place (.retryReserve step)
  | await gate =>
      simp only [admitStep] at taken
      split_ifs at taken with notified
      · cases taken
        exact .wake (.inl place) notified
      · cases taken
        exact .park place (by simpa using notified)
  | parked gate seen =>
      simp only [admitStep] at taken
      split_ifs at taken with notified
      cases taken
      exact .wake (.inr ⟨seen, place⟩) notified
  | passThrough =>
      cases taken
      exact .reserve place .passThrough
  | leave =>
      cases taken
      exact .leave place

theorem threadStep_of_callStep {statics : Statics} {weak : Bool}
    {call next : Call α π} {counters : Counters} {signal : Signal}
    (taken : callStep statics weak call = some (counters, next, signal)) :
    ThreadStep statics call counters next signal := by
  unfold callStep at taken
  split at taken
  · next place =>
      cases taken
      exact .encodeEnter place
  · next pc place => exact threadStep_of_admitStep place taken
  · next place =>
      simp only [Option.some.injEq, Prod.mk.injEq] at taken
      obtain ⟨rfl, rfl, rfl⟩ := taken
      split
      · next limit limited =>
          split_ifs with full
          · exact .reject place limited full
          · refine .accept place ?_
            intro other same
            rw [limited] at same
            cases same
            omega
      · next unlimited =>
          refine .accept place ?_
          intro limit limited
          rw [unlimited] at limited
          cases limited
  · next current limit place =>
      cases taken
      exact .returnSlot place
  · next place =>
      cases taken
      exact .submit place
  · next place =>
      split at taken
      · cases taken
      · next task submitted =>
          split at taken
          · next value sent =>
              cases taken
              exact .receive place submitted sent
          · next panic sent =>
              cases taken
              exact .receive place submitted sent
          · next empty =>
              split_ifs at taken with closed
              cases taken
              exact .channelClosed place submitted empty closed
  · next finish place =>
      split at taken
      · next counter tagged =>
          cases taken
          exact .dropTag place tagged
      · cases taken
  · next finish place =>
      cases taken
      exact .notifyTag place
  · cases taken

theorem threadStep_of_cancelStep (statics : Statics) {call next : Call α π}
    {signal : Signal} (taken : cancelStep call = some (next, signal)) :
    ThreadStep statics call statics.counters next signal := by
  unfold cancelStep at taken
  split at taken
  · next gate seen place =>
      cases taken
      exact .cancelParked place
  · next place =>
      split at taken
      · cases taken
      · next task submitted =>
          cases taken
          exact .cancelAwait place submitted
  · cases taken

inductive ConfigStep (settings : Settings) (call : ConfigCall) :
    Settings → ConfigCall → Signal → Prop where
  | refused (place : call.pc = .claim)
      (configured : settings.configured = true) :
      ConfigStep settings call settings { call with pc := .finished false }
        .silent
  | claim (place : call.pc = .claim)
      (unconfigured : settings.configured = false) :
      ConfigStep settings call { settings with configured := true }
        { call with pc := ConfigCall.applyPc call.config } .silent
  | storeDisabled (place : call.pc = .storeDisabled) :
      ConfigStep settings call { settings with enabled := false }
        { call with pc := .notify } .silent
  | storeOccupancy {occupancyPct encodeReservePct : Nat}
      (place : call.pc = .storeOccupancy)
      (config : call.config = .enabled occupancyPct encodeReservePct) :
      ConfigStep settings call
        { settings with occupancyPct := clampPct occupancyPct }
        { call with pc := .storeReserve } .silent
  | storeReserve {occupancyPct encodeReservePct : Nat}
      (place : call.pc = .storeReserve)
      (config : call.config = .enabled occupancyPct encodeReservePct) :
      ConfigStep settings call
        { settings with encodeReservePct := clampPct encodeReservePct }
        { call with pc := .storeEnabled } .silent
  | storeEnabled (place : call.pc = .storeEnabled) :
      ConfigStep settings call { settings with enabled := true }
        { call with pc := .notify } .silent
  | notify (place : call.pc = .notify) :
      ConfigStep settings call settings
        { call with
          pc := if call.once then .finished true else .storeConfigured }
        .notifyAll
  | storeConfigured (place : call.pc = .storeConfigured) :
      ConfigStep settings call { settings with configured := true }
        { call with pc := .finished true } .silent

theorem configStep_of_eq_some {settings after : Settings}
    {call next : ConfigCall} {signal : Signal}
    (taken : configStep settings call = some (after, next, signal)) :
    ConfigStep settings call after next signal := by
  unfold configStep at taken
  split at taken
  · next place =>
      split_ifs at taken with configured
      · cases taken
        exact .refused place configured
      · cases taken
        exact .claim place (by simpa using configured)
  · next place =>
      cases taken
      exact .storeDisabled place
  · next place config =>
      cases taken
      exact .storeOccupancy place config
  · next place config =>
      cases taken
      exact .storeReserve place config
  · next place =>
      cases taken
      exact .storeEnabled place
  · next place =>
      cases taken
      exact .notify place
  · next place =>
      cases taken
      exact .storeConfigured place
  · cases taken

/-- A call before and after a notification: its listener may be marked. -/
def Marks (old new : Call α π) : Prop :=
  new = old ∨ ∃ additional, new = old.mark additional

theorem forall₂_marks_refl (calls : List (Call α π)) :
    List.Forall₂ Marks calls calls :=
  List.forall₂_same.mpr (fun _ _ => .inl rfl)

theorem markOne_marks {additional : Bool} {target : Nat}
    {calls after : List (Call α π)}
    (marked : markOne additional target calls = some after) :
    List.Forall₂ Marks calls after := by
  unfold markOne at marked
  split_ifs at marked with waiting
  · split at marked
    · next call current =>
        split_ifs at marked
        cases marked
        obtain ⟨inside, rfl⟩ := List.getElem?_eq_some_iff.mp current
        refine List.forall₂_iff_get.mpr ⟨by simp, ?_⟩
        intro index before after
        simp only [List.get_eq_getElem, List.getElem_set]
        split_ifs with same
        · subst same
          exact .inr ⟨additional, rfl⟩
        · exact .inl rfl
    · cases marked
  · cases marked
    exact forall₂_marks_refl calls

theorem deliver_marks {signal : Signal} {target : Nat}
    {calls after : List (Call α π)}
    (delivered : deliver signal target calls = some after) :
    List.Forall₂ Marks calls after := by
  cases signal with
  | silent =>
      cases delivered
      exact forall₂_marks_refl calls
  | notifyAll =>
      cases delivered
      exact List.forall₂_map_right_iff.mpr
        (List.forall₂_same.mpr (fun _ _ => .inr ⟨false, rfl⟩))
  | notify additional =>
      simp only [deliver] at delivered
      split_ifs at delivered
      · cases delivered
        exact forall₂_marks_refl calls
      · exact markOne_marks delivered

/-- What notifications leave alone changes with the call that moves. -/
theorem total_deliver_set (weight : Call α π → Nat)
    (unmarked : ∀ old new, Marks old new → weight new = weight old)
    {signal : Signal} {index target : Nat} {call next : Call α π}
    {calls after : List (Call α π)} (current : calls[index]? = some call)
    (delivered : deliver signal target (calls.set index next) = some after) :
    total weight after + weight call = total weight calls + weight next := by
  rw [total_of_forall₂ (deliver_marks delivered) unmarked]
  exact total_set weight next current

def Label.thread? : Label α π → Option Nat
  | .call index _ _ => some index
  | .cancel index _ => some index
  | .task index _ => some index
  | _ => none

inductive StateStep (state : State α π) :
    Label α π → State α π → Prop where
  | spawn (kind : Kind) (f : Except π α) :
      StateStep state (.spawn kind f)
        { state with calls := state.calls ++ [Call.start kind f] }
  | thread {label : Label α π} {index target : Nat}
      {call next : Call α π} {counters : Counters} {signal : Signal}
      {calls : List (Call α π)} (moves : label.thread? = some index)
      (current : state.calls[index]? = some call)
      (step : ThreadStep state.statics call counters next signal)
      (delivered :
        deliver signal target (state.calls.set index next) = some calls) :
      StateStep state label
        { state with
          statics := { state.statics with counters := counters }
          calls := calls }
  | configure (once : Bool) (config : ArbitrationConfig) :
      StateStep state (.configure once config)
        { state with
          configs := state.configs ++ [ConfigCall.start once config] }
  | config {index : Nat} {config next : ConfigCall} {settings : Settings}
      {signal : Signal} {calls : List (Call α π)}
      (current : state.configs[index]? = some config)
      (step : ConfigStep state.statics.settings config settings next signal)
      (delivered : deliver signal 0 state.calls = some calls) :
      StateStep state (.config index)
        { statics := { state.statics with settings := settings }
          calls := calls
          configs := state.configs.set index next }
  | initThreadPool (numThreads : Nat) :
      StateStep state (.initThreadPool numThreads)
        { state with
          statics := { state.statics with poolThreadCount := numThreads } }

theorem stateStep_of_update {state next : State α π} {label : Label α π}
    {index target : Nat} {call moved : Call α π} {counters : Counters}
    {signal : Signal} (moves : label.thread? = some index)
    (current : state.calls[index]? = some call)
    (step : ThreadStep state.statics call counters moved signal)
    (updated : state.update index target counters moved signal = some next) :
    StateStep state label next := by
  obtain ⟨calls, delivered, rfl⟩ := Option.map_eq_some_iff.mp updated
  exact .thread moves current step delivered

theorem stateStep_of_step {state next : State α π} {label : Label α π}
    (taken : state.step label = some next) : StateStep state label next := by
  cases label with
  | spawn kind f =>
      cases taken
      exact .spawn kind f
  | call index weak target =>
      simp only [State.step, Option.bind_eq_bind, Option.bind_eq_some_iff]
        at taken
      obtain ⟨call, current, ⟨counters, moved, signal⟩, step, updated⟩ := taken
      exact stateStep_of_update rfl current (threadStep_of_callStep step)
        updated
  | cancel index target =>
      simp only [State.step, Option.bind_eq_bind, Option.bind_eq_some_iff]
        at taken
      obtain ⟨call, current, ⟨moved, signal⟩, step, updated⟩ := taken
      exact stateStep_of_update rfl current (threadStep_of_cancelStep _ step)
        updated
  | task index target =>
      simp only [State.step, Option.bind_eq_bind, Option.bind_eq_some_iff]
        at taken
      obtain ⟨call, current, task, submitted, ⟨counters, moved, signal⟩, step,
        updated⟩ := taken
      exact stateStep_of_update rfl current
        (.task submitted (taskStep_iff.mp step)) updated
  | configure once config =>
      cases taken
      exact .configure once config
  | config index =>
      simp only [State.step, Option.bind_eq_bind, Option.bind_eq_some_iff]
        at taken
      obtain ⟨config, current, ⟨settings, moved, signal⟩, step, calls,
        delivered, ended⟩ := taken
      cases ended
      exact .config current (configStep_of_eq_some step) delivered
  | initThreadPool numThreads =>
      cases taken
      exact .initThreadPool numThreads

namespace StateStep

variable {state next : State α π} {label : Label α π}

/-- A property of single calls is kept by a step of the machine if it is kept
by the steps of the calls and by notifications. -/
theorem forall_calls {holds : Call α π → Prop}
    (spawned : ∀ kind f, holds (Call.start kind f))
    (marked : ∀ additional call, holds call → holds (call.mark additional))
    (moved : ∀ call counters after signal,
      ThreadStep state.statics call counters after signal → holds call →
      holds after)
    (step : StateStep state label next)
    (all : ∀ call ∈ state.calls, holds call) :
    ∀ call ∈ next.calls, holds call := by
  have kept : ∀ old new : Call α π, Marks old new → holds old → holds new := by
    intro old new choice held
    rcases choice with rfl | ⟨additional, rfl⟩
    · exact held
    · exact marked additional old held
  cases step with
  | spawn kind f => exact forall_concat all (spawned kind f)
  | thread moves current step delivered =>
      exact forall_of_forall₂ (deliver_marks delivered) kept
        (forall_set all
          (moved _ _ _ _ step (all _ (List.mem_of_getElem? current))))
  | configure once config => exact all
  | config current step delivered =>
      exact forall_of_forall₂ (deliver_marks delivered) kept all
  | initThreadPool numThreads => exact all

theorem call_at (step : StateStep state label next) {index : Nat}
    {call : Call α π} (current : state.calls[index]? = some call) :
    ∃ moved after, next.calls[index]? = some after ∧ Marks moved after ∧
      (moved = call ∨ ∃ counters signal,
        ThreadStep state.statics call counters moved signal) := by
  cases step with
  | spawn kind f =>
      have inside := (List.getElem?_eq_some_iff.mp current).1
      exact ⟨call, call, by rw [List.getElem?_append_left inside]; exact current,
        .inl rfl, .inl rfl⟩
  | @thread _ moving _ other moved _ _ _ moves here step delivered =>
      by_cases same : moving = index
      · subst same
        rw [here] at current
        cases current
        have inside := (List.getElem?_eq_some_iff.mp here).1
        obtain ⟨after, placed, marks⟩ :=
          getElem?_of_forall₂ (deliver_marks delivered)
            (List.getElem?_set_self inside)
        exact ⟨moved, after, placed, marks, .inr ⟨_, _, step⟩⟩
      · obtain ⟨after, placed, marks⟩ :=
          getElem?_of_forall₂ (deliver_marks delivered)
            ((List.getElem?_set_ne same).trans current)
        exact ⟨call, after, placed, marks, .inl rfl⟩
  | configure | initThreadPool =>
      exact ⟨call, call, current, .inl rfl, .inl rfl⟩
  | config _ _ delivered =>
      obtain ⟨after, placed, marks⟩ :=
        getElem?_of_forall₂ (deliver_marks delivered) current
      exact ⟨call, after, placed, marks, .inl rfl⟩

end StateStep

end HoprUtilities.Parallelize
