import HoprUtilities.Lib.Transition
import HoprUtilities.Parallelize.Arbitration

/-!
# The pool as a machine

The embedding of the spawn functions of `src/parallelize/mod.rs` and of the
asynchronous part of the arbiter.  Each atomic operation on a static, each
operation on a listener and each operation on a oneshot channel is one step,
and the steps of all threads interleave in any order.

A call of a spawn function is the caller's future and, once it is submitted,
the closure that rayon runs; the two share the channel.  `event_listener` and
the channel are modelled by their documented behaviour: which listener a
notification marks is left open.
-/

namespace HoprUtilities.Parallelize

/-- The configuration of the arbiter. -/
structure Settings where
  enabled : Bool
  occupancyPct : Nat
  encodeReservePct : Nat
  configured : Bool
  deriving DecidableEq, Repr

structure Statics where
  poolThreadCount : Nat
  queueLimit : Option Nat
  settings : Settings
  counters : Counters

/-- The initial values of the statics; `parsed` is the value of
`HOPR_CPU_TASK_QUEUE_LIMIT`, if it is set to a number. -/
def Statics.initial (parsed : Option Nat) : Statics :=
  { poolThreadCount := 0
    queueLimit := parsed.filter (0 < ·)
    settings :=
      { enabled := true
        occupancyPct := 75
        encodeReservePct := 50
        configured := false }
    counters := fun _ => 0 }

/-- What the log of a task records: the drop of the receiver, the cancellation
check, the execution of `f`, and the metric that names the outcome. -/
inductive TaskEvent where
  | receiverDropped
  | checked
  | executed
  | completed
  | cancelled
  | orphaned
  deriving DecidableEq, Repr

/-- The places of the closure of `cancellable_task`. -/
inductive TaskPc (α π : Type) where
  | queued
  | enterRunning
  | execute
  | send (result : Except π α)
  | leaveRunning
  | notifyRunning
  | releaseSlot
  | finished
  deriving DecidableEq, Repr

/-- A task with its channel.  `data` is what was sent and not yet received. -/
structure Task (α π : Type) where
  pc : TaskPc α π
  receiverDropped : Bool
  senderDropped : Bool
  data : Option (Except π α)
  log : List TaskEvent
  deriving DecidableEq, Repr

/-- A notification of `ARBITRATION_EVENT`. -/
inductive Signal where
  | silent
  | notify (additional : Bool)
  | notifyAll
  deriving DecidableEq, Repr

section Closure

variable {α π : Type}

namespace Task

def submitted : Task α π :=
  { pc := .queued
    receiverDropped := false
    senderDropped := false
    data := none
    log := [] }

def note (task : Task α π) (events : List TaskEvent) : Task α π :=
  { task with log := task.log ++ events }

end Task

/-- One step of the closure; `f` is what the caller's function does. -/
def taskStep (counters : Counters) (f : Except π α) (task : Task α π) :
    Option (Counters × Task α π × Signal) :=
  match task.pc with
  | .queued =>
      if task.receiverDropped then
        some (counters,
          { task.note [.checked, .cancelled] with pc := .releaseSlot },
          .silent)
      else
        some (counters, { task.note [.checked] with pc := .enterRunning },
          .silent)
  | .enterRunning =>
      some (counters.fetchAdd .running, { task with pc := .execute }, .silent)
  | .execute =>
      -- `catch_unwind` turns a panic of `f` into an error
      some (counters, { task.note [.executed] with pc := .send f }, .silent)
  | .send result =>
      if task.receiverDropped then
        some (counters,
          { task.note [.orphaned] with
            pc := .leaveRunning
            senderDropped := true },
          .silent)
      else
        some (counters,
          { task.note [.completed] with
            pc := .leaveRunning
            senderDropped := true
            data := some result },
          .silent)
  -- the guards are dropped in reverse order: `_running` before `_g`
  | .leaveRunning =>
      some (counters.fetchSub .running, { task with pc := .notifyRunning },
        .silent)
  | .notifyRunning =>
      some (counters, { task with pc := .releaseSlot }, .notify true)
  | .releaseSlot =>
      some (counters.fetchSub .outstanding,
        { task with pc := .finished, senderDropped := true }, .silent)
  | .finished => none

end Closure

inductive Kind where
  | blocking
  | fifoBlocking
  | encodeBlocking
  | decodeBlocking
  deriving DecidableEq, Repr

/-- The counter of the `TaggedGuard` a call holds. -/
def Kind.tag : Kind → Option Counter
  | .encodeBlocking => some .encodeOutstanding
  | .decodeBlocking => some .decodeOutstanding
  | _ => none

/-- A registered listener of `ARBITRATION_EVENT`. -/
inductive Listener where
  | waiting
  | notified (additional : Bool)
  deriving DecidableEq, Repr

/-- The places of `admit_decode`.  A parked admitter keeps the counters of the
moment at which it parked. -/
inductive AdmitPc where
  | loadPoolThreads
  | checkPassthrough (poolThreads : Nat)
  | checkEnabled (poolThreads : Nat)
  | loadOccupancy (poolThreads : Nat)
  | loadReserve (poolThreads occupancyPct : Nat)
  | tryReserve (gate : Gate) (pc : TryPc)
  | listen (gate : Gate)
  | recheckEnabled (gate : Gate)
  | retryReserve (gate : Gate) (pc : TryPc)
  | await (gate : Gate)
  | parked (gate : Gate) (seen : Counters)
  | passThrough
  | leave

inductive Finish (α π : Type) where
  | returned (value : α)
  | resumed (panic : π)
  | queueFull (current limit : Nat)
  | channelClosed
  | dropped
  deriving DecidableEq, Repr

inductive CallPc (α π : Type) where
  | encodeEnter
  | admission (pc : AdmitPc)
  | acquireSlot
  | rejectSlot (current limit : Nat)
  | submit
  | await
  | dropTag (finish : Finish α π)
  | notifyTag (finish : Finish α π)
  | finished (finish : Finish α π)

/-- A call of a spawn function; `f` is what the given function does, and
`listener` the listener `admit_decode` holds. -/
structure Call (α π : Type) where
  kind : Kind
  f : Except π α
  pc : CallPc α π
  listener : Option Listener
  task : Option (Task α π)

section Caller

variable {α π : Type}

namespace Call

def start (kind : Kind) (f : Except π α) : Call α π :=
  { kind := kind
    f := f
    pc :=
      match kind with
      | .blocking | .fifoBlocking => .acquireSlot
      | .encodeBlocking => .encodeEnter
      | .decodeBlocking => .admission .loadPoolThreads
    listener := none
    task := none }

def goto (call : Call α π) (pc : CallPc α π) : Call α π :=
  { call with pc := pc }

def admitGoto (call : Call α π) (pc : AdmitPc) : Call α π :=
  call.goto (.admission pc)

def setTask (call : Call α π) (task : Task α π) : Call α π :=
  { call with task := some task }

/-- The inner future is gone; a `TaggedGuard` is dropped next. -/
def close (call : Call α π) (finish : Finish α π) : Call α π :=
  call.goto (if call.kind.tag.isSome then .dropTag finish
    else .finished finish)

def setListener (call : Call α π) (listener : Option Listener) : Call α π :=
  { call with listener := listener }

def isWaiting (call : Call α π) : Bool := call.listener == some .waiting

def isNotified (call : Call α π) : Bool :=
  match call.listener with
  | some (.notified _) => true
  | _ => false

/-- A waiting listener is notified. -/
def mark (additional : Bool) (call : Call α π) : Call α π :=
  if call.isWaiting then call.setListener (some (.notified additional))
  else call

/-- The listener is dropped: a notification it has is handed on. -/
def handOn (call : Call α π) : Signal :=
  match call.listener with
  | some (.notified additional) => .notify additional
  | _ => .silent

def dropListener (call : Call α π) : Call α π := call.setListener none

end Call

def admitStep (statics : Statics) (weak : Bool) (call : Call α π) :
    AdmitPc → Option (Counters × Call α π × Signal)
  | .loadPoolThreads =>
      some (statics.counters,
        call.admitGoto (.checkPassthrough statics.poolThreadCount), .silent)
  | .checkPassthrough poolThreads =>
      some (statics.counters,
        call.admitGoto
          (if !statics.settings.enabled || poolThreads == 0 then .passThrough
          else .checkEnabled poolThreads), .silent)
  | .checkEnabled poolThreads =>
      some (statics.counters,
        call.admitGoto
          (if !statics.settings.enabled then .passThrough
          else .loadOccupancy poolThreads), .silent)
  | .loadOccupancy poolThreads =>
      some (statics.counters,
        call.admitGoto
          (.loadReserve poolThreads statics.settings.occupancyPct), .silent)
  | .loadReserve poolThreads occupancyPct =>
      some (statics.counters,
        call.admitGoto
          (.tryReserve
            { poolThreads := poolThreads
              occupancyPct := occupancyPct
              reservePct := statics.settings.encodeReservePct } .loadDec),
        .silent)
  | .tryReserve gate pc =>
      let move := tryReserveDecode gate statics.counters weak pc
      some (move.counters statics.counters,
        call.admitGoto
          (match move with
          | .next pc => .tryReserve gate pc
          | .returned true => .leave
          | .returned false => .listen gate), .silent)
  | .listen gate =>
      some (statics.counters,
        (call.setListener (some .waiting)).admitGoto (.recheckEnabled gate),
        .silent)
  | .recheckEnabled gate =>
      some (statics.counters,
        call.admitGoto
          (if !statics.settings.enabled then .passThrough
          else .retryReserve gate .loadDec), .silent)
  | .retryReserve gate pc =>
      let move := tryReserveDecode gate statics.counters weak pc
      some (move.counters statics.counters,
        call.admitGoto
          (match move with
          | .next pc => .retryReserve gate pc
          | .returned true => .leave
          | .returned false => .await gate), .silent)
  | .await gate =>
      -- the first poll of the listener: it may already have been notified
      if call.isNotified then
        some (statics.counters,
          call.dropListener.admitGoto (.checkEnabled gate.poolThreads),
          .silent)
      else
        some (statics.counters,
          call.admitGoto (.parked gate statics.counters), .silent)
  | .parked gate _ =>
      if call.isNotified then
        some (statics.counters,
          call.dropListener.admitGoto (.checkEnabled gate.poolThreads),
          .silent)
      else none
  | .passThrough =>
      some (statics.counters.fetchAdd .decodeOutstanding,
        call.admitGoto .leave, .silent)
  | .leave =>
      some (statics.counters, call.dropListener.goto .acquireSlot, call.handOn)

def callStep (statics : Statics) (weak : Bool) (call : Call α π) :
    Option (Counters × Call α π × Signal) :=
  match call.pc with
  | .encodeEnter =>
      some (statics.counters.fetchAdd .encodeOutstanding,
        call.goto .acquireSlot, .silent)
  | .admission pc => admitStep statics weak call pc
  | .acquireSlot =>
      let prev := statics.counters .outstanding
      some (statics.counters.fetchAdd .outstanding,
        call.goto
          (match statics.queueLimit with
          | some limit =>
              if prev + 1 > limit then .rejectSlot prev limit else .submit
          | none => .submit), .silent)
  | .rejectSlot current limit =>
      some (statics.counters.fetchSub .outstanding,
        call.close (.queueFull current limit), .silent)
  | .submit =>
      some (statics.counters,
        (call.goto .await).setTask Task.submitted, .silent)
  | .await =>
      match call.task with
      | none => none
      | some task =>
          match task.data with
          | some (.ok value) =>
              some (statics.counters,
                (call.close (.returned value)).setTask
                  { task with data := none }, .silent)
          | some (.error panic) =>
              some (statics.counters,
                (call.close (.resumed panic)).setTask
                  { task with data := none }, .silent)
          | none =>
              -- "rayon task channel closed unexpectedly"
              if task.senderDropped then
                some (statics.counters, call.close .channelClosed, .silent)
              else none
  | .dropTag finish =>
      match call.kind.tag with
      | some counter =>
          some (statics.counters.fetchSub counter,
            call.goto (.notifyTag finish), .silent)
      | none => none
  | .notifyTag finish =>
      some (statics.counters, call.goto (.finished finish), .notify true)
  | .finished _ => none

/-- The caller's future is dropped at one of its two await points. -/
def cancelStep (call : Call α π) : Option (Call α π × Signal) :=
  match call.pc with
  | .admission (.parked _ _) =>
      some (call.dropListener.goto (.finished .dropped), call.handOn)
  | .await =>
      match call.task with
      | none => none
      | some task =>
          some
            ((call.close .dropped).setTask
              { task.note [.receiverDropped] with receiverDropped := true },
            .silent)
  | _ => none

end Caller

/-- The places of `with_arbitration` and `with_arbitration_once`. -/
inductive ConfigPc where
  | claim
  | storeDisabled
  | storeOccupancy
  | storeReserve
  | storeEnabled
  | notify
  | storeConfigured
  | finished (applied : Bool)
  deriving DecidableEq, Repr

structure ConfigCall where
  once : Bool
  config : ArbitrationConfig
  pc : ConfigPc
  deriving DecidableEq, Repr

namespace ConfigCall

def applyPc : ArbitrationConfig → ConfigPc
  | .disabled => .storeDisabled
  | .enabled _ _ => .storeOccupancy

def start (once : Bool) (config : ArbitrationConfig) : ConfigCall :=
  { once := once
    config := config
    pc := if once then .claim else applyPc config }

end ConfigCall

def configStep (settings : Settings) (call : ConfigCall) :
    Option (Settings × ConfigCall × Signal) :=
  match call.pc, call.config with
  | .claim, config =>
      if settings.configured then
        some (settings, { call with pc := .finished false }, .silent)
      else
        some ({ settings with configured := true },
          { call with pc := ConfigCall.applyPc config }, .silent)
  | .storeDisabled, _ =>
      some ({ settings with enabled := false }, { call with pc := .notify },
        .silent)
  | .storeOccupancy, .enabled occupancyPct _ =>
      some ({ settings with occupancyPct := clampPct occupancyPct },
        { call with pc := .storeReserve }, .silent)
  | .storeReserve, .enabled _ encodeReservePct =>
      some ({ settings with encodeReservePct := clampPct encodeReservePct },
        { call with pc := .storeEnabled }, .silent)
  | .storeEnabled, _ =>
      some ({ settings with enabled := true }, { call with pc := .notify },
        .silent)
  | .notify, _ =>
      some (settings,
        { call with
          pc := if call.once then .finished true else .storeConfigured },
        .notifyAll)
  | .storeConfigured, _ =>
      some ({ settings with configured := true },
        { call with pc := .finished true }, .silent)
  | _, _ => none

structure State (α π : Type) where
  statics : Statics
  calls : List (Call α π)
  configs : List ConfigCall

/-- The steps of the machine.  `target` is the listener that a notification
marks. -/
inductive Label (α π : Type) where
  | spawn (kind : Kind) (f : Except π α)
  | call (index : Nat) (weak : Bool) (target : Nat)
  | cancel (index target : Nat)
  | task (index target : Nat)
  | configure (once : Bool) (config : ArbitrationConfig)
  | config (index : Nat)
  | initThreadPool (numThreads : Nat)

section Machine

variable {α π : Type}

/-- Mark the target if there is a waiting listener. -/
def markOne (additional : Bool) (target : Nat) (calls : List (Call α π)) :
    Option (List (Call α π)) :=
  if calls.any Call.isWaiting then
    match calls[target]? with
    | some call =>
        if call.isWaiting then
          some (calls.set target (call.mark additional))
        else none
    | none => none
  else some calls

/-- The listeners after a notification.  Without `additional()`, a listener
that is notified already counts. -/
def deliver (signal : Signal) (target : Nat) (calls : List (Call α π)) :
    Option (List (Call α π)) :=
  match signal with
  | .silent => some calls
  | .notifyAll => some (calls.map (Call.mark false))
  | .notify additional =>
      if !additional && calls.any Call.isNotified then some calls
      else markOne additional target calls

namespace State

def initial (parsed : Option Nat) : State α π :=
  { statics := Statics.initial parsed, calls := [], configs := [] }

/-- The state after a step of the call at `index`. -/
def update (state : State α π) (index target : Nat) (counters : Counters)
    (call : Call α π) (signal : Signal) : Option (State α π) :=
  (deliver signal target (state.calls.set index call)).map fun calls =>
    { state with
      statics := { state.statics with counters := counters }
      calls := calls }

def step (state : State α π) : Label α π → Option (State α π)
  | .spawn kind f =>
      some { state with calls := state.calls ++ [Call.start kind f] }
  | .call index weak target => do
      let call ← state.calls[index]?
      let (counters, next, signal) ← callStep state.statics weak call
      state.update index target counters next signal
  | .cancel index target => do
      let call ← state.calls[index]?
      let (next, signal) ← cancelStep call
      state.update index target state.statics.counters next signal
  | .task index target => do
      let call ← state.calls[index]?
      let task ← call.task
      let (counters, next, signal) ←
        taskStep state.statics.counters call.f task
      state.update index target counters (call.setTask next) signal
  | .configure once config =>
      some
        { state with
          configs := state.configs ++ [ConfigCall.start once config] }
  | .config index => do
      let config ← state.configs[index]?
      let (settings, next, signal) ← configStep state.statics.settings config
      let calls ← deliver signal 0 state.calls
      return {
        statics := { state.statics with settings := settings }
        calls := calls
        configs := state.configs.set index next }
  | .initThreadPool numThreads =>
      some
        { state with
          statics := { state.statics with poolThreadCount := numThreads } }

end State

end Machine

end HoprUtilities.Parallelize
