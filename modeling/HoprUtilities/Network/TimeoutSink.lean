import HoprUtilities.Network.CopyBuffer

/-!
# A sink with a timeout

The embedding of `TimeoutSink` from `src/network_types/timeout.rs`, over an
arbitrary inner sink.  The world outside answers every call from a script, and
every answer comes with the time that passes until it is given; a script that
has run out leaves the code stopped at the unanswered call.  The answered
calls are logged with the time of the answer.

Instants and durations are natural numbers.  A `Sleep` is the instant of its
creation and its duration.  Its answers come from the script as well, so that
a timer which is early is a possible world; `Punctual` excludes it.
-/

namespace HoprUtilities.Network.Timeout

open HoprUtilities.Lib

inductive SinkTimeoutError (ε : Type) where
  | timeout
  | inner (error : ε)
  deriving DecidableEq, Repr

def SinkTimeoutError.tryAsInner {ε : Type} : SinkTimeoutError ε → Option ε
  | .timeout => none
  | .inner error => some error

structure Sleep where
  since : Nat
  duration : Nat
  deriving DecidableEq, Repr

/-- Where the code stops: at a call that is not answered, at the end of a
bounded unrolling of a loop, or in a panic. -/
inductive Stop where
  | next
  | ready
  | startSend
  | flush
  | close
  | sleep
  | horizon
  | panicked (message : String)
  deriving DecidableEq, Repr

/-- What the log records: the calls of the world with their answers, and what
the forwarding future does with the item it holds. -/
inductive Event (α ε κ : Type) where
  | next (answer : Poll (Option (Except ε α)))
  | ready (answer : Poll (Except κ Unit))
  | startSend (item : α)
  | flush (answer : Poll (Except κ Unit))
  | close (answer : Poll (Except κ Unit))
  | slept (sleep : Sleep) (answer : Poll Unit)
  | asked (item : α)
  | answered (item : α) (answer : Poll (Except (SinkTimeoutError ε) Unit))
  | discarded (item : α)
  deriving DecidableEq, Repr

/-- The answers that the stream, the innermost sink and the timers are going
to give, each with the time until it is given.  `pauses` are the times that
pass between calls. -/
structure Script (α ε κ : Type) where
  nexts : List (Nat × Poll (Option (Except ε α)))
  readies : List (Nat × Poll (Except κ Unit))
  starts : List (Nat × Except κ Unit)
  flushes : List (Nat × Poll (Except κ Unit))
  closes : List (Nat × Poll (Except κ Unit))
  sleeps : List (Nat × Poll Unit)
  pauses : List Nat
  deriving DecidableEq, Repr

structure World (α ε κ : Type) where
  script : Script α ε κ
  clock : Nat
  log : List (Nat × Event α ε κ)
  deriving DecidableEq, Repr

namespace World

variable {α ε κ β : Type}

/-- The world when the event has happened, `delay` later. -/
def record (delay : Nat) (event : Event α ε κ) (world : World α ε κ) :
    World α ε κ :=
  { world with
    clock := world.clock + delay
    log := world.log ++ [(world.clock + delay, event)] }

/-- A call that is answered from the given part of the script. -/
def call (stop : Stop) (event : β → Event α ε κ)
    (answers : Script α ε κ → List (Nat × β))
    (put : List (Nat × β) → Script α ε κ → Script α ε κ) :
    EStateM Stop (World α ε κ) β := fun world =>
  match answers world.script with
  | [] => .error stop world
  | (delay, answer) :: rest =>
      .ok answer
        ({ world with script := put rest world.script }.record delay
          (event answer))

def pollNext : EStateM Stop (World α ε κ) (Poll (Option (Except ε α))) :=
  call .next .next (·.nexts) fun rest script => { script with nexts := rest }

def pollReady : EStateM Stop (World α ε κ) (Poll (Except κ Unit)) :=
  call .ready .ready (·.readies) fun rest script =>
    { script with readies := rest }

/-- The item is with the sink from the call on, whatever the answer. -/
def startSend (item : α) : EStateM Stop (World α ε κ) (Except κ Unit) :=
  fun world =>
    let given := world.record 0 (.startSend item)
    match given.script.starts with
    | [] => .error .startSend given
    | (delay, answer) :: rest =>
        .ok answer
          { given with
            script := { given.script with starts := rest }
            clock := given.clock + delay }

def pollFlush : EStateM Stop (World α ε κ) (Poll (Except κ Unit)) :=
  call .flush .flush (·.flushes) fun rest script =>
    { script with flushes := rest }

def pollClose : EStateM Stop (World α ε κ) (Poll (Except κ Unit)) :=
  call .close .close (·.closes) fun rest script =>
    { script with closes := rest }

def pollSleep (sleep : Sleep) : EStateM Stop (World α ε κ) (Poll Unit) :=
  call .sleep (.slept sleep) (·.sleeps) fun rest script =>
    { script with sleeps := rest }

/-- The time that passes before the next call. -/
def elapse (world : World α ε κ) : World α ε κ :=
  { world with
    script := { world.script with pauses := world.script.pauses.tail }
    clock := world.clock + world.script.pauses.headD 0 }

end World

/-- `futures::Sink`: the operations, on the state `σ` of the sink and the world
it lives in. -/
structure Sink (σ ω α ε : Type) where
  pollReady : EStateM Stop (σ × ω) (Poll (Except ε Unit))
  startSend : α → EStateM Stop (σ × ω) (Except ε Unit)
  pollFlush : EStateM Stop (σ × ω) (Poll (Except ε Unit))
  pollClose : EStateM Stop (σ × ω) (Poll (Except ε Unit))

def mapErr {ε κ : Type} (wrap : ε → κ) :
    Poll (Except ε Unit) → Poll (Except κ Unit)
  | .ready res => .ready (res.mapError wrap)
  | .pending => .pending

section Operations

variable {σ α ε κ δ β : Type}

def onWorld (code : EStateM Stop (World α ε κ) β) :
    EStateM Stop (σ × World α ε κ) β :=
  zoom id Prod.snd (fun world state => (state.1, world)) code

/-- The sink that answers from the script, and so any sink. -/
def scripted : Sink Unit (World α ε κ) α κ where
  pollReady := onWorld World.pollReady
  startSend := fun item => onWorld (World.startSend item)
  pollFlush := onWorld World.pollFlush
  pollClose := onWorld World.pollClose

structure TimeoutSink (σ : Type) where
  inner : σ
  timer : Option Sleep
  timeout : Nat
  deriving DecidableEq, Repr

namespace TimeoutSink

def withTimeout (inner : σ) (timeout : Nat) : TimeoutSink σ :=
  { inner := inner, timer := none, timeout := timeout }

def onInner (code : EStateM Stop (σ × World α ε κ) β) :
    EStateM Stop (TimeoutSink σ × World α ε κ) β :=
  zoom id (fun (self, world) => (self.inner, world))
    (fun (inner, world) (self, _) => ({ self with inner := inner }, world)) code

def setTimer (timer : Option Sleep) :
    EStateM Stop (TimeoutSink σ × World α ε κ) PUnit :=
  modify fun (self, world) => ({ self with timer := timer }, world)

/-- Create the timer unless there is one. -/
def arm : EStateM Stop (TimeoutSink σ × World α ε κ) PUnit := do
  let this ← get
  if this.1.timer.isNone then
    setTimer (some { since := this.2.clock, duration := this.1.timeout })

def pollTimer : EStateM Stop (TimeoutSink σ × World α ε κ)
    (Poll (Except (SinkTimeoutError δ) Unit)) := do
  let this ← get
  match this.1.timer with
  | some timer =>
      match ← onWorld (World.pollSleep timer) with
      | .pending => return .pending
      | .ready () => do
          setTimer none
          return .ready (.error .timeout)
  | none => throw (.panicked "internal error: entered unreachable code")

def pollReady (inner : Sink σ (World α ε κ) α δ) :
    EStateM Stop (TimeoutSink σ × World α ε κ)
      (Poll (Except (SinkTimeoutError δ) Unit)) := do
  match ← onInner inner.pollReady with
  | .ready res => do
      setTimer none
      return .ready (res.mapError .inner)
  | .pending => do
      arm
      pollTimer

def sink (inner : Sink σ (World α ε κ) α δ) :
    Sink (TimeoutSink σ) (World α ε κ) α (SinkTimeoutError δ) where
  pollReady := pollReady inner
  startSend := fun item => do
    return (← onInner (inner.startSend item)).mapError .inner
  pollFlush := do
    return mapErr .inner (← onInner inner.pollFlush)
  pollClose := do
    return mapErr .inner (← onInner inner.pollClose)

end TimeoutSink

end Operations

section World

variable {α ε κ β : Type}

namespace Event

/-- The item that the event takes from the stream. -/
def taken? : Event α ε κ → Option α
  | .next (.ready (some (.ok item))) => some item
  | _ => none

/-- The item that the event gives to the innermost sink. -/
def sent? : Event α ε κ → Option α
  | .startSend item => some item
  | _ => none

def discarded? : Event α ε κ → Option α
  | .discarded item => some item
  | _ => none

def isEarly (time : Nat) : Event α ε κ → Bool
  | .slept sleep (.ready ()) => time < sleep.since + sleep.duration
  | _ => false

def isQuiet (event : Event α ε κ) : Bool :=
  event.taken?.isNone && event.sent?.isNone && event.discarded?.isNone

end Event

/-- No timer was ready before its duration had elapsed. -/
def Punctual (log : List (Nat × Event α ε κ)) : Prop :=
  ∀ entry ∈ log, entry.2.isEarly entry.1 = false

instance (log : List (Nat × Event α ε κ)) : Decidable (Punctual log) :=
  inferInstanceAs (Decidable (∀ entry ∈ log, _))

theorem Punctual.of_append {log more : List (Nat × Event α ε κ)}
    (punctual : Punctual (log ++ more)) : Punctual log := by
  intro entry member
  exact punctual entry (List.mem_append_left _ member)

theorem Punctual.elapsed {log : List (Nat × Event α ε κ)} {time : Nat}
    {sleep : Sleep} (punctual : Punctual log)
    (polled : (time, .slept sleep (.ready ())) ∈ log) :
    sleep.since + sleep.duration ≤ time := by
  have punctually := punctual _ polled
  simpa [Event.isEarly] using punctually

/-- Time has passed, and nothing has happened to any item. -/
structure Passes (before after : World α ε κ) : Prop where
  clock : before.clock ≤ after.clock
  log : ∃ more, after.log = before.log ++ more ∧
    ∀ entry ∈ more, entry.2.isQuiet = true

namespace Passes

theorem refl (world : World α ε κ) : Passes world world :=
  ⟨Nat.le_refl _, [], by simp, by simp⟩

theorem trans {first second third : World α ε κ}
    (earlier : Passes first second) (later : Passes second third) :
    Passes first third := by
  obtain ⟨more, logged, quiet⟩ := earlier.log
  obtain ⟨rest, continued, silent⟩ := later.log
  refine ⟨Nat.le_trans earlier.clock later.clock, more ++ rest, ?_, ?_⟩
  · rw [continued, logged, List.append_assoc]
  · intro entry member
    rcases List.mem_append.mp member with inMore | inRest
    · exact quiet entry inMore
    · exact silent entry inRest

theorem record (world : World α ε κ) (delay : Nat) {event : Event α ε κ}
    (quiet : event.isQuiet = true) :
    Passes world (world.record delay event) := by
  refine ⟨Nat.le_add_right _ _, [(world.clock + delay, event)], rfl, ?_⟩
  intro entry member
  rw [List.mem_singleton.mp member]
  exact quiet

end Passes

/-- The world after a call with the given answer. -/
structure Answers (event : Event α ε κ) (before after : World α ε κ) :
    Prop where
  clock : before.clock ≤ after.clock
  log : after.log = before.log ++ [(after.clock, event)]

theorem Answers.passes {event : Event α ε κ} {before after : World α ε κ}
    (answers : Answers event before after) (quiet : event.isQuiet = true) :
    Passes before after := by
  refine ⟨answers.clock, _, answers.log, ?_⟩
  intro entry member
  rw [List.mem_singleton.mp member]
  exact quiet

theorem World.call_triple (stop : Stop) (event : β → Event α ε κ)
    (answers : Script α ε κ → List (Nat × β))
    (put : List (Nat × β) → Script α ε κ → Script α ε κ)
    (world : World α ε κ) :
    Triple (· = world) (World.call stop event answers put)
      (fun answer after => Answers (event answer) world after)
      (fun _ after => after = world) := by
  intro start same
  subst same
  unfold World.call
  cases answers start.script with
  | nil => rfl
  | cons entry rest => exact ⟨Nat.le_add_right _ _, rfl⟩

theorem World.startSend_triple (item : α) (world : World α ε κ) :
    Triple (· = world) (World.startSend item)
      (fun _ after => world.clock ≤ after.clock ∧
        after.log = world.log ++ [(world.clock, .startSend item)])
      (fun _ after => world.clock ≤ after.clock ∧
        after.log = world.log ++ [(world.clock, .startSend item)]) := by
  intro start same
  subst same
  unfold World.startSend
  dsimp only
  cases (start.record 0 (.startSend item)).script.starts with
  | nil => exact ⟨Nat.le_refl _, rfl⟩
  | cons entry rest => exact ⟨Nat.le_add_right _ _, rfl⟩

end World

section Timed

variable {α ε κ β : Type}

/-- The sink around the innermost one, and the world. -/
abbrev Timed (α ε κ : Type) := TimeoutSink Unit × World α ε κ

/-- The timer was there before or has been created since. -/
def Armed (before : Timed α ε κ) (sleep : Sleep) : Prop :=
  before.1.timer = some sleep ∨
    before.2.clock ≤ sleep.since ∧ sleep.duration = before.1.timeout

structure Waited (before after : Timed α ε κ) : Prop where
  timeout : after.1.timeout = before.1.timeout
  passes : Passes before.2 after.2
  timer : ∀ sleep, after.1.timer = some sleep → Armed before sleep

theorem Waited.record {before after : Timed α ε κ}
    (waited : Waited before after) {event : Event α ε κ}
    (quiet : event.isQuiet = true) :
    Waited before (after.1, after.2.record 0 event) :=
  ⟨waited.timeout, waited.passes.trans (.record _ 0 quiet), waited.timer⟩

inductive Offered (before : Timed α ε κ) :
    Poll (Except (SinkTimeoutError κ) Unit) → Timed α ε κ → Prop where
  | pending {after : Timed α ε κ} (waited : Waited before after) :
      Offered before .pending after
  | ready {after : Timed α ε κ} (waited : Waited before after)
      (cleared : after.1.timer = none) (res : Except κ Unit) :
      Offered before (.ready (res.mapError .inner)) after
  | expired {after : Timed α ε κ} (waited : Waited before after)
      (cleared : after.1.timer = none) (sleep : Sleep)
      (armed : Armed before sleep)
      (polled : (after.2.clock, .slept sleep (.ready ())) ∈ after.2.log) :
      Offered before (.ready (.error .timeout)) after

namespace TimeoutSink

theorem onInner_triple {code : EStateM Stop (World α ε κ) β}
    {post : β → World α ε κ → Prop} {stopped : Stop → World α ε κ → Prop}
    (before : Timed α ε κ) (triple : Triple (· = before.2) code post stopped) :
    Triple (· = before)
      (onInner (onWorld code : EStateM Stop (Unit × World α ε κ) β))
      (fun value after => after.1 = before.1 ∧ post value after.2)
      (fun call after => after.1 = before.1 ∧ stopped call after.2) := by
  apply Triple.zoom
  intro start same
  subst same
  apply Triple.zoom
  intro inner same
  subst same
  apply triple.consequence (fun _ same => same)
  · intro value after holds
    exact ⟨rfl, holds⟩
  · intro call after holds
    exact ⟨rfl, holds⟩

theorem onInner_call_triple (stop : Stop) (event : β → Event α ε κ)
    (answers : Script α ε κ → List (Nat × β))
    (put : List (Nat × β) → Script α ε κ → Script α ε κ)
    (before : Timed α ε κ) :
    Triple (· = before)
      (onInner (onWorld (World.call stop event answers put) :
        EStateM Stop (Unit × World α ε κ) β))
      (fun answer after => after.1 = before.1 ∧
        Answers (event answer) before.2 after.2)
      (fun _ after => after = before) := by
  apply (onInner_triple before
    (World.call_triple stop event answers put before.2)).consequence
      (fun _ same => same) (fun _ _ holds => holds)
  intro call after unchanged
  exact Prod.ext unchanged.1 unchanged.2

theorem pollTimer_triple (before armed : Timed α ε κ)
    (waited : Waited before armed) :
    Triple (· = armed)
      (pollTimer : EStateM Stop (Timed α ε κ)
        (Poll (Except (SinkTimeoutError κ) Unit)))
      (Offered before) (fun _ after => Waited before after) := by
  apply Triple.get_bind
  intro start same
  subst same
  cases set : start.1.timer with
  | none =>
      dsimp only
      apply Triple.throw
      intro state same
      subst same
      exact waited
  | some sleep =>
      have created : Armed before sleep := waited.timer sleep set
      apply Triple.bind (fun answer after => after.1 = start.1 ∧
        Answers (.slept sleep answer) start.2 after.2)
      · apply Triple.zoom
        intro state same
        subst same
        apply (World.call_triple _ _ _ _ _).consequence (fun _ same => same)
        · intro answer after answers
          exact ⟨rfl, answers⟩
        · intro call after same
          subst same
          exact waited
      · intro answer
        cases answer with
        | pending =>
            apply Triple.pure
            intro after premise
            obtain ⟨same, answers⟩ := premise
            refine .pending ⟨?_, ?_, ?_⟩
            · rw [same, waited.timeout]
            · exact waited.passes.trans (answers.passes rfl)
            · rw [same]
              exact waited.timer
        | ready done =>
            apply Triple.modify_bind
            intro after premise
            obtain ⟨same, answers⟩ := premise
            apply Triple.pure
            intro final reset
            subst reset
            refine .expired ⟨?_, ?_, ?_⟩ rfl sleep created ?_
            · change after.1.timeout = _
              rw [same, waited.timeout]
            · exact waited.passes.trans (answers.passes rfl)
            · intro sleep set
              cases set
            · change (after.2.clock, _) ∈ after.2.log
              rw [answers.log]
              exact List.mem_concat_self

theorem pollReady_triple (before : Timed α ε κ) :
    Triple (· = before) (pollReady scripted) (Offered before)
      (fun _ after => Waited before after) := by
  apply Triple.bind (fun answer after => after.1 = before.1 ∧
    Answers (.ready answer) before.2 after.2)
  · apply (onInner_call_triple _ _ _ _ before).consequence
      (fun _ same => same) (fun _ _ holds => holds)
    intro call after same
    subst same
    exact ⟨rfl, .refl _, fun sleep set => .inl set⟩
  · intro answer
    cases answer with
    | ready res =>
        apply Triple.modify_bind
        intro after premise
        obtain ⟨same, answers⟩ := premise
        apply Triple.pure
        intro final reset
        subst reset
        refine .ready ⟨?_, ?_, ?_⟩ rfl res
        · change after.1.timeout = _
          rw [same]
        · exact answers.passes rfl
        · intro sleep set
          cases set
    | pending =>
        apply Triple.bind (fun _ after => Waited before after)
        · apply Triple.get_bind
          intro after premise
          obtain ⟨same, answers⟩ := premise
          have passes := answers.passes rfl
          split
          · intro state start
            subst start
            refine ⟨?_, passes, ?_⟩
            · change state.1.timeout = _
              rw [same]
            · intro sleep set
              cases set
              exact .inr ⟨passes.clock, by rw [same]⟩
          · apply Triple.pure
            intro state start
            subst start
            refine ⟨by rw [same], passes, ?_⟩
            intro sleep set
            rw [same] at set
            exact .inl set
        · intro done
          apply Triple.of_forall
          intro armed waited
          exact pollTimer_triple before armed waited

theorem startSend_triple (item : α) (before : Timed α ε κ) :
    Triple (· = before) ((sink scripted).startSend item)
      (fun _ after => after.1 = before.1 ∧
        before.2.clock ≤ after.2.clock ∧
        after.2.log = before.2.log ++ [(before.2.clock, .startSend item)])
      (fun _ after => after.1 = before.1 ∧
        before.2.clock ≤ after.2.clock ∧
        after.2.log =
          before.2.log ++ [(before.2.clock, .startSend item)]) := by
  apply Triple.bind _ (onInner_triple before (World.startSend_triple item _))
  intro answer
  exact Triple.pure (fun _ holds => holds)

theorem pollFlush_triple (before : Timed α ε κ) :
    Triple (· = before) (sink scripted).pollFlush
      (fun _ after => after.1 = before.1 ∧ Passes before.2 after.2)
      (fun _ after => after = before) := by
  apply Triple.bind _ (onInner_call_triple _ _ _ _ before)
  intro answer
  apply Triple.pure
  intro after premise
  exact ⟨premise.1, premise.2.passes rfl⟩

/-- If the sink reports that it is closed, then so has the innermost one. -/
theorem pollClose_triple (before : Timed α ε κ) :
    Triple (· = before) (sink scripted).pollClose
      (fun answer after => after.1 = before.1 ∧ Passes before.2 after.2 ∧
        (answer = .ready (.ok ()) → after.2.log.getLast? =
          some (after.2.clock, .close (.ready (.ok ())))))
      (fun _ after => after = before) := by
  apply Triple.bind _ (onInner_call_triple _ _ _ _ before)
  intro answer
  apply Triple.pure
  intro after premise
  obtain ⟨same, answers⟩ := premise
  refine ⟨same, answers.passes rfl, ?_⟩
  intro closed
  match answer with
  | .ready (.ok ()) => simp [answers.log]
  | .ready (.error error) => cases closed
  | .pending => cases closed

end TimeoutSink

end Timed

section Stream

variable {σ α ε κ β : Type}

/-- The code leaves the answers of the stream alone and does not give up. -/
def Keeps (code : EStateM Stop (σ × World α ε κ) β) : Prop :=
  ∀ nexts, Triple (fun this => this.2.script.nexts = nexts) code
    (fun _ this => this.2.script.nexts = nexts) (fun stop _ => stop ≠ .horizon)

namespace Keeps

theorem bind {γ : Type} {first : EStateM Stop (σ × World α ε κ) β}
    {next : β → EStateM Stop (σ × World α ε κ) γ} (head : Keeps first)
    (tail : ∀ value, Keeps (next value)) : Keeps (first >>= next) := by
  intro nexts
  exact Triple.bind _ (head nexts) (fun value => tail value nexts)

theorem pure (value : β) :
    Keeps (Pure.pure value : EStateM Stop (σ × World α ε κ) β) := by
  intro nexts
  exact Triple.pure (fun _ same => same)

theorem setTimer (timer : Option Sleep) :
    Keeps (TimeoutSink.setTimer timer :
      EStateM Stop (TimeoutSink σ × World α ε κ) PUnit) := by
  intro nexts this same
  exact same

theorem call {stop : Stop} (event : β → Event α ε κ)
    (answers : Script α ε κ → List (Nat × β))
    {put : List (Nat × β) → Script α ε κ → Script α ε κ}
    (call : stop ≠ .horizon)
    (kept : ∀ rest script, (put rest script).nexts = script.nexts) :
    Keeps (onWorld (World.call stop event answers put) :
      EStateM Stop (σ × World α ε κ) β) := by
  intro nexts
  apply Triple.zoom
  intro this same world start
  subst start
  unfold World.call
  cases answers this.2.script with
  | nil => exact call
  | cons entry rest => exact (kept _ _).trans same

theorem startSend (item : α) :
    Keeps (onWorld (World.startSend item) :
      EStateM Stop (σ × World α ε κ) (Except κ Unit)) := by
  intro nexts
  apply Triple.zoom
  intro this same world start
  subst start
  unfold World.startSend
  dsimp only
  cases (this.2.record 0 (.startSend item)).script.starts with
  | nil => exact Stop.noConfusion
  | cons entry rest => exact same

theorem onInner {code : EStateM Stop (σ × World α ε κ) β}
    (inner : Keeps code) : Keeps (TimeoutSink.onInner code) := by
  intro nexts
  apply Triple.zoom
  intro this same
  exact (inner nexts).startingAt same

end Keeps

/-- A sink that has nothing to do with the stream. -/
structure Apart (si : Sink σ (World α ε κ) α (SinkTimeoutError ε)) :
    Prop where
  pollReady : Keeps si.pollReady
  startSend : ∀ item, Keeps (si.startSend item)
  pollFlush : Keeps si.pollFlush
  pollClose : Keeps si.pollClose

theorem keeps_arm :
    Keeps (TimeoutSink.arm :
      EStateM Stop (TimeoutSink σ × World α ε κ) PUnit) := by
  intro nexts
  apply Triple.get_bind
  intro this same
  split
  · exact ((Keeps.setTimer _) nexts).startingAt same
  · exact ((Keeps.pure _) nexts).startingAt same

theorem keeps_pollTimer {δ : Type} :
    Keeps (TimeoutSink.pollTimer :
      EStateM Stop (TimeoutSink σ × World α ε κ)
        (Poll (Except (SinkTimeoutError δ) Unit))) := by
  intro nexts
  apply Triple.get_bind
  intro this same
  split
  · next timer _ =>
      have polls : Keeps (onWorld (World.pollSleep timer) :
          EStateM Stop (TimeoutSink σ × World α ε κ) (Poll Unit)) :=
        Keeps.call _ _ Stop.noConfusion (fun _ _ => rfl)
      apply Triple.bind _ ((polls nexts).startingAt same)
      intro answer
      cases answer with
      | pending => exact Keeps.pure _ nexts
      | ready done =>
          exact (Keeps.setTimer none).bind (fun _ => Keeps.pure _) nexts
  · exact Triple.throw (fun _ _ => Stop.noConfusion)

theorem apart_sink :
    Apart (TimeoutSink.sink scripted :
      Sink (TimeoutSink Unit) (World α ε ε) α (SinkTimeoutError ε)) := by
  constructor
  · apply Keeps.bind
    · apply Keeps.onInner
      exact Keeps.call _ _ Stop.noConfusion (fun _ _ => rfl)
    · intro answer
      cases answer with
      | ready res => exact (Keeps.setTimer none).bind (fun _ => Keeps.pure _)
      | pending => exact keeps_arm.bind (fun _ => keeps_pollTimer)
  · intro item
    exact (Keeps.startSend item).onInner.bind (fun _ => Keeps.pure _)
  · apply Keeps.bind
    · apply Keeps.onInner
      exact Keeps.call _ _ Stop.noConfusion (fun _ _ => rfl)
    · exact fun _ => Keeps.pure _
  · apply Keeps.bind
    · apply Keeps.onInner
      exact Keeps.call _ _ Stop.noConfusion (fun _ _ => rfl)
    · exact fun _ => Keeps.pure _

end Stream

end HoprUtilities.Network.Timeout
