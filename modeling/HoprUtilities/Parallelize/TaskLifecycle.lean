import HoprUtilities.Parallelize.Accounting

/-!
# The life cycle of a task

The log of a task and the fate of its receiver determine each other's order.
`TaskPc.histories` lists, for each place of the closure, all the histories
that lead there; what holds of its outcomes and executions is read off
the list.  `Lifecycle` adds what the future may find in the channel.
-/

namespace HoprUtilities.Parallelize

open HoprUtilities.Lib

variable {α π : Type}

/-- The histories of a closure that has run `f`, with whether the receiver was
dropped. -/
def ranHistories : List (Bool × List TaskEvent) :=
  [(false, [.checked, .executed, .completed]),
    (true, [.checked, .executed, .completed, .receiverDropped]),
    (true, [.checked, .receiverDropped, .executed, .orphaned]),
    (true, [.checked, .executed, .receiverDropped, .orphaned])]

def TaskPc.histories : TaskPc α π → List (Bool × List TaskEvent)
  | .queued => [(false, []), (true, [.receiverDropped])]
  | .enterRunning | .execute =>
      [(false, [.checked]), (true, [.checked, .receiverDropped])]
  | .send _ =>
      [(false, [.checked, .executed]),
        (true, [.checked, .receiverDropped, .executed]),
        (true, [.checked, .executed, .receiverDropped])]
  | .leaveRunning | .notifyRunning => ranHistories
  | .releaseSlot | .finished =>
      (true, [.receiverDropped, .checked, .cancelled]) :: ranHistories

/-- The closure has sent its result, or given up on it. -/
def TaskPc.sent : TaskPc α π → Bool
  | .leaveRunning | .notifyRunning | .releaseSlot | .finished => true
  | _ => false

def TaskEvent.isOutcome : TaskEvent → Bool
  | .completed | .cancelled | .orphaned => true
  | _ => false

namespace Task

def Recorded (task : Task α π) : Prop :=
  (task.receiverDropped, task.log) ∈ task.pc.histories

/-- What a future that still waits can find in the channel. -/
structure Awaited (f : Except π α) (task : Task α π) : Prop where
  alive : task.receiverDropped = false
  delivered : task.pc.sent = true → task.data = some f
  unsent : task.pc.sent = false →
    task.data = none ∧ task.senderDropped = false

end Task

/-- The result of a call is the one of its own `f`. -/
def Finish.Honest (f : Except π α) : Finish α π → Prop
  | .returned value => f = .ok value
  | .resumed panic => f = .error panic
  | .channelClosed => False
  | .queueFull _ _ | .dropped => True

/-- How the call ends or has ended. -/
def CallPc.finish? : CallPc α π → Option (Finish α π)
  | .dropTag finish | .notifyTag finish | .finished finish => some finish
  | _ => none

structure Lifecycle (call : Call α π) : Prop where
  recorded : ∀ task, call.task = some task → task.Recorded
  sends : ∀ task result, call.task = some task → task.pc = .send result →
    result = call.f
  awaited : call.pc = .await → ∃ task, call.task = some task ∧
    task.Awaited call.f
  honest : ∀ finish, call.pc.finish? = some finish → finish.Honest call.f

namespace TaskStep

variable {before after : Counters} {f : Except π α} {task next : Task α π}
  {signal : Signal}

theorem recorded (step : TaskStep before f task after next signal)
    (recorded : task.Recorded) : next.Recorded := by
  unfold Task.Recorded at recorded ⊢
  cases step with
  | skip place gone | start place gone | complete place gone =>
      rw [place] at recorded
      simp_all [TaskPc.histories, Task.note, ranHistories]
  | enterRunning place | leaveRunning place | notifyRunning place
  | releaseSlot place =>
      rw [place] at recorded
      simp_all [TaskPc.histories]
  | execute place =>
      rw [place] at recorded
      simp only [TaskPc.histories, List.mem_cons, Prod.mk.injEq,
        List.not_mem_nil, or_false] at recorded
      rcases recorded with ⟨alive, log⟩ | ⟨gone, log⟩
      · simp [TaskPc.histories, Task.note, alive, log]
      · simp [TaskPc.histories, Task.note, gone, log]
  | orphan place gone =>
      rw [place] at recorded
      simp only [TaskPc.histories, List.mem_cons, Prod.mk.injEq, gone,
        List.not_mem_nil, or_false, Bool.true_eq_false, false_and, false_or,
        true_and] at recorded
      rcases recorded with log | log
      · simp [TaskPc.histories, Task.note, ranHistories, gone, log]
      · simp [TaskPc.histories, Task.note, ranHistories, gone, log]

theorem awaited (step : TaskStep before f task after next signal)
    (sends : ∀ result, task.pc = .send result → result = f)
    (awaited : task.Awaited f) : next.Awaited f := by
  obtain ⟨alive, delivered, unsent⟩ := awaited
  cases step with
  | skip place gone | orphan place gone =>
      rw [alive] at gone
      cases gone
  | start place _ | enterRunning place | execute place =>
      exact ⟨alive, by simp [TaskPc.sent], fun _ => unsent (by rw [place]; rfl)⟩
  | complete place _ =>
      refine ⟨alive, fun _ => ?_, by simp [TaskPc.sent]⟩
      rw [← sends _ place]
  | leaveRunning place | notifyRunning place | releaseSlot place =>
      exact ⟨alive, fun _ => delivered (by rw [place]; rfl),
        by simp [TaskPc.sent]⟩

theorem sends (step : TaskStep before f task after next signal)
    {result : Except π α} (place : next.pc = .send result) : result = f := by
  cases step with
  | execute =>
      cases place
      rfl
  | skip | start | enterRunning | orphan | complete | leaveRunning
  | notifyRunning | releaseSlot => cases place

end TaskStep

theorem Task.recorded_receiverDropped {task : Task α π}
    (recorded : task.Recorded) (alive : task.receiverDropped = false) :
    ({ task.note [.receiverDropped] with
      receiverDropped := true } : Task α π).Recorded := by
  unfold Recorded at recorded ⊢
  rw [alive] at recorded
  dsimp only [note]
  cases place : task.pc <;> rw [place] at recorded <;>
    simp_all [TaskPc.histories, ranHistories]

theorem Finish.honest_ofResult (f : Except π α) :
    (Finish.ofResult f).Honest f := by
  cases f with
  | ok value => rfl
  | error panic => rfl

theorem CallPc.finish?_of_unsubmitted {pc : CallPc α π}
    (early : pc.unsubmitted = true) : pc.finish? = none := by
  cases pc <;> first | rfl | cases early

theorem Call.finish?_close (call : Call α π) (finish : Finish α π) :
    (call.close finish).pc.finish? = some finish := by
  rcases call.close_cases finish with ⟨_, same⟩ | ⟨_, same⟩ <;> rw [same] <;>
    rfl

namespace Lifecycle

variable {call : Call α π}

theorem start (kind : Kind) (f : Except π α) :
    Lifecycle (Call.start kind f) := by
  refine ⟨by simp [Call.start], by simp [Call.start], ?_, ?_⟩
  · cases kind <;> simp [Call.start]
  · cases kind <;> simp [Call.start, CallPc.finish?]

theorem mark (lifecycle : Lifecycle call) (additional : Bool) :
    Lifecycle (call.mark additional) := by
  rcases call.mark_cases additional with same | ⟨_, same⟩
  · rw [same]
    exact lifecycle
  · rw [same]
    exact ⟨lifecycle.recorded, lifecycle.sends, lifecycle.awaited,
      lifecycle.honest⟩

theorem of_unsubmitted {next : Call α π} (absent : next.task = none)
    (unsubmitted : next.pc.unsubmitted = true) : Lifecycle next := by
  refine ⟨by simp [absent], by simp [absent], ?_, ?_⟩
  · intro place
    rw [place] at unsubmitted
    cases unsubmitted
  · intro finish ends
    rw [CallPc.finish?_of_unsubmitted unsubmitted] at ends
    cases ends

theorem of_finish (lifecycle : Lifecycle call) {next : Call α π}
    {finish : Finish α π} (sameF : next.f = call.f)
    (ends : next.pc.finish? = some finish) (honest : finish.Honest call.f)
    (recorded : ∀ task, next.task = some task → task.Recorded ∧
      ∃ earlier, call.task = some earlier ∧ task.pc = earlier.pc) :
    Lifecycle next := by
  refine ⟨fun task present => (recorded task present).1, ?_, ?_, ?_⟩
  · intro task result present place
    obtain ⟨_, earlier, submitted, same⟩ := recorded task present
    rw [sameF]
    exact lifecycle.sends earlier result submitted (same.symm.trans place)
  · intro place
    rw [place] at ends
    cases ends
  · intro other same
    rw [ends] at same
    cases same
    rw [sameF]
    exact honest

theorem recorded_same (lifecycle : Lifecycle call) :
    ∀ task, call.task = some task → task.Recorded ∧
      ∃ earlier, call.task = some earlier ∧ task.pc = earlier.pc :=
  fun task present =>
    ⟨lifecycle.recorded task present, task, present, rfl⟩

theorem step (lifecycle : Lifecycle call) (shape : call.Shape)
    {statics : Statics} {next : Call α π} {counters : Counters}
    {signal : Signal}
    (step : ThreadStep statics call counters next signal) :
    Lifecycle next := by
  have absent : ∀ {pc}, call.pc = pc → pc.unsubmitted = true →
      call.task = none := by
    intro pc same early
    subst same
    exact shape.unsubmitted early
  cases step with
  | encodeEnter place | evaluate place _ | reserve place _ | listen place
  | park place _ | leave place | accept place _ | reject place _ _ =>
      exact of_unsubmitted (absent place rfl) rfl
  | wake place _ =>
      rcases place with place | ⟨seen, place⟩
      · exact of_unsubmitted (absent place rfl) rfl
      · exact of_unsubmitted (absent place rfl) rfl
  | submit place =>
      refine ⟨?_, ?_, ?_, by simp [CallPc.finish?, Call.setTask]⟩
      · intro task present
        cases present
        simp [Task.Recorded, Task.submitted, TaskPc.histories]
      · intro task result present same
        cases present
        cases same
      · intro _
        exact ⟨Task.submitted, rfl, rfl, by simp [Task.submitted, TaskPc.sent],
          fun _ => ⟨rfl, rfl⟩⟩
  | returnSlot place =>
      exact lifecycle.of_finish rfl (Call.finish?_close _ _) trivial
        lifecycle.recorded_same
  | cancelParked place =>
      exact lifecycle.of_finish rfl rfl trivial lifecycle.recorded_same
  | dropTag place tagged | notifyTag place =>
      exact lifecycle.of_finish rfl rfl
        (lifecycle.honest _ (by rw [place]; rfl)) lifecycle.recorded_same
  | @receive task result place submitted sent =>
      obtain ⟨own, present, awaited⟩ := lifecycle.awaited place
      rw [submitted] at present
      cases present
      have mine : result = call.f := by
        cases unsent : task.pc.sent with
        | true =>
            have delivered := awaited.delivered unsent
            rw [sent] at delivered
            exact Option.some.inj delivered
        | false =>
            rw [(awaited.unsent unsent).1] at sent
            cases sent
      refine lifecycle.of_finish rfl (Call.finish?_close _ _)
        (by rw [mine]; exact Finish.honest_ofResult _) ?_
      intro after present
      cases present
      exact ⟨lifecycle.recorded task submitted, task, submitted, rfl⟩
  | @channelClosed task place submitted empty closed =>
      obtain ⟨own, present, awaited⟩ := lifecycle.awaited place
      rw [submitted] at present
      cases present
      cases unsent : task.pc.sent with
      | true =>
          rw [awaited.delivered unsent] at empty
          cases empty
      | false =>
          rw [(awaited.unsent unsent).2] at closed
          cases closed
  | @cancelAwait task place submitted =>
      obtain ⟨own, present, awaited⟩ := lifecycle.awaited place
      rw [submitted] at present
      cases present
      refine lifecycle.of_finish rfl (Call.finish?_close _ _) trivial ?_
      intro after present
      cases present
      exact ⟨Task.recorded_receiverDropped (lifecycle.recorded task submitted)
        awaited.alive, task, submitted, rfl⟩
  | @task task after _ _ submitted step =>
      refine ⟨?_, ?_, ?_, lifecycle.honest⟩
      · intro current present
        cases present
        exact step.recorded (lifecycle.recorded task submitted)
      · intro current result present place
        cases present
        exact step.sends place
      · intro place
        obtain ⟨own, present, awaited⟩ := lifecycle.awaited place
        rw [submitted] at present
        cases present
        exact ⟨after, rfl, step.awaited
          (fun result here => lifecycle.sends task result submitted here)
          awaited⟩

end Lifecycle

def TaskPc.remaining : TaskPc α π → Nat
  | .queued => 7
  | .enterRunning => 6
  | .execute => 5
  | .send _ => 4
  | .leaveRunning => 3
  | .notifyRunning => 2
  | .releaseSlot => 1
  | .finished => 0

theorem TaskStep.remaining {before after : Counters} {f : Except π α}
    {task next : Task α π} {signal : Signal}
    (step : TaskStep before f task after next signal) :
    next.pc.remaining < task.pc.remaining := by
  cases step with
  | skip place _ | start place _ | enterRunning place | execute place
  | orphan place _ | complete place _ | leaveRunning place
  | notifyRunning place | releaseSlot place =>
      simp [place, TaskPc.remaining]

theorem exists_taskStep (counters : Counters) (f : Except π α)
    {task : Task α π} (unfinished : task.pc ≠ .finished) :
    ∃ after, taskStep counters f task = some after := by
  unfold taskStep
  cases place : task.pc with
  | finished => exact (unfinished place).elim
  | queued | send result =>
      dsimp only
      split_ifs <;> exact ⟨_, rfl⟩
  | enterRunning | execute | leaveRunning | notifyRunning | releaseSlot =>
      exact ⟨_, rfl⟩

theorem exists_deliver (signal : Signal) (calls : List (Call α π)) :
    ∃ target after, deliver signal target calls = some after := by
  have marks : ∀ additional, ∃ target after,
      markOne additional target calls = some after := by
    intro additional
    unfold markOne
    split_ifs with waiting
    · obtain ⟨call, member, waits⟩ := List.any_eq_true.mp waiting
      obtain ⟨target, current⟩ := List.getElem?_of_mem member
      refine ⟨target, calls.set target (call.mark additional), ?_⟩
      simp [current, waits]
    · exact ⟨0, calls, rfl⟩
  cases signal with
  | silent => exact ⟨0, calls, rfl⟩
  | notifyAll => exact ⟨0, _, rfl⟩
  | notify additional =>
      simp only [deliver]
      split_ifs
      · exact ⟨0, calls, rfl⟩
      · exact marks additional

theorem exists_step_task {state : State α π} {index : Nat} {call : Call α π}
    {task : Task α π} (current : state.calls[index]? = some call)
    (submitted : call.task = some task) (unfinished : task.pc ≠ .finished) :
    ∃ target next, state.step (.task index target) = some next := by
  obtain ⟨⟨counters, after, signal⟩, taken⟩ :=
    exists_taskStep state.statics.counters call.f unfinished
  obtain ⟨target, calls, delivered⟩ :=
    exists_deliver signal (state.calls.set index (call.setTask after))
  refine ⟨target, ?_⟩
  simp [State.step, current, submitted, taken, State.update, delivered]

theorem ThreadStep.task_remaining {statics : Statics}
    {call next : Call α π} {counters : Counters} {signal : Signal}
    (step : ThreadStep statics call counters next signal)
    (shape : call.Shape) {task : Task α π} (submitted : call.task = some task) :
    ∃ later, next.task = some later ∧
      later.pc.remaining ≤ task.pc.remaining := by
  cases step with
  | submit place =>
      rw [shape.unsubmitted (by rw [place]; rfl)] at submitted
      cases submitted
  | receive place present sent =>
      rw [submitted] at present
      cases present
      exact ⟨_, rfl, Nat.le_refl _⟩
  | cancelAwait place present =>
      rw [submitted] at present
      cases present
      exact ⟨_, rfl, Nat.le_refl _⟩
  | task present step =>
      rw [submitted] at present
      cases present
      exact ⟨_, rfl, Nat.le_of_lt step.remaining⟩
  | encodeEnter | evaluate | reserve | listen | park | wake | leave | accept
  | reject | returnSlot | channelClosed | dropTag | notifyTag
  | cancelParked => exact ⟨task, submitted, Nat.le_refl _⟩

theorem Marks.task {old new : Call α π} (marks : Marks old new) :
    new.task = old.task := by
  rw [marks.parts]
  rfl

theorem StateStep.task_remaining {state next : State α π}
    {label : Label α π} (step : StateStep state label next) {index : Nat}
    {call : Call α π} (current : state.calls[index]? = some call)
    (shape : call.Shape) {task : Task α π} (submitted : call.task = some task) :
    ∃ after later, next.calls[index]? = some after ∧
      after.task = some later ∧ later.pc.remaining ≤ task.pc.remaining := by
  obtain ⟨moved, after, placed, marks, moves⟩ := step.call_at current
  rcases moves with rfl | ⟨counters, signal, moves⟩
  · exact ⟨after, task, placed, marks.task.trans submitted, Nat.le_refl _⟩
  · obtain ⟨later, present, fewer⟩ := moves.task_remaining shape submitted
    exact ⟨after, later, placed, marks.task.trans present, fewer⟩

theorem task_remaining_lt {state next : State α π} {index target : Nat}
    {call : Call α π} {task : Task α π}
    (current : state.calls[index]? = some call)
    (submitted : call.task = some task)
    (taken : state.step (.task index target) = some next) :
    ∃ after later, next.calls[index]? = some after ∧
      after.task = some later ∧ later.pc.remaining < task.pc.remaining := by
  simp only [State.step, Option.bind_eq_bind, Option.bind_eq_some_iff,
    State.update, Option.map_eq_some_iff] at taken
  obtain ⟨other, here, running, present, ⟨counters, stepped, signal⟩, step,
    calls, delivered, rfl⟩ := taken
  rw [current] at here
  cases here
  rw [submitted] at present
  cases present
  have inside := (List.getElem?_eq_some_iff.mp current).1
  obtain ⟨after, placed, marks⟩ := getElem?_of_forall₂
    (deliver_marks delivered) (List.getElem?_set_self inside)
  exact ⟨after, stepped, placed, marks.task, (taskStep_iff.mp step).remaining⟩

theorem step_call_of_sent {state : State α π} {index : Nat} {call : Call α π}
    {task : Task α π} (current : state.calls[index]? = some call)
    (place : call.pc = .await) (submitted : call.task = some task)
    (sent : task.data = some call.f) (weak : Bool) (target : Nat) :
    ∃ next after, state.step (.call index weak target) = some next ∧
      next.calls[index]? = some after ∧
      after.pc.finish? = some (Finish.ofResult call.f) := by
  have polled : callStep state.statics weak call =
      some (state.statics.counters,
        (call.close (Finish.ofResult call.f)).setTask { task with data := none },
        .silent) := by
    unfold callStep
    cases result : call.f with
    | ok value | error panic =>
        rw [result] at sent
        simp [place, submitted, sent, Finish.ofResult]
  have inside := (List.getElem?_eq_some_iff.mp current).1
  have stepped : state.step (.call index weak target) =
      some
        { state with
          statics := { state.statics with counters := state.statics.counters }
          calls := state.calls.set index
            ((call.close (Finish.ofResult call.f)).setTask
              { task with data := none }) } := by
    simp [State.step, current, polled, State.update, deliver]
  exact ⟨_, _, stepped, List.getElem?_set_self inside,
    Call.finish?_close call _⟩

theorem TaskPc.histories_once (pc : TaskPc α π) :
    ∀ history ∈ pc.histories, history.2.count .executed ≤ 1 ∧
      history.2.countP TaskEvent.isOutcome ≤ 1 := by
  have checked : pc.histories.all (fun history =>
      history.2.count .executed ≤ 1 ∧
        history.2.countP TaskEvent.isOutcome ≤ 1) = true := by
    cases pc <;> rfl
  simpa only [List.all_eq_true, decide_eq_true_eq] using checked

theorem TaskPc.histories_finished :
    ∀ history ∈ (TaskPc.finished : TaskPc α π).histories,
      history.2.countP TaskEvent.isOutcome = 1 ∧
      (.executed ∉ history.2 ↔
        [.receiverDropped, .checked].Sublist history.2) := by
  have checked : (TaskPc.finished : TaskPc α π).histories.all (fun history =>
      history.2.countP TaskEvent.isOutcome = 1 ∧
        (.executed ∉ history.2 ↔
          [.receiverDropped, .checked].Sublist history.2)) = true := by
    rfl
  simpa only [List.all_eq_true, decide_eq_true_eq] using checked

/-- In every reachable state: a closure runs `f` at most once and reports at
most one outcome; when it has ended it has reported exactly one, and has left
`f` alone if and only if the receiver was dropped before the check; a call
ends with what its own `f` did, and never finds its channel closed; a poll
after the closure has sent finds the result; and a closure that has not ended
can go on, in steps that bring it to its end. -/
theorem task_lifecycle (parsed : Option Nat) (state : State α π)
    (reachable : Reachable State.step (State.initial parsed) state)
    (index : Nat) (call : Call α π)
    (current : state.calls[index]? = some call) :
    (∀ finish, call.pc.finish? = some finish → finish.Honest call.f) ∧
    ∀ task, call.task = some task →
      task.log.count .executed ≤ 1 ∧
      task.log.countP TaskEvent.isOutcome ≤ 1 ∧
      (task.pc = .finished →
        task.log.countP TaskEvent.isOutcome = 1 ∧
        (.executed ∉ task.log ↔
          [.receiverDropped, .checked].Sublist task.log)) ∧
      (call.pc = .await → task.pc.sent = true → ∀ weak target,
        ∃ next after, state.step (.call index weak target) = some next ∧
          next.calls[index]? = some after ∧
          after.pc.finish? = some (Finish.ofResult call.f)) ∧
      (task.pc ≠ .finished →
        ∃ target next, state.step (.task index target) = some next) ∧
      (∀ target next, state.step (.task index target) = some next →
        ∃ after later, next.calls[index]? = some after ∧
          after.task = some later ∧
          later.pc.remaining < task.pc.remaining) ∧
      ∀ label next, state.step label = some next →
        ∃ after later, next.calls[index]? = some after ∧
          after.task = some later ∧
          later.pc.remaining ≤ task.pc.remaining := by
  have closed : ∀ (state : State α π) label next,
      state.step label = some next →
      (∀ call ∈ state.calls, call.Shape ∧ Lifecycle call) →
      ∀ call ∈ next.calls, call.Shape ∧ Lifecycle call := by
    intro state label next taken
    refine (stateStep_of_step taken).forall_calls ?_ ?_ ?_
    · exact fun kind f => ⟨.start kind f, .start kind f⟩
    · exact fun additional call held =>
        ⟨held.1.mark additional, held.2.mark additional⟩
    · exact fun call counters after signal step held =>
        ⟨step.shape held.1, held.2.step held.1 step⟩
  obtain ⟨shape, lifecycle⟩ :=
    reachable.invariant closed (by simp [State.initial]) call
      (List.mem_of_getElem? current)
  refine ⟨lifecycle.honest, fun task submitted => ?_⟩
  have recorded := lifecycle.recorded task submitted
  obtain ⟨runs, outcomes⟩ := task.pc.histories_once _ recorded
  refine ⟨runs, outcomes, ?_, ?_, exists_step_task current submitted,
    fun _ _ => task_remaining_lt current submitted,
    fun _ _ taken => (stateStep_of_step taken).task_remaining current shape
      submitted⟩
  · intro ended
    unfold Task.Recorded at recorded
    rw [ended] at recorded
    exact TaskPc.histories_finished _ recorded
  · intro place sent
    obtain ⟨own, present, awaited⟩ := lifecycle.awaited place
    rw [submitted] at present
    cases present
    exact step_call_of_sent current place submitted (awaited.delivered sent)

/-- A caller gives up after the check, and `f` panics all the same. -/
def orphanedPanic : List (Label Nat Unit) :=
  [.spawn .blocking (.error ()), .call 0 true 0, .call 0 true 0, .task 0 0,
    .cancel 0 0] ++ List.replicate 6 (.task 0 0)

theorem task_lifecycle_orphanedPanic :
    ∃ (state : State Nat Unit) (call : Call Nat Unit) (task : Task Nat Unit),
      run State.step orphanedPanic (State.initial none) = some state ∧
      state.calls[0]? = some call ∧ call.task = some task ∧
      task.pc = .finished ∧ task.log.countP TaskEvent.isOutcome = 1 := by
  have passed : (run State.step orphanedPanic
      (State.initial none : State Nat Unit)).any (fun state =>
        match state.calls[0]? with
        | some call => call.task.any (·.pc == .finished)
        | none => false) = true := by
    decide
  obtain ⟨state, ended, facts⟩ := exists_run _ passed
  split at facts
  · next call current =>
      obtain ⟨task, submitted, finished⟩ :
          ∃ task, call.task = some task ∧ task.pc = .finished := by
        simpa [Option.any_eq_true] using facts
      obtain ⟨_, tasks⟩ := task_lifecycle none state ⟨_, ended⟩ 0 call current
      obtain ⟨_, _, outcome, _⟩ := tasks task submitted
      exact ⟨state, call, task, ended, current, submitted, finished,
        (outcome finished).1⟩
  · cases facts

end HoprUtilities.Parallelize
