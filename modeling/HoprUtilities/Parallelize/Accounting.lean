import HoprUtilities.Parallelize.PoolStep

/-!
# The counters count live guards

`Shape` is what the place of a call says about its other parts, and
`Call.guards` counts the guards a call holds.  Every step changes a counter
exactly as it changes the guards of the call that moves, so each counter is
the number of live guards in every reachable state.
-/

namespace HoprUtilities.Parallelize

open HoprUtilities.Lib

variable {α π : Type}

def AdmitPc.listens : AdmitPc → Bool
  | .recheckEnabled _ | .retryReserve _ _ | .await _ | .parked _ _ => true
  | _ => false

/-- The places before the closure exists. -/
def CallPc.unsubmitted : CallPc α π → Bool
  | .encodeEnter | .admission _ | .acquireSlot | .rejectSlot _ _
  | .submit => true
  | _ => false

/-- The spawn function in which a place can be reached. -/
def CallPc.Fits (kind : Kind) : CallPc α π → Prop
  | .encodeEnter => kind = .encodeBlocking
  | .admission _ => kind = .decodeBlocking
  | .dropTag _ | .notifyTag _ => kind.tag.isSome = true
  | _ => True

structure Call.Shape (call : Call α π) : Prop where
  fits : call.pc.Fits call.kind
  unsubmitted : call.pc.unsubmitted = true → call.task = none
  listening : ∀ pc, call.pc = .admission pc → pc.listens = true →
    call.listener.isSome = true

namespace Call

@[simp] theorem goto_pc (call : Call α π) (pc : CallPc α π) :
    (call.goto pc).pc = pc := rfl

@[simp] theorem goto_task (call : Call α π) (pc : CallPc α π) :
    (call.goto pc).task = call.task := rfl

@[simp] theorem goto_kind (call : Call α π) (pc : CallPc α π) :
    (call.goto pc).kind = call.kind := rfl

theorem close_cases (call : Call α π) (finish : Finish α π) :
    call.kind.tag.isSome = true ∧
        call.close finish = call.goto (.dropTag finish) ∨
      call.kind.tag = none ∧
        call.close finish = call.goto (.finished finish) := by
  unfold close
  cases tagged : call.kind.tag with
  | none => exact .inr ⟨rfl, rfl⟩
  | some counter => exact .inl ⟨rfl, rfl⟩

theorem close_submitted (call : Call α π) (finish : Finish α π) :
    (call.close finish).pc.unsubmitted = false := by
  rcases call.close_cases finish with ⟨_, same⟩ | ⟨_, same⟩ <;> rw [same] <;>
    rfl

theorem close_ne_admission (call : Call α π) (finish : Finish α π)
    (pc : AdmitPc) : (call.close finish).pc ≠ .admission pc := by
  intro place
  have submitted := call.close_submitted finish
  rw [place] at submitted
  cases submitted

theorem mark_cases (additional : Bool) (call : Call α π) :
    call.mark additional = call ∨
      call.listener = some .waiting ∧
        call.mark additional =
          call.setListener (some (.notified additional)) := by
  unfold mark isWaiting
  split_ifs with waiting
  · exact .inr ⟨by simpa using waiting, rfl⟩
  · exact .inl rfl

namespace Shape

theorem start (kind : Kind) (f : Except π α) : (Call.start kind f).Shape := by
  cases kind with
  | blocking | fifoBlocking =>
      exact ⟨trivial, fun _ => rfl, by simp [Call.start]⟩
  | encodeBlocking => exact ⟨rfl, fun _ => rfl, by simp [Call.start]⟩
  | decodeBlocking =>
      refine ⟨rfl, fun _ => rfl, ?_⟩
      intro pc same
      cases same
      simp [AdmitPc.listens]

theorem mark {call : Call α π} (shape : call.Shape) (additional : Bool) :
    (call.mark additional).Shape := by
  rcases call.mark_cases additional with same | ⟨waiting, marked⟩
  · rw [same]
    exact shape
  · rw [marked]
    exact ⟨shape.fits, shape.unsubmitted, fun _ _ _ => rfl⟩

/-- A call that waits for nothing in the admission and has, or needs, no
closure. -/
theorem of_goto {call : Call α π} {pc : CallPc α π}
    (fits : pc.Fits call.kind)
    (unsubmitted : pc.unsubmitted = true → call.task = none)
    (outside : ∀ inner, pc ≠ .admission inner) : (call.goto pc).Shape :=
  ⟨fits, unsubmitted, fun inner same => (outside inner same).elim⟩

theorem of_close {call : Call α π} (finish : Finish α π) :
    (call.close finish).Shape := by
  rcases call.close_cases finish with ⟨tagged, same⟩ | ⟨_, same⟩
  · rw [same]
    exact of_goto tagged (by simp [CallPc.unsubmitted]) (by simp)
  · rw [same]
    exact of_goto trivial (by simp [CallPc.unsubmitted]) (by simp)

theorem setTask {call : Call α π} (shape : call.Shape) {task : Task α π}
    (submitted : call.pc.unsubmitted = false) : (call.setTask task).Shape :=
  ⟨shape.fits, fun early => absurd (submitted.symm.trans early) (by simp),
    shape.listening⟩

end Shape

end Call

theorem AdmitMove.listens {statics : Statics} {pc after : AdmitPc}
    (move : AdmitMove statics pc after) (listens : after.listens = true) :
    pc.listens = true := by
  cases move <;> simp_all [AdmitPc.listens]

namespace ThreadStep

variable {statics : Statics} {call next : Call α π} {counters : Counters}
  {signal : Signal}

theorem shape (step : ThreadStep statics call counters next signal)
    (shape : call.Shape) : next.Shape := by
  have submitted : ∀ {task}, call.task = some task →
      call.pc.unsubmitted = false := by
    intro task present
    by_contra early
    rw [shape.unsubmitted (by simpa using early)] at present
    cases present
  have unsubmitted : ∀ {pc}, call.pc = pc → pc.unsubmitted = true →
      call.task = none := by
    intro pc same early
    subst same
    exact shape.unsubmitted early
  have decodes : ∀ {pc}, call.pc = .admission pc →
      call.kind = .decodeBlocking := by
    intro pc place
    have fits := shape.fits
    rw [place] at fits
    exact fits
  cases step with
  | encodeEnter place =>
      exact .of_goto trivial (fun _ => unsubmitted place rfl) (by simp)
  | @evaluate pc after place move =>
      refine ⟨decodes place, fun _ => unsubmitted place rfl, ?_⟩
      intro current same listens
      cases same
      exact shape.listening pc place (move.listens listens)
  | reserve place reserves =>
      refine ⟨decodes place, fun _ => unsubmitted place rfl, ?_⟩
      intro current same listens
      cases same
      cases listens
  | listen place =>
      exact ⟨decodes place, fun _ => unsubmitted place rfl, fun _ _ _ => rfl⟩
  | park place unnotified =>
      exact ⟨decodes place, fun _ => unsubmitted place rfl,
        fun _ _ _ => shape.listening _ place rfl⟩
  | wake place notified =>
      have inside : call.kind = .decodeBlocking ∧ call.task = none := by
        rcases place with place | ⟨seen, place⟩
        · exact ⟨decodes place, unsubmitted place rfl⟩
        · exact ⟨decodes place, unsubmitted place rfl⟩
      refine ⟨inside.1, fun _ => inside.2, ?_⟩
      intro current same listens
      cases same
      cases listens
  | leave place =>
      exact .of_goto trivial (fun _ => unsubmitted place rfl) (by simp)
  | accept place room =>
      exact .of_goto trivial (fun _ => unsubmitted place rfl) (by simp)
  | reject place limited full =>
      exact .of_goto trivial (fun _ => unsubmitted place rfl) (by simp)
  | returnSlot place => exact .of_close _
  | submit place =>
      have awaiting : (call.goto .await).Shape :=
        .of_goto trivial (by simp [CallPc.unsubmitted]) (by simp)
      exact awaiting.setTask rfl
  | receive place present sent =>
      exact (Call.Shape.of_close _).setTask (Call.close_submitted _ _)
  | channelClosed place present empty closed => exact .of_close _
  | dropTag place tagged =>
      exact .of_goto (by simp [CallPc.Fits, tagged])
        (by simp [CallPc.unsubmitted]) (by simp)
  | notifyTag place =>
      exact .of_goto trivial (by simp [CallPc.unsubmitted]) (by simp)
  | cancelParked place =>
      exact .of_goto trivial (by simp [CallPc.unsubmitted]) (by simp)
  | cancelAwait place present =>
      exact (Call.Shape.of_close _).setTask (Call.close_submitted _ _)
  | task present step => exact shape.setTask (submitted present)

end ThreadStep

@[simp] def TaskPc.runningGuards : TaskPc α π → Nat
  | .execute | .send _ | .leaveRunning => 1
  | _ => 0

@[simp] def TaskPc.slotGuards : TaskPc α π → Nat
  | .finished => 0
  | _ => 1

/-- The `SlotGuard` of a future that has not handed it over to a closure. -/
@[simp] def CallPc.slotGuards : CallPc α π → Nat
  | .rejectSlot _ _ | .submit => 1
  | _ => 0

/-- The reservation of an admitter that is about to leave `admit_decode`. -/
def AdmitPc.tagGuards : AdmitPc → Nat
  | .leave => 1
  | _ => 0

/-- The `TaggedGuard` of a call, from the increment of its counter on. -/
@[simp] def CallPc.tagGuards : CallPc α π → Nat
  | .admission pc => pc.tagGuards
  | .acquireSlot | .rejectSlot _ _ | .submit | .await | .dropTag _ => 1
  | _ => 0

namespace Call

/-- What the closure of a call contributes, if it exists. -/
def ofTask (call : Call α π) (weight : TaskPc α π → Nat) : Nat :=
  match call.task with
  | some task => weight task.pc
  | none => 0

/-- The live guards of a call, by the counter they have raised. -/
def guards (call : Call α π) : Counter → Nat
  | .running => call.ofTask TaskPc.runningGuards
  | .outstanding => call.pc.slotGuards + call.ofTask TaskPc.slotGuards
  | .encodeOutstanding =>
      match call.kind with
      | .encodeBlocking => call.pc.tagGuards
      | _ => 0
  | .decodeOutstanding =>
      match call.kind with
      | .decodeBlocking => call.pc.tagGuards
      | _ => 0

def acceptedTasks (call : Call α π) : Nat :=
  (match call.pc with
    | .submit => 1
    | _ => 0) + call.ofTask TaskPc.slotGuards

theorem acceptedTasks_le_guards (call : Call α π) :
    call.acceptedTasks ≤ call.guards .outstanding := by
  unfold acceptedTasks guards
  apply Nat.add_le_add_right
  cases call.pc <;> simp [CallPc.slotGuards]

end Call

theorem Counters.fetchAdd_eq (counters : Counters) (raised counter : Counter) :
    counters.fetchAdd raised counter =
      counters counter + if counter = raised then 1 else 0 := by
  unfold fetchAdd
  split_ifs with same
  · rw [same]
  · rfl

theorem Counters.fetchSub_eq {counters : Counters} {lowered : Counter}
    (positive : 0 < counters lowered) (counter : Counter) :
    counters.fetchSub lowered counter +
      (if counter = lowered then 1 else 0) = counters counter := by
  unfold fetchSub
  split_ifs with same zero
  · omega
  · rw [same]
    omega
  · rfl

theorem AdmitMove.tagGuards {statics : Statics} {pc after : AdmitPc}
    (move : AdmitMove statics pc after) :
    pc.tagGuards = 0 ∧ after.tagGuards = 0 := by
  cases move <;> exact ⟨rfl, rfl⟩

theorem Reserves.tagGuards {statics : Statics} {pc : AdmitPc}
    (reserves : Reserves statics pc) : pc.tagGuards = 0 := by
  cases reserves <;> rfl

/-- How a step changes the counters, and the guards of the call that moves
with them. -/
inductive Shift (before : Counters) (call next : Call α π) :
    Counters → Prop where
  | none (same : ∀ counter, next.guards counter = call.guards counter) :
      Shift before call next before
  | raise (raised : Counter)
      (more : ∀ counter, next.guards counter =
        call.guards counter + if counter = raised then 1 else 0) :
      Shift before call next (before.fetchAdd raised)
  | lower (lowered : Counter)
      (fewer : ∀ counter, call.guards counter =
        next.guards counter + if counter = lowered then 1 else 0) :
      Shift before call next (before.fetchSub lowered)

theorem Shift.ledger {before after : Counters} {call next : Call α π}
    (shift : Shift before call next after)
    (covered : ∀ counter, call.guards counter ≤ before counter)
    (counter : Counter) :
    after counter + call.guards counter =
      before counter + next.guards counter := by
  cases shift with
  | none same => rw [same]
  | raise raised more =>
      rw [Counters.fetchAdd_eq, more]
      omega
  | lower lowered fewer =>
      have held := fewer lowered
      rw [if_pos rfl] at held
      have positive : 0 < before lowered :=
        Nat.lt_of_lt_of_le (by omega) (covered lowered)
      have lowers := Counters.fetchSub_eq positive counter
      rw [fewer]
      omega

@[simp] theorem Call.goto_ofTask (call : Call α π) (pc : CallPc α π)
    (weight : TaskPc α π → Nat) :
    (call.goto pc).ofTask weight = call.ofTask weight := rfl

theorem Call.guards_setListener (call : Call α π)
    (listener : Option Listener) :
    (call.setListener listener).guards = call.guards := by
  funext counter
  cases counter <;> rfl

theorem Call.guards_setTask {call : Call α π} {task after : Task α π}
    (submitted : call.task = some task) (same : after.pc = task.pc)
    (counter : Counter) :
    (call.setTask after).guards counter = call.guards counter := by
  cases counter <;> simp [guards, ofTask, setTask, submitted, same]

/-- Closing a call gives back its slot, if it still has one, and keeps the
tag. -/
theorem Call.guards_close {call : Call α π} (finish : Finish α π)
    (tagged : call.pc.tagGuards = 1) (counter : Counter) :
    call.guards counter =
      (call.close finish).guards counter +
        if counter = .outstanding then call.pc.slotGuards else 0 := by
  obtain ⟨kind, f, pc, listener, task⟩ := call
  cases kind <;> cases counter <;>
    simp_all [guards, close, goto, Kind.tag, ofTask, Nat.add_comm]

theorem Call.guards_close_await {call : Call α π} (finish : Finish α π)
    (place : call.pc = .await) (counter : Counter) :
    (call.close finish).guards counter = call.guards counter := by
  have closes := Call.guards_close finish (by rw [place]; rfl) counter
  rw [place] at closes
  simpa using closes.symm

theorem Call.guards_close_setTask {call : Call α π} (finish : Finish α π)
    (place : call.pc = .await) {task after : Task α π}
    (submitted : call.task = some task) (same : after.pc = task.pc)
    (counter : Counter) :
    ((call.close finish).setTask after).guards counter =
      call.guards counter := by
  have present : (call.close finish).task = some task := submitted
  rw [guards_setTask present same]
  exact guards_close_await finish place counter

theorem TaskStep.shift {before after : Counters} {call : Call α π}
    {task next : Task α π} {signal : Signal}
    (submitted : call.task = some task)
    (step : TaskStep before call.f task after next signal) :
    Shift before call (call.setTask next) after := by
  cases step with
  | skip place _ | start place _ | execute place | orphan place _
  | complete place _ | notifyRunning place =>
      refine .none fun counter => ?_
      cases counter <;>
        simp [Call.guards, Call.ofTask, Call.setTask, submitted, place]
  | enterRunning place =>
      refine .raise .running fun counter => ?_
      cases counter <;>
        simp [Call.guards, Call.ofTask, Call.setTask, submitted, place]
  | leaveRunning place =>
      refine .lower .running fun counter => ?_
      cases counter <;>
        simp [Call.guards, Call.ofTask, Call.setTask, submitted, place]
  | releaseSlot place =>
      refine .lower .outstanding fun counter => ?_
      cases counter <;>
        simp [Call.guards, Call.ofTask, Call.setTask, submitted, place]

namespace ThreadStep

theorem shift {statics : Statics} {call next : Call α π}
    {counters : Counters} {signal : Signal}
    (step : ThreadStep statics call counters next signal)
    (shape : call.Shape) : Shift statics.counters call next counters := by
  have fits := shape.fits
  cases step with
  | encodeEnter place =>
      have encodes : call.kind = .encodeBlocking := by
        rwa [place] at fits
      refine .raise .encodeOutstanding fun counter => ?_
      cases counter <;> simp [Call.guards, place, encodes]
  | evaluate place move =>
      obtain ⟨before, after⟩ := move.tagGuards
      refine .none fun counter => ?_
      cases counter <;>
        simp [Call.guards, Call.admitGoto, place, before, after]
  | reserve place reserves =>
      have decodes : call.kind = .decodeBlocking := by
        rwa [place] at fits
      refine .raise .decodeOutstanding fun counter => ?_
      cases counter <;>
        simp [Call.guards, Call.admitGoto, place, reserves.tagGuards, decodes]
      rfl
  | listen place =>
      refine .none fun counter => ?_
      change (call.goto _).guards counter = _
      cases counter <;> simp [Call.guards, place] <;> rfl
  | park place unnotified =>
      refine .none fun counter => ?_
      cases counter <;> simp [Call.guards, Call.admitGoto, place] <;> rfl
  | @wake gate place notified =>
      refine .none fun counter => ?_
      change (call.goto _).guards counter = _
      rcases place with place | ⟨seen, place⟩ <;> cases counter <;>
        simp [Call.guards, place] <;> rfl
  | leave place =>
      refine .none fun counter => ?_
      change (call.goto _).guards counter = _
      cases counter <;> simp [Call.guards, place] <;> rfl
  | accept place room =>
      refine .raise .outstanding fun counter => ?_
      cases counter <;> simp [Call.guards, place, Nat.add_comm]
  | reject place limited full =>
      refine .raise .outstanding fun counter => ?_
      cases counter <;> simp [Call.guards, place, Nat.add_comm]
  | @returnSlot current limit place =>
      refine .lower .outstanding fun counter => ?_
      have closes := Call.guards_close (.queueFull current limit)
        (by rw [place]; rfl) counter
      rwa [place] at closes
  | submit place =>
      have unsubmitted : call.task = none :=
        shape.unsubmitted (by rw [place]; rfl)
      refine .none fun counter => ?_
      cases counter <;>
        simp [Call.guards, Call.ofTask, Call.setTask, unsubmitted, place,
          Task.submitted]
  | receive place submitted sent =>
      exact .none (Call.guards_close_setTask _ place submitted rfl)
  | channelClosed place submitted empty closed =>
      exact .none (Call.guards_close_await _ place)
  | @dropTag finish lowered place tagged =>
      refine .lower lowered fun counter => ?_
      obtain ⟨kind, f, pc, listener, task⟩ := call
      cases place
      cases kind <;> cases tagged <;> cases counter <;>
        simp [Call.guards, Call.goto, Call.ofTask]
  | notifyTag place =>
      refine .none fun counter => ?_
      cases counter <;> simp [Call.guards, place]
  | cancelParked place =>
      refine .none fun counter => ?_
      change (call.goto _).guards counter = _
      cases counter <;> simp [Call.guards, place] <;> rfl
  | cancelAwait place submitted =>
      exact .none (Call.guards_close_setTask _ place submitted rfl)
  | task submitted step => exact step.shift submitted

end ThreadStep

namespace Call

theorem acceptedTasks_goto {call : Call α π} {pc : CallPc α π}
    (unaccepted : pc ≠ .submit) :
    (call.goto pc).acceptedTasks ≤ call.acceptedTasks := by
  apply Nat.add_le_add_right
  cases pc <;> first | exact Nat.zero_le _ | exact (unaccepted rfl).elim

theorem acceptedTasks_close (call : Call α π) (finish : Finish α π) :
    (call.close finish).acceptedTasks ≤ call.acceptedTasks := by
  rcases call.close_cases finish with ⟨_, same⟩ | ⟨_, same⟩ <;> rw [same] <;>
    exact acceptedTasks_goto (by simp)

theorem acceptedTasks_setTask {call : Call α π} {task after : Task α π}
    (submitted : call.task = some task)
    (kept : after.pc.slotGuards ≤ task.pc.slotGuards) :
    (call.setTask after).acceptedTasks ≤ call.acceptedTasks := by
  apply Nat.add_le_add_left
  simpa [ofTask, setTask, submitted] using kept

end Call

theorem TaskStep.slotGuards {before after : Counters} {f : Except π α}
    {task next : Task α π} {signal : Signal}
    (step : TaskStep before f task after next signal) :
    next.pc.slotGuards ≤ task.pc.slotGuards := by
  cases step with
  | skip place _ | start place _ | enterRunning place | execute place
  | orphan place _ | complete place _ | leaveRunning place
  | notifyRunning place | releaseSlot place => simp [place]

theorem ThreadStep.acceptedTasks {statics : Statics} {call next : Call α π}
    {counters : Counters} {signal : Signal}
    (step : ThreadStep statics call counters next signal)
    (shape : call.Shape) :
    next.acceptedTasks ≤ call.acceptedTasks ∨
      next.acceptedTasks ≤ call.acceptedTasks + 1 ∧
        ∀ limit, statics.queueLimit = some limit →
          statics.counters .outstanding + 1 ≤ limit := by
  cases step with
  | encodeEnter place | evaluate place _ | reserve place _ | park place _
  | reject place _ _ | dropTag place _ | notifyTag place | listen place
  | wake place _ | leave place | cancelParked place =>
      exact .inl (Call.acceptedTasks_goto (by simp))
  | accept place room =>
      refine .inr ⟨?_, room⟩
      simp only [Call.acceptedTasks, Call.goto_pc, Call.goto_ofTask]
      omega
  | returnSlot place | channelClosed place _ _ _ =>
      exact .inl (Call.acceptedTasks_close _ _)
  | submit place =>
      have unsubmitted : call.task = none :=
        shape.unsubmitted (by rw [place]; rfl)
      exact .inl (by simp [Call.acceptedTasks, Call.setTask, Call.ofTask, place,
        Task.submitted])
  | @receive _ result place submitted _ =>
      exact .inl (Nat.le_trans
        (Call.acceptedTasks_setTask submitted (Nat.le_refl _))
        (call.acceptedTasks_close (Finish.ofResult result)))
  | cancelAwait place submitted =>
      exact .inl (Nat.le_trans
        (Call.acceptedTasks_setTask submitted (Nat.le_refl _))
        (call.acceptedTasks_close .dropped))
  | task submitted step =>
      exact .inl (Call.acceptedTasks_setTask submitted step.slotGuards)

theorem Marks.parts {old new : Call α π} (marks : Marks old new) :
    new = old.setListener new.listener := by
  rcases marks with rfl | ⟨additional, rfl⟩
  · rfl
  · rcases old.mark_cases additional with same | ⟨_, same⟩
    · rw [same]
      rfl
    · rw [same]
      rfl

theorem Marks.guards {old new : Call α π} (marks : Marks old new)
    (counter : Counter) : new.guards counter = old.guards counter := by
  rw [marks.parts, Call.guards_setListener]

theorem Marks.acceptedTasks {old new : Call α π} (marks : Marks old new) :
    new.acceptedTasks = old.acceptedTasks := by
  rw [marks.parts]
  rfl

theorem Call.guards_start (kind : Kind) (f : Except π α) (counter : Counter) :
    (Call.start kind f).guards counter = 0 := by
  cases kind <;> cases counter <;> rfl

theorem Call.acceptedTasks_start (kind : Kind) (f : Except π α) :
    (Call.start kind f).acceptedTasks = 0 := by
  cases kind <;> rfl

structure Accounted (limit : Option Nat) (state : State α π) : Prop where
  shapes : ∀ call ∈ state.calls, call.Shape
  counted : ∀ counter, state.statics.counters counter =
    total (·.guards counter) state.calls
  limited : state.statics.queueLimit = limit
  accepted : ∀ slots, limit = some slots →
    total Call.acceptedTasks state.calls ≤ slots

namespace Accounted

variable {limit : Option Nat} {state next : State α π} {label : Label α π}

theorem initial (parsed : Option Nat) :
    Accounted (parsed.filter (0 < ·)) (State.initial parsed : State α π) :=
  ⟨by simp [State.initial], fun _ => rfl, rfl, fun _ _ => Nat.zero_le _⟩

theorem covered (accounted : Accounted limit state) {call : Call α π}
    (member : call ∈ state.calls) (counter : Counter) :
    call.guards counter ≤ state.statics.counters counter := by
  rw [accounted.counted]
  exact weight_le_total (fun call => call.guards counter) member

theorem step (accounted : Accounted limit state)
    (step : StateStep state label next) : Accounted limit next := by
  have unmarked : ∀ counter (old new : Call α π), Marks old new →
      new.guards counter = old.guards counter :=
    fun counter _ _ marks => marks.guards counter
  refine ⟨step.forall_calls Call.Shape.start (fun _ _ shape => shape.mark _)
    (fun _ _ _ _ => ThreadStep.shape) accounted.shapes, ?_, ?_, ?_⟩
  · intro counter
    have before := accounted.counted counter
    cases step with
    | spawn kind f =>
        rw [total_append, total_cons, Call.guards_start]
        exact before
    | thread moves current step delivered =>
        have member := List.mem_of_getElem? current
        have ledger := (step.shift (accounted.shapes _ member)).ledger
          (accounted.covered member) counter
        have moved := total_deliver_set _ (unmarked counter) current delivered
        dsimp only
        omega
    | configure once config => exact before
    | config current step delivered =>
        exact before.trans
          (total_of_forall₂ (deliver_marks delivered) (unmarked counter)).symm
    | initThreadPool numThreads => exact before
  · cases step <;> exact accounted.limited
  · intro slots bounded
    have before := accounted.accepted slots bounded
    cases step with
    | spawn kind f =>
        rw [total_append, total_cons, Call.acceptedTasks_start]
        exact before
    | thread moves current step delivered =>
        have moved := total_deliver_set Call.acceptedTasks
          (fun _ _ marks => marks.acceptedTasks) current delivered
        rcases step.acceptedTasks
            (accounted.shapes _ (List.mem_of_getElem? current)) with
          fewer | ⟨one, room⟩
        · dsimp only
          omega
        · have slot := room slots (accounted.limited.trans bounded)
          have held := accounted.counted .outstanding
          have below : total Call.acceptedTasks state.calls ≤
              total (fun call => call.guards .outstanding) state.calls :=
            total_le_total Call.acceptedTasks_le_guards
          dsimp only
          omega
    | configure once config => exact before
    | config current step delivered =>
        dsimp only
        rw [total_of_forall₂ (deliver_marks delivered)
          (fun _ _ marks => Marks.acceptedTasks marks)]
        exact before
    | initThreadPool numThreads => exact before

end Accounted

/-- In every reachable state the pool is accounted for. -/
theorem accounted_of_reachable {parsed : Option Nat} {state : State α π}
    (reachable : Reachable State.step (State.initial parsed) state) :
    Accounted (parsed.filter (0 < ·)) state :=
  reachable.invariant
    (fun _ _ _ taken accounted => accounted.step (stateStep_of_step taken))
    (Accounted.initial parsed)

def CallPc.isFinished : CallPc α π → Bool
  | .finished _ => true
  | _ => false

def TaskPc.isFinished : TaskPc α π → Bool
  | .finished => true
  | _ => false

/-- A call whose future and whose closure have ended. -/
def Call.isOver (call : Call α π) : Bool :=
  call.pc.isFinished && call.task.all (·.pc.isFinished)

theorem CallPc.guards_isFinished {pc : CallPc α π}
    (finished : pc.isFinished = true) :
    pc.slotGuards = 0 ∧ pc.tagGuards = 0 := by
  cases pc with
  | finished => exact ⟨rfl, rfl⟩
  | _ => cases finished

theorem TaskPc.guards_isFinished {pc : TaskPc α π}
    (finished : pc.isFinished = true) :
    pc.slotGuards = 0 ∧ pc.runningGuards = 0 := by
  cases pc with
  | finished => exact ⟨rfl, rfl⟩
  | _ => cases finished

theorem Call.guards_isOver {call : Call α π} (isOver : call.isOver = true)
    (counter : Counter) : call.guards counter = 0 := by
  simp only [Call.isOver, Bool.and_eq_true] at isOver
  obtain ⟨slot, tag⟩ := CallPc.guards_isFinished isOver.1
  have closure : call.ofTask TaskPc.slotGuards = 0 ∧
      call.ofTask TaskPc.runningGuards = 0 := by
    unfold ofTask
    cases submitted : call.task with
    | none => exact ⟨rfl, rfl⟩
    | some task =>
        have finished := isOver.2
        rw [submitted] at finished
        exact TaskPc.guards_isFinished finished
  cases counter with
  | running => exact closure.2
  | outstanding => simp only [guards, slot, closure.1]
  | encodeOutstanding | decodeOutstanding =>
      simp only [guards, tag]
      split <;> rfl

theorem Shift.adjacent {before after : Counters} {call next : Call α π}
    (shift : Shift before call next after)
    (covered : ∀ counter, call.guards counter ≤ before counter)
    (counter : Counter) :
    after counter ≤ before counter + 1 ∧
      before counter ≤ after counter + 1 := by
  have ledger := shift.ledger covered counter
  cases shift with
  | none same => omega
  | raise raised more =>
      have grown := more counter
      split_ifs at grown <;> omega
  | lower lowered fewer =>
      have shrunk := fewer counter
      split_ifs at shrunk <;> omega

/-- The counters are exact in every reachable state: each is the number of
live guards, no update wraps, they are zero when all calls are over, and the
accepted tasks keep to the limit. -/
theorem counters_exact (parsed : Option Nat) (state : State α π)
    (reachable : Reachable State.step (State.initial parsed) state) :
    (∀ counter, state.statics.counters counter =
      total (·.guards counter) state.calls) ∧
    (∀ label next, state.step label = some next → ∀ counter,
      next.statics.counters counter ≤ state.statics.counters counter + 1 ∧
      state.statics.counters counter ≤
        next.statics.counters counter + 1) ∧
    ((∀ call ∈ state.calls, call.isOver = true) → ∀ counter,
      state.statics.counters counter = 0) ∧
    (∀ limit, parsed = some limit → 0 < limit →
      total Call.acceptedTasks state.calls ≤ limit) := by
  have accounted := accounted_of_reachable reachable
  refine ⟨accounted.counted, ?_, ?_, ?_⟩
  · intro label next taken counter
    cases stateStep_of_step taken with
    | thread moves current step delivered =>
        have member := List.mem_of_getElem? current
        exact (step.shift (accounted.shapes _ member)).adjacent
          (accounted.covered member) counter
    | spawn | configure | config | initThreadPool =>
        exact ⟨Nat.le_succ _, Nat.le_succ _⟩
  · intro allOver counter
    rw [accounted.counted]
    exact total_eq_zero fun call member =>
      Call.guards_isOver (allOver call member) counter
  · intro limit same positive
    subst same
    exact accounted.accepted limit (by simp [positive])

/-- A decode task is admitted and submitted under a limit of one, a second
call finds the queue full. -/
def fullQueue : List (Label Nat Unit) :=
  [.spawn .decodeBlocking (.ok 7), .call 0 true 0, .call 0 true 0,
    .call 0 true 0, .call 0 true 0, .call 0 true 0, .call 0 true 0,
    .spawn .fifoBlocking (.ok 8), .call 1 true 0]

theorem counters_exact_fullQueue :
    ∃ state : State Nat Unit,
      run State.step fullQueue (State.initial (some 1)) = some state ∧
      state.statics.counters .outstanding = 2 ∧
      total Call.acceptedTasks state.calls ≤ 1 := by
  have passed : (run State.step fullQueue
      (State.initial (some 1) : State Nat Unit)).any
        (·.statics.counters .outstanding == 2) = true := by
    decide
  obtain ⟨state, ended, outstanding⟩ := exists_run _ passed
  obtain ⟨_, _, _, limited⟩ := counters_exact (some 1) state ⟨_, ended⟩
  exact ⟨state, ended, by simpa using outstanding,
    limited 1 rfl (by decide)⟩

end HoprUtilities.Parallelize
