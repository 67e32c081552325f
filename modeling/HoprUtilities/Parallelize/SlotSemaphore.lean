import HoprUtilities.Lib.Totals
import HoprUtilities.Parallelize.Accounting

/-!
# The slots as a semaphore

`try_acquire_slot` raises the counter before it looks at the limit, and a
rejected caller lowers it again in a step of its own.  In between the counter
exceeds the number of accepted tasks.  Here the two are told apart, and a
rejection is judged by the accepted tasks alone.
-/

namespace HoprUtilities.Parallelize

open HoprUtilities.Lib

variable {α π : Type}

def Finish.queueFull? : Finish α π → Option (Nat × Nat)
  | .queueFull current limit => some (current, limit)
  | _ => none

namespace Call

/-- The temporary increment of a rejected caller. -/
def temporary (call : Call α π) : Nat :=
  match call.pc with
  | .rejectSlot _ _ => 1
  | _ => 0

/-- The call is inside `try_acquire_slot`. -/
def isAcquiring (call : Call α π) : Bool :=
  match call.pc with
  | .acquireSlot | .rejectSlot _ _ => true
  | _ => false

/-- The fields of the `QueueFull` with which a call ends. -/
def queueFull? (call : Call α π) : Option (Nat × Nat) :=
  match call.pc with
  | .rejectSlot current limit => some (current, limit)
  | .dropTag finish | .notifyTag finish | .finished finish =>
      finish.queueFull?
  | _ => none

theorem guards_outstanding (call : Call α π) :
    call.guards .outstanding = call.acceptedTasks + call.temporary := by
  unfold guards acceptedTasks temporary
  cases call.pc <;> simp [CallPc.slotGuards, Nat.add_comm]

end Call

namespace State

/-- The accepted tasks that are outstanding. -/
def accepted (state : State α π) : Nat :=
  total Call.acceptedTasks state.calls

/-- The rejected callers that still count. -/
def temporary (state : State α π) : Nat := total Call.temporary state.calls

/-- The call at `index` is trying to acquire a slot while `limit` accepted
tasks are outstanding. -/
def triesWhenFull (state : State α π) (index limit : Nat) : Bool :=
  (state.calls[index]?).any Call.isAcquiring && state.accepted == limit

/-- The next step of the call is a `fetch_add` that finds no room. -/
def findsNoRoom (state : State α π) (call : Call α π) : Bool :=
  match call.pc, state.statics.queueLimit with
  | .acquireSlot, some limit => limit ≤ state.statics.counters .outstanding
  | _, _ => false

/-- A `fetch_add` that finds no room counts accepted tasks only. -/
def settled (state : State α π) : Label α π → Bool
  | .call index _ _ =>
      !(state.calls[index]?).any state.findsNoRoom || state.temporary == 0
  | _ => true

end State

/-- Every call that ends in `QueueFull` tried to acquire a slot at a moment at
which `limit` accepted tasks were outstanding, and reports no more of them. -/
def RejectsOnlyWhenFull (parsed : Option Nat) (labels : List (Label α π)) :
    Prop :=
  ∀ final, run State.step labels (State.initial parsed) = some final →
    ∀ index call current limit, final.calls[index]? = some call →
      call.queueFull? = some (current, limit) →
      current ≤ limit ∧
        ∃ moment ∈ moments State.step labels (State.initial parsed),
          moment.triesWhenFull index limit = true

/-- The counter is the accepted tasks and the temporary increments. -/
theorem Accounted.outstanding {limit : Option Nat} {state : State α π}
    (accounted : Accounted limit state) :
    state.statics.counters .outstanding =
      state.accepted + state.temporary := by
  rw [accounted.counted, State.accepted, State.temporary, ← total_add]
  exact total_congr (fun call _ => call.guards_outstanding)

/-- A caller that finds no room is rightly rejected if and only if no
temporary increment is counted. -/
theorem Accounted.rejection_exact {parsed : Option Nat} {state : State α π}
    (accounted : Accounted parsed state) {limit : Nat}
    (limited : state.statics.queueLimit = some limit)
    (full : limit ≤ state.statics.counters .outstanding) :
    (state.accepted = limit ∧ state.statics.counters .outstanding ≤ limit) ↔
      state.temporary = 0 := by
  have outstanding := accounted.outstanding
  have bounded : state.accepted ≤ limit :=
    accounted.accepted limit (accounted.limited.symm.trans limited)
  omega

namespace Call

@[simp] theorem queueFull?_setTask (call : Call α π) (task : Task α π) :
    (call.setTask task).queueFull? = call.queueFull? := rfl

@[simp] theorem queueFull?_setListener (call : Call α π)
    (listener : Option Listener) :
    (call.setListener listener).queueFull? = call.queueFull? := rfl

theorem queueFull?_close (call : Call α π) (finish : Finish α π) :
    (call.close finish).queueFull? = finish.queueFull? := by
  rcases call.close_cases finish with ⟨_, same⟩ | ⟨_, same⟩ <;> rw [same] <;>
    rfl

theorem queueFull?_start (kind : Kind) (f : Except π α) :
    (Call.start kind f).queueFull? = none := by
  cases kind <;> rfl

end Call

theorem Marks.queueFull? {old new : Call α π} (marks : Marks old new) :
    new.queueFull? = old.queueFull? := by
  rw [marks.parts, Call.queueFull?_setListener]

theorem ThreadStep.queueFull? {statics : Statics} {call next : Call α π}
    {counters : Counters} {signal : Signal}
    (step : ThreadStep statics call counters next signal)
    {current limit : Nat} (rejected : next.queueFull? = some (current, limit)) :
    call.queueFull? = some (current, limit) ∨
      call.pc = .acquireSlot ∧ statics.queueLimit = some limit ∧
        limit ≤ statics.counters .outstanding ∧
        current = statics.counters .outstanding := by
  cases step with
  | encodeEnter place | evaluate place _ | reserve place _ | listen place
  | park place _ | wake place _ | leave place | accept place _
  | submit place | cancelParked place => cases rejected
  | reject place limited full =>
      cases rejected
      exact .inr ⟨place, limited, Nat.le_of_lt_succ full, rfl⟩
  | returnSlot place =>
      rw [Call.queueFull?_close] at rejected
      cases rejected
      exact .inl (by simp [Call.queueFull?, place])
  | @receive task result place _ _ =>
      rw [Call.queueFull?_setTask, Call.queueFull?_close] at rejected
      cases result <;> cases rejected
  | channelClosed place _ _ _ =>
      rw [Call.queueFull?_close] at rejected
      cases rejected
  | cancelAwait place _ =>
      rw [Call.queueFull?_setTask, Call.queueFull?_close] at rejected
      cases rejected
  | dropTag place _ | notifyTag place =>
      exact .inl (by simpa only [Call.queueFull?, Call.goto_pc, place]
        using rejected)
  | task submitted step => exact .inl rejected

theorem StateStep.call_from {state next : State α π} {label : Label α π}
    (step : StateStep state label next) {index : Nat} {after : Call α π}
    (current : next.calls[index]? = some after) :
    (∃ kind f, after = Call.start kind f) ∨
      ∃ call moved, state.calls[index]? = some call ∧ Marks moved after ∧
        (moved = call ∨ ∃ counters signal, label.thread? = some index ∧
          ThreadStep state.statics call counters moved signal) := by
  have unmoved : state.calls[index]? = some after →
      ∃ call moved, state.calls[index]? = some call ∧ Marks moved after ∧
        (moved = call ∨ ∃ counters signal, label.thread? = some index ∧
          ThreadStep state.statics call counters moved signal) :=
    fun here => ⟨after, after, here, .inl rfl, .inl rfl⟩
  cases step with
  | spawn kind f =>
      rcases getElem?_concat_cases current with here | ⟨_, new⟩
      · exact .inr (unmoved here)
      · exact .inl ⟨kind, f, new⟩
  | thread moves here step delivered =>
      obtain ⟨moved, placed, marks⟩ :=
        getElem?_of_forall₂ (deliver_marks delivered).flip current
      rcases getElem?_set_cases placed with ⟨rfl, rfl⟩ | ⟨_, there⟩
      · exact .inr ⟨_, _, here, marks, .inr ⟨_, _, moves, step⟩⟩
      · exact .inr ⟨moved, moved, there, marks, .inl rfl⟩
  | configure once config => exact .inr (unmoved current)
  | config _ _ delivered =>
      obtain ⟨moved, placed, marks⟩ :=
        getElem?_of_forall₂ (deliver_marks delivered).flip current
      exact .inr ⟨moved, moved, placed, marks, .inl rfl⟩
  | initThreadPool numThreads => exact .inr (unmoved current)

/-- Every rejection was right at one of the past moments. -/
structure Explained (limit : Option Nat) (past : List (State α π))
    (state : State α π) : Prop where
  accounted : Accounted limit state
  rejections : ∀ index call current limit, state.calls[index]? = some call →
    call.queueFull? = some (current, limit) →
    current ≤ limit ∧ ∃ moment ∈ past, moment.triesWhenFull index limit = true

namespace Explained

variable {limit : Option Nat} {past : List (State α π)}
  {state next : State α π} {label : Label α π}

/-- A settled rejection happens when the accepted tasks take all slots. -/
theorem triesWhenFull (accounted : Accounted limit state)
    (settled : state.settled label = true) {index slots : Nat}
    {call : Call α π} (current : state.calls[index]? = some call)
    (place : call.pc = .acquireSlot)
    (limited : state.statics.queueLimit = some slots)
    (full : slots ≤ state.statics.counters .outstanding)
    (moves : ∃ weak target, label = .call index weak target) :
    state.statics.counters .outstanding ≤ slots ∧
      state.triesWhenFull index slots = true := by
  obtain ⟨weak, target, rfl⟩ := moves
  have none_counted : state.temporary = 0 := by
    simpa [State.settled, current, State.findsNoRoom, place, limited, full]
      using settled
  obtain ⟨all_taken, bounded⟩ :=
    (accounted.rejection_exact limited full).mpr none_counted
  refine ⟨bounded, ?_⟩
  simp [State.triesWhenFull, current, Call.isAcquiring, place, all_taken]

theorem polled {index : Nat} {call : Call α π}
    (taken : state.step label = some next)
    (moves : label.thread? = some index)
    (current : state.calls[index]? = some call) (shape : call.Shape)
    (place : call.pc = .acquireSlot) :
    ∃ weak target, label = .call index weak target := by
  have unsubmitted : call.task = none :=
    shape.unsubmitted (by rw [place]; rfl)
  cases label with
  | call other weak target =>
      cases moves
      exact ⟨weak, target, rfl⟩
  | cancel other target =>
      cases moves
      simp [State.step, current, cancelStep, place] at taken
  | task other target =>
      cases moves
      simp [State.step, current, unsubmitted] at taken
  | spawn | configure | config | initThreadPool => cases moves

theorem step (explained : Explained limit (past ++ [state]) state)
    (taken : restrict State.settled State.step state label = some next) :
    Explained limit (past ++ [state] ++ [next]) next := by
  obtain ⟨settled, stepped⟩ := step_of_restrict taken
  have accounted := explained.accounted
  have inverted := stateStep_of_step stepped
  refine ⟨accounted.step inverted, ?_⟩
  intro index after count slots here rejected
  rcases inverted.call_from here with
    ⟨kind, f, rfl⟩ | ⟨call, moved, current, marks, origin⟩
  · rw [Call.queueFull?_start] at rejected
    cases rejected
  · rw [marks.queueFull?] at rejected
    have earlier : call.queueFull? = some (count, slots) →
        count ≤ slots ∧ ∃ moment ∈ past ++ [state] ++ [next],
          moment.triesWhenFull index slots = true := by
      intro old
      obtain ⟨bounded, moment, member, full⟩ :=
        explained.rejections index call count slots current old
      exact ⟨bounded, moment, List.mem_append_left _ member, full⟩
    rcases origin with rfl | ⟨counters, signal, moves, moving⟩
    · exact earlier rejected
    · rcases moving.queueFull? rejected with
        old | ⟨place, limited, full, rfl⟩
      · exact earlier old
      · have shape := accounted.shapes call (List.mem_of_getElem? current)
        obtain ⟨bounded, tries⟩ :=
          triesWhenFull accounted settled current place limited full
            (polled stepped moves current shape place)
        exact ⟨bounded, state, by simp, tries⟩

end Explained

/-- While no temporary increment keeps a caller out, the slots behave like a
semaphore. -/
theorem rejectsOnlyWhenFull (parsed : Option Nat)
    (labels : List (Label α π)) (last : State α π)
    (ran : run (restrict State.settled State.step) labels
      (State.initial parsed) = some last) :
    RejectsOnlyWhenFull parsed labels := by
  have initially : Explained (parsed.filter (0 < ·))
      ([] ++ [State.initial parsed])
      (State.initial parsed : State α π) :=
    { accounted := Accounted.initial parsed
      rejections := by simp [State.initial] }
  have explained := run_history
    (fun _ _ _ _ taken explained => explained.step taken) ran initially
  rw [moments_of_restrict ran, List.nil_append] at explained
  intro final ended index call current limit here rejected
  rw [run_of_restrict ran] at ended
  cases ended
  exact explained.rejections index call current limit here rejected

/-- The one slot is taken, and the second caller is rejected. -/
theorem rejectsOnlyWhenFull_fullQueue :
    (run (restrict State.settled State.step) fullQueue
      (State.initial (some 1))).isSome = true ∧
    RejectsOnlyWhenFull (some 1) fullQueue := by
  have ended : (run (restrict State.settled State.step) fullQueue
      (State.initial (some 1))).isSome = true := by
    decide
  obtain ⟨last, ran⟩ := Option.isSome_iff_exists.mp ended
  exact ⟨ended, rejectsOnlyWhenFull (some 1) fullQueue last ran⟩

/-- Four callers and one slot.  The first one is accepted; the second one
raises the counter to two and rests there.  The third one reports two tasks.
The first task ends, and the fourth caller finds the counter at the limit,
although no task is left. -/
def overload : List (Label Nat Unit) :=
  [.spawn .blocking (.ok 0), .call 0 true 0, .call 0 true 0,
    .spawn .blocking (.ok 1), .call 1 true 0,
    .spawn .blocking (.ok 2), .call 2 true 0, .call 2 true 0,
    .task 0 0, .task 0 0, .task 0 0, .task 0 0, .task 0 0, .task 0 0,
    .task 0 0,
    .spawn .blocking (.ok 3), .call 3 true 0, .call 3 true 0]

/-- The third and the fourth caller are rejected for the sake of the second
one, and nobody holds the slot while the last of them asks for it. -/
theorem rejected_without_tasks :
    ¬ RejectsOnlyWhenFull (some 1) overload ∧
    (run State.step overload (State.initial (some 1))).any
      (fun final =>
        (final.calls[2]?).any (·.queueFull? == some (2, 1)) &&
        (final.calls[3]?).any (·.queueFull? == some (1, 1))) = true := by
  have ended : (run State.step overload (State.initial (some 1))).any
      (fun final =>
        (final.calls[2]?).any (·.queueFull? == some (2, 1)) &&
        (final.calls[3]?).any (·.queueFull? == some (1, 1))) = true := by
    decide
  have never : (moments State.step overload (State.initial (some 1))).all
      (fun moment => !moment.triesWhenFull 3 1) = true := by
    decide
  refine ⟨fun claimed => ?_, ended⟩
  obtain ⟨final, ran, rejected⟩ := exists_run _ ended
  simp only [Bool.and_eq_true, Option.any_eq_true, beq_iff_eq] at rejected
  obtain ⟨_, call, here, full⟩ := rejected
  obtain ⟨_, moment, member, tries⟩ := claimed final ran 3 call 1 1 here full
  have missed := List.all_eq_true.mp never moment member
  rw [tries] at missed
  cases missed

end HoprUtilities.Parallelize
