import HoprUtilities.Parallelize.AdmissionCap
import HoprUtilities.Parallelize.Accounting

/-!
# No admitter is stranded

An admitter that will wait without a notification has, after registering its
listener, seen a decode task in the pool.  From then on there is always
somebody who is going to wake an admitter: the holder of a guard, a drop that
still owes its notification, an admitter that was notified, or one that has
yet to look at the counters.  `Sustains` lists these, and the invariant is
that one of them exists as long as some admitter is `Committed` to wait.
-/

namespace HoprUtilities.Parallelize

open HoprUtilities.Lib

variable {α π : Type}

def TryPc.sawDecode : TryPc → Bool
  | .loadDec => false
  | .loadRunning dec | .loadEnc dec _ | .compareExchange dec => decide (0 < dec)

/-- The places from which `admit_decode` may go on to wait without loading
`DECODE_OUTSTANDING` again. -/
def AdmitPc.committed : AdmitPc → Bool
  | .retryReserve _ pc => pc.sawDecode
  | .await _ | .parked _ _ => true
  | _ => false

def AdmitPc.isParked : AdmitPc → Bool
  | .parked _ _ => true
  | _ => false

def CallPc.holdsTag : CallPc α π → Bool
  | .acquireSlot | .rejectSlot _ _ | .submit | .await | .dropTag _ => true
  | _ => false

def TaskPc.holdsRunning : TaskPc α π → Bool
  | .execute | .send _ | .leaveRunning => true
  | _ => false

namespace Call

/-- An admitter that has not been notified and may wait. -/
structure Committed (call : Call α π) : Prop where
  waiting : call.isWaiting = true
  place : ∃ pc, call.pc = .admission pc ∧ pc.committed = true

/-- A call that is going to wake an admitter, or to look at the counters
itself. -/
inductive Sustains (call : Call α π) : Prop where
  | tagged (hasTag : call.kind.tag.isSome = true)
      (holds : call.pc.holdsTag = true)
  | running {task : Task α π} (submitted : call.task = some task)
      (holds : task.pc.holdsRunning = true)
  | owesTag {finish : Finish α π} (place : call.pc = .notifyTag finish)
  | owesRunning {task : Task α π} (submitted : call.task = some task)
      (place : task.pc = .notifyRunning)
  | notified (marked : call.isNotified = true)
  | evaluating {pc : AdmitPc} (place : call.pc = .admission pc)
      (polled : pc.isParked = false) (free : ¬call.Committed)

theorem not_isNotified_of_isWaiting {call : Call α π}
    (waiting : call.isWaiting = true) : call.isNotified = false := by
  have registered : call.listener = some .waiting := by
    simpa [isWaiting] using waiting
  simp [isNotified, registered]

theorem isWaiting_of_listening {call : Call α π}
    (registered : call.listener.isSome = true)
    (unnotified : call.isNotified = false) : call.isWaiting = true := by
  unfold isNotified at unnotified
  unfold isWaiting
  cases listener : call.listener with
  | none => simp [listener] at registered
  | some current =>
      cases current with
      | waiting => rfl
      | notified additional => simp [listener] at unnotified

theorem handOn_of_isNotified {call : Call α π}
    (marked : call.isNotified = true) :
    ∃ additional, call.handOn = .notify additional := by
  unfold isNotified at marked
  unfold handOn
  split at marked
  · next additional registered => exact ⟨additional, rfl⟩
  · cases marked

theorem Committed.not_sustains {call : Call α π} (committed : call.Committed)
    (shape : call.Shape) : ¬call.Sustains := by
  obtain ⟨waiting, pc, place, _⟩ := committed
  have unsubmitted : call.task = none :=
    shape.unsubmitted (by rw [place]; rfl)
  intro sustains
  cases sustains with
  | tagged _ holds =>
      rw [place] at holds
      cases holds
  | running submitted _ | owesRunning submitted _ =>
      rw [unsubmitted] at submitted
      cases submitted
  | owesTag other =>
      rw [place] at other
      cases other
  | notified marked =>
      rw [not_isNotified_of_isWaiting waiting] at marked
      cases marked
  | evaluating _ _ free => exact free ⟨waiting, pc, place, ‹_›⟩

theorem sustains_of_guards {call : Call α π}
    (counts : 0 < call.guards .decodeOutstanding) : call.Sustains := by
  obtain ⟨kind, f, pc, listener, task⟩ := call
  cases kind with
  | decodeBlocking =>
      cases pc with
      | admission pc =>
          cases pc with
          | leave =>
              refine .evaluating rfl rfl ?_
              intro premise
              obtain ⟨_, pc, place, commits⟩ := premise
              cases place
              cases commits
          | _ => cases counts
      | acquireSlot | rejectSlot | submit | await | dropTag =>
          exact .tagged rfl rfl
      | encodeEnter | notifyTag | finished => cases counts
  | _ => cases counts

end Call

/-- The decode task that a load of `DECODE_OUTSTANDING` has seen is somebody
else's. -/
def SeesDecode (statics : Statics) (call : Call α π) : Prop :=
  0 < statics.counters .decodeOutstanding ∧
    call.guards .decodeOutstanding = 0

theorem TryStep.sawDecode {gate : Gate} {counters : Counters}
    {pc after : TryPc} (step : TryStep gate counters pc (.next after))
    (saw : after.sawDecode = true) :
    pc.sawDecode = true ∨ 0 < counters .decodeOutstanding := by
  cases step with
  | loadDec => exact .inr (by simpa [TryPc.sawDecode] using saw)
  | loadRunning | pass => exact .inl saw
  | retry => cases saw

theorem TryStep.sawDecode_of_refused {gate : Gate} {counters : Counters}
    {pc : TryPc} (step : TryStep gate counters pc (.returned false)) :
    pc.sawDecode = true := by
  cases step with
  | @refuse dec running full =>
      have positive := gate.limit_pos running dec (counters .encodeOutstanding)
      simp only [TryPc.sawDecode, decide_eq_true_eq]
      omega

theorem AdmitMove.committed {statics : Statics} {pc after : AdmitPc}
    (move : AdmitMove statics pc after) (commits : after.committed = true) :
    pc.committed = true ∨ 0 < statics.counters .decodeOutstanding := by
  cases move with
  | retryNext step => exact step.sawDecode commits
  | retryRefused step => exact .inl step.sawDecode_of_refused
  | stillEnabled => cases commits
  | _ => cases commits

theorem AdmitMove.polled {statics : Statics} {pc after : AdmitPc}
    (move : AdmitMove statics pc after) : after.isParked = false := by
  cases move <;> rfl

namespace ThreadStep

variable {statics : Statics} {call next : Call α π} {counters : Counters}
  {signal : Signal}

/-- A call becomes committed only by seeing the decode task of another. -/
theorem committed (step : ThreadStep statics call counters next signal)
    (after : next.Committed) :
    call.Committed ∨ SeesDecode statics call := by
  obtain ⟨waiting, pc, place, commits⟩ := after
  cases step with
  | @evaluate before _ here move =>
      cases place
      rcases move.committed commits with already | positive
      · exact .inl ⟨waiting, before, here, already⟩
      · refine .inr ⟨positive, ?_⟩
        simp only [Call.guards, here, CallPc.tagGuards, move.tagGuards.1]
        split <;> rfl
  | park here unnotified => exact .inl ⟨waiting, _, here, rfl⟩
  | task submitted step => exact .inl ⟨waiting, pc, place, commits⟩
  | reserve | listen | wake =>
      cases place
      cases commits
  | encodeEnter | leave | accept | reject | submit | dropTag | notifyTag
  | cancelParked => cases place
  | returnSlot | channelClosed | receive | cancelAwait =>
      exact (Call.close_ne_admission _ _ _ place).elim

/-- The guard of a call and what it owes survive a step of its future. -/
theorem sustains_of_place (sustains : call.Sustains) {pc : CallPc α π}
    (held : call.pc.holdsTag = true → pc.holdsTag = true)
    (owed : ∀ finish, call.pc ≠ .notifyTag finish)
    (outside : ∀ inner, call.pc ≠ .admission inner) :
    (call.goto pc).Sustains := by
  cases sustains with
  | tagged hasTag holds => exact .tagged hasTag (held holds)
  | running submitted holds => exact .running submitted holds
  | owesTag place => exact (owed _ place).elim
  | owesRunning submitted place => exact .owesRunning submitted place
  | notified marked => exact .notified marked
  | evaluating place _ _ => exact (outside _ place).elim

theorem sustains_close (sustains : call.Sustains) (finish : Finish α π)
    (holds : call.pc.holdsTag = true) : (call.close finish).Sustains := by
  rcases call.close_cases finish with ⟨tagged, same⟩ | ⟨untagged, same⟩
  · rw [same]
    exact .tagged tagged rfl
  · rw [same]
    cases sustains with
    | tagged hasTag _ =>
        rw [untagged] at hasTag
        cases hasTag
    | running submitted holds => exact .running submitted holds
    | owesTag place =>
        rw [place] at holds
        cases holds
    | owesRunning submitted place => exact .owesRunning submitted place
    | notified marked => exact .notified marked
    | evaluating place _ _ =>
        rw [place] at holds
        cases holds

theorem sustains_setTask (sustains : call.Sustains) {task after : Task α π}
    (submitted : call.task = some task) (same : after.pc = task.pc) :
    (call.setTask after).Sustains := by
  cases sustains with
  | tagged hasTag holds => exact .tagged hasTag holds
  | running present holds =>
      rw [submitted] at present
      cases present
      exact .running rfl (by rw [same]; exact holds)
  | owesTag place => exact .owesTag place
  | owesRunning present place =>
      rw [submitted] at present
      cases present
      exact .owesRunning rfl (same.trans place)
  | notified marked => exact .notified marked
  | evaluating place polled free =>
      exact .evaluating place polled fun ⟨waiting, committed⟩ =>
        free ⟨waiting, committed⟩

end ThreadStep

/-- A closure that holds its guard keeps it or owes the notification. -/
theorem TaskStep.sustains {before after : Counters} {call : Call α π}
    {task next : Task α π} {signal : Signal}
    (step : TaskStep before call.f task after next signal)
    (submitted : call.task = some task) (silent : signal = .silent)
    (sustains : call.Sustains) : (call.setTask next).Sustains := by
  cases sustains with
  | tagged hasTag holds => exact .tagged hasTag holds
  | running present holds =>
      rw [submitted] at present
      cases present
      cases step with
      | execute | orphan | complete => exact .running rfl rfl
      | leaveRunning => exact .owesRunning rfl rfl
      | skip place | start place | enterRunning place | notifyRunning place
      | releaseSlot place =>
          rw [place] at holds
          cases holds
  | owesTag place => exact .owesTag place
  | owesRunning present place =>
      rw [submitted] at present
      cases present
      cases step with
      | notifyRunning => cases silent
      | skip other | start other | enterRunning other | execute other
      | orphan other | complete other | leaveRunning other
      | releaseSlot other =>
          rw [place] at other
          cases other
  | notified marked => exact .notified marked
  | evaluating place polled free =>
      exact .evaluating place polled fun ⟨waiting, committed⟩ =>
        free ⟨waiting, committed⟩

theorem ThreadStep.sustains {statics : Statics} {call next : Call α π}
    {counters : Counters} {signal : Signal}
    (step : ThreadStep statics call counters next signal)
    (shape : call.Shape) (silent : signal = .silent)
    (sustains : call.Sustains) :
    next.Sustains ∨ SeesDecode statics call := by
  have fits := shape.fits
  have free : ∀ {current : Call α π} {pc : AdmitPc},
      current.pc = .admission pc → pc.committed = false →
      ¬current.Committed := by
    intro current pc place notCommitted premise
    obtain ⟨_, other, same, commits⟩ := premise
    rw [place] at same
    cases same
    rw [notCommitted] at commits
    cases commits
  cases step with
  | encodeEnter place =>
      have encodes : call.kind = .encodeBlocking := by
        rwa [place] at fits
      exact .inl (.tagged (by rw [Call.goto_kind, encodes]; rfl) rfl)
  | @evaluate _ after place move =>
      by_cases commits : (call.admitGoto after).Committed
      · rcases (ThreadStep.evaluate place move).committed commits with
          already | sees
        · exact (already.not_sustains shape sustains).elim
        · exact .inr sees
      · exact .inl (.evaluating rfl move.polled commits)
  | reserve | listen | wake => exact .inl (.evaluating rfl rfl (free rfl rfl))
  | park place unnotified =>
      have waiting := Call.isWaiting_of_listening
        (shape.listening _ place rfl) unnotified
      have committed : call.Committed := ⟨waiting, _, place, rfl⟩
      exact (committed.not_sustains shape sustains).elim
  | leave place =>
      have decodes : call.kind = .decodeBlocking := by
        rwa [place] at fits
      refine .inl (.tagged ?_ rfl)
      change call.kind.tag.isSome = true
      rw [decodes]
      rfl
  | accept place room | reject place limited full =>
      exact .inl (sustains_of_place sustains (fun _ => rfl) (by simp [place])
        (by simp [place]))
  | returnSlot place =>
      exact .inl (sustains_close sustains _ (by rw [place]; rfl))
  | submit place =>
      have unsubmitted : call.task = none :=
        shape.unsubmitted (by rw [place]; rfl)
      refine .inl ?_
      cases sustains with
      | tagged hasTag _ => exact .tagged hasTag rfl
      | notified marked => exact .notified marked
      | running submitted _ | owesRunning submitted _ =>
          rw [unsubmitted] at submitted
          cases submitted
      | owesTag other | evaluating other _ _ =>
          rw [place] at other
          cases other
  | receive place submitted sent =>
      exact .inl (sustains_setTask
        (sustains_close sustains _ (by rw [place]; rfl)) submitted rfl)
  | channelClosed place submitted empty closed =>
      exact .inl (sustains_close sustains _ (by rw [place]; rfl))
  | dropTag place tagged => exact .inl (.owesTag rfl)
  | notifyTag place => cases silent
  | cancelParked place =>
      have unsubmitted : call.task = none :=
        shape.unsubmitted (by rw [place]; rfl)
      cases sustains with
      | tagged _ holds =>
          rw [place] at holds
          cases holds
      | running submitted _ | owesRunning submitted _ =>
          rw [unsubmitted] at submitted
          cases submitted
      | owesTag other =>
          rw [place] at other
          cases other
      | notified marked =>
          obtain ⟨additional, notifies⟩ := Call.handOn_of_isNotified marked
          rw [silent] at notifies
          cases notifies
      | evaluating other polled _ =>
          rw [place] at other
          cases other
          cases polled
  | cancelAwait place submitted =>
      exact .inl (sustains_setTask
        (sustains_close sustains _ (by rw [place]; rfl)) submitted rfl)
  | task submitted step =>
      exact .inl (step.sustains submitted silent sustains)

theorem deliver_notify {additional : Bool} {target : Nat}
    {calls after : List (Call α π)}
    (delivered : deliver (.notify additional) target calls = some after) :
    (∃ call ∈ after, call.isNotified = true) ∨
      ∀ call ∈ after, call.isWaiting = false := by
  simp only [deliver] at delivered
  split_ifs at delivered with already
  · cases delivered
    simp only [Bool.and_eq_true, List.any_eq_true] at already
    exact .inl already.2
  · unfold markOne at delivered
    split_ifs at delivered with waiting
    · split at delivered
      · next call current =>
          split_ifs at delivered with waits
          cases delivered
          refine .inl ⟨call.mark additional, mem_set_self current, ?_⟩
          simp [Call.mark, waits, Call.isNotified, Call.setListener]
      · cases delivered
    · cases delivered
      simp only [List.any_eq_true, not_exists, not_and,
        Bool.not_eq_true] at waiting
      exact .inr waiting

theorem deliver_notifyAll {target : Nat} {calls after : List (Call α π)}
    (delivered : deliver .notifyAll target calls = some after) :
    ∀ call ∈ after, call.isWaiting = false := by
  cases delivered
  intro call member
  obtain ⟨old, _, rfl⟩ := List.mem_map.mp member
  unfold Call.mark
  split_ifs with waiting
  · rfl
  · simpa using waiting

theorem deliver_cases {signal : Signal} {target : Nat}
    {calls after : List (Call α π)}
    (delivered : deliver signal target calls = some after) :
    (signal = .silent ∧ after = calls) ∨
      (∃ call ∈ after, call.isNotified = true) ∨
      ∀ call ∈ after, call.isWaiting = false := by
  cases signal with
  | silent =>
      cases delivered
      exact .inl ⟨rfl, rfl⟩
  | notify additional => exact .inr (deliver_notify delivered)
  | notifyAll => exact .inr (.inr (deliver_notifyAll delivered))

/-- As long as an admitter is committed to wait, somebody is active. -/
def Watched (state : State α π) : Prop :=
  (∃ call ∈ state.calls, call.Committed) → ∃ call ∈ state.calls, call.Sustains

namespace Watched

variable {limit : Option Nat} {state next : State α π} {label : Label α π}

theorem not_committed_start (kind : Kind) (f : Except π α) :
    ¬(Call.start kind f).Committed := by
  intro premise
  obtain ⟨waiting, _⟩ := premise
  cases waiting

theorem silentStep (watched : Watched state)
    (accounted : Accounted limit state) {index : Nat}
    {call moved : Call α π} {counters : Counters}
    (current : state.calls[index]? = some call)
    (step : ThreadStep state.statics call counters moved .silent)
    (committed : ∃ call ∈ state.calls.set index moved, call.Committed) :
    ∃ call ∈ state.calls.set index moved, call.Sustains := by
  have member := List.mem_of_getElem? current
  -- somebody else holds a decode slot, and keeps it in this step
  have seen : SeesDecode state.statics call →
      ∃ call ∈ state.calls.set index moved, call.Sustains := by
    intro premise
    obtain ⟨positive, unguarded⟩ := premise
    rw [accounted.counted] at positive
    obtain ⟨holder, held, counts⟩ := exists_of_total_pos positive
    refine ⟨holder, mem_set_of_ne held current ?_,
      Call.sustains_of_guards counts⟩
    intro same
    subst same
    omega
  -- a sustaining call before the step
  have kept : (∃ call ∈ state.calls, call.Sustains) →
      ∃ call ∈ state.calls.set index moved, call.Sustains := by
    intro premise
    obtain ⟨active, held, sustains⟩ := premise
    by_cases same : active = call
    · subst active
      rcases step.sustains (accounted.shapes _ member) rfl sustains with
        still | sees
      · exact ⟨moved, mem_set_self current, still⟩
      · exact seen sees
    · exact ⟨active, mem_set_of_ne held current same, sustains⟩
  obtain ⟨waiter, found, commits⟩ := committed
  rcases List.mem_or_eq_of_mem_set found with old | rfl
  · exact kept (watched ⟨waiter, old, commits⟩)
  · rcases step.committed commits with already | sees
    · exact kept (watched ⟨call, member, already⟩)
    · exact seen sees

theorem step (watched : Watched state) (accounted : Accounted limit state)
    (step : StateStep state label next) : Watched next := by
  intro premise
  obtain ⟨waiter, member, commits⟩ := premise
  have waits : ¬∀ call ∈ next.calls, call.isWaiting = false := by
    intro nobody
    have unwatched := nobody waiter member
    rw [commits.waiting] at unwatched
    cases unwatched
  cases step with
  | spawn kind f =>
      rcases List.mem_append.mp member with old | new
      · obtain ⟨active, held, sustains⟩ := watched ⟨waiter, old, commits⟩
        exact ⟨active, List.mem_append_left _ held, sustains⟩
      · rw [List.mem_singleton.mp new] at commits
        exact (not_committed_start kind f commits).elim
  | thread moves current step delivered =>
      rcases deliver_cases delivered with ⟨rfl, rfl⟩ | ⟨marked, held, woken⟩ |
        nobody
      · exact watched.silentStep accounted current step
          ⟨waiter, member, commits⟩
      · exact ⟨marked, held, .notified woken⟩
      · exact (waits nobody).elim
  | configure once config => exact watched ⟨waiter, member, commits⟩
  | config current step delivered =>
      rcases deliver_cases delivered with ⟨_, rfl⟩ | ⟨marked, held, woken⟩ |
        nobody
      · exact watched ⟨waiter, member, commits⟩
      · exact ⟨marked, held, .notified woken⟩
      · exact (waits nobody).elim
  | initThreadPool numThreads => exact watched ⟨waiter, member, commits⟩

end Watched

/-- A call that polls `admit_decode`. -/
def Call.isEvaluating (call : Call α π) : Bool :=
  match call.pc with
  | .admission pc => !pc.isParked
  | _ => false

def Call.holdsGuard (call : Call α π) : Bool :=
  call.kind.tag.isSome && call.pc.holdsTag ||
    call.task.any (·.pc.holdsRunning)

/-- A guard of the call has been dropped, and its notification is due. -/
def Call.owesNotification (call : Call α π) : Bool :=
  (match call.pc with
    | .notifyTag _ => true
    | _ => false) ||
  call.task.any fun task =>
    match task.pc with
    | .notifyRunning => true
    | _ => false

/-- In every reachable state, next to an admitter that is parked without a
notification there is a live guard, a notification that is due, or an
admitter that was notified or is being polled. -/
theorem parked_not_stranded (parsed : Option Nat) (state : State α π)
    (reachable : Reachable State.step (State.initial parsed) state)
    (waiter : Call α π) (member : waiter ∈ state.calls)
    (gate : Gate) (seen : Counters)
    (parked : waiter.pc = .admission (.parked gate seen))
    (unnotified : waiter.isNotified = false) :
    ∃ call ∈ state.calls, call.holdsGuard = true ∨
      call.owesNotification = true ∨ call.isNotified = true ∨
      call.isEvaluating = true := by
  have initially : Watched (State.initial parsed : State α π) := by
    intro premise
    obtain ⟨call, member, _⟩ := premise
    cases member
  have closed : ∀ (state : State α π) label next,
      state.step label = some next →
      Accounted (parsed.filter (0 < ·)) state ∧ Watched state →
      Accounted (parsed.filter (0 < ·)) next ∧ Watched next := by
    intro state label next taken premise
    obtain ⟨accounted, watched⟩ := premise
    have step := stateStep_of_step taken
    exact ⟨accounted.step step, watched.step accounted step⟩
  obtain ⟨accounted, watched⟩ :=
    reachable.invariant closed ⟨.initial parsed, initially⟩
  have waiting := Call.isWaiting_of_listening
    ((accounted.shapes waiter member).listening _ parked rfl) unnotified
  obtain ⟨call, held, sustains⟩ :=
    watched ⟨waiter, member, waiting, _, parked, rfl⟩
  refine ⟨call, held, ?_⟩
  cases sustains with
  | tagged hasTag holds => exact .inl (by simp [Call.holdsGuard, hasTag, holds])
  | running submitted holds =>
      exact .inl (by simp [Call.holdsGuard, submitted, holds])
  | owesTag place => exact .inr (.inl (by simp [Call.owesNotification, place]))
  | owesRunning submitted place =>
      exact .inr (.inl (by simp [Call.owesNotification, submitted, place]))
  | notified marked => exact .inr (.inr (.inl marked))
  | evaluating place polled _ =>
      exact .inr (.inr (.inr (by simp [Call.isEvaluating, place, polled])))

/-- Steps of the future of one call. -/
def polled (index steps : Nat) : List (Label Nat Unit) :=
  List.replicate steps (.call index true 0)

def admittedDecode (index : Nat) : List (Label Nat Unit) :=
  .spawn .decodeBlocking (.ok index) :: polled index 9

/-- Two threads, one of them running an encode task, and three decode tasks
that are admitted.  The fourth has yet to be polled. -/
def threeDecodes : List (Label Nat Unit) :=
  .initThreadPool 2 :: .spawn .encodeBlocking (.ok 0) :: polled 0 3 ++
    [.task 0 0, .task 0 0] ++ admittedDecode 1 ++ admittedDecode 2 ++
    admittedDecode 3 ++ [.spawn .decodeBlocking (.ok 4)]

/-- The fourth decode task is refused twice and parks. -/
def fourthDecode : List (Label Nat Unit) :=
  threeDecodes ++ polled 4 14

/-- The call at `index` is parked without a notification. -/
def State.parksAt (state : State α π) (index : Nat) : Bool :=
  match state.calls[index]? with
  | some call =>
      !call.isNotified &&
        match call.pc with
        | .admission (.parked _ _) => true
        | _ => false
  | none => false

theorem State.parksAt_eq_true {state : State α π} {index : Nat}
    (parks : state.parksAt index = true) :
    ∃ call ∈ state.calls, call.isNotified = false ∧
      ∃ gate seen, call.pc = .admission (.parked gate seen) := by
  unfold parksAt at parks
  split at parks
  · next call current =>
      simp only [Bool.and_eq_true, Bool.not_eq_eq_eq_not,
        Bool.not_true] at parks
      obtain ⟨unnotified, parked⟩ := parks
      split at parked
      · next gate seen place =>
          exact ⟨call, List.mem_of_getElem? current, unnotified, gate, seen,
            place⟩
      · cases parked
  · cases parks

theorem parked_not_stranded_fourthDecode :
    ∃ state : State Nat Unit,
      run State.step fourthDecode (State.initial none) = some state ∧
      state.parksAt 4 = true ∧
      ∃ call ∈ state.calls, call.holdsGuard = true ∨
        call.owesNotification = true ∨ call.isNotified = true ∨
        call.isEvaluating = true := by
  have passed : (run State.step fourthDecode
      (State.initial none : State Nat Unit)).any (·.parksAt 4) = true := by
    decide +kernel
  obtain ⟨state, ended, parks⟩ := exists_run _ passed
  obtain ⟨waiter, member, unnotified, gate, seen, parked⟩ :=
    State.parksAt_eq_true parks
  exact ⟨state, ended, parks, parked_not_stranded none state
    ⟨fourthDecode, ended⟩ waiter member gate seen parked unnotified⟩

def SameDecision (before after : Counters) : Prop :=
  ∀ counter, counter ≠ .outstanding → after counter = before counter

theorem sameDecision_fetchAdd (counters : Counters) :
    SameDecision counters (counters.fetchAdd .outstanding) := by
  intro counter different
  simp [Counters.fetchAdd, different]

theorem sameDecision_fetchSub (counters : Counters) :
    SameDecision counters (counters.fetchSub .outstanding) := by
  intro counter different
  simp [Counters.fetchSub, different]

/-- The counters change by one of the listed updates, and afterwards a
notification is due if the update comes with one. -/
structure Updates (update : CounterUpdate) (before after : Counters)
    (call next : Call α π) : Prop where
  applied : after = update.apply before
  announced : update.notifies = true → next.owesNotification = true
  silent : update.notifies = false →
    next.owesNotification = call.owesNotification

/-- The list of the updates is complete: every step of a call leaves the
admission decision alone or makes one of them. -/
theorem ThreadStep.updates {statics : Statics} {call next : Call α π}
    {counters : Counters} {signal : Signal}
    (step : ThreadStep statics call counters next signal) :
    SameDecision statics.counters counters ∨
      ∃ update, Updates update statics.counters counters call next := by
  have unchanged : SameDecision statics.counters statics.counters :=
    fun _ _ => rfl
  cases step with
  | encodeEnter place =>
      refine .inr ⟨.encodeSubmit, rfl, by simp [CounterUpdate.notifies], ?_⟩
      simp [Call.owesNotification, place]
  | reserve place reserves =>
      refine .inr ⟨.decodeReserve, rfl, by simp [CounterUpdate.notifies], ?_⟩
      simp [Call.owesNotification, Call.admitGoto, place]
  | @dropTag finish counter place tagged =>
      have owes : (call.goto (.notifyTag finish)).owesNotification = true := by
        simp [Call.owesNotification]
      cases kind : call.kind with
      | encodeBlocking =>
          rw [kind] at tagged
          cases tagged
          exact .inr ⟨.encodeRelease, rfl, fun _ => owes,
            by simp [CounterUpdate.notifies]⟩
      | decodeBlocking =>
          rw [kind] at tagged
          cases tagged
          exact .inr ⟨.decodeRelease, rfl, fun _ => owes,
            by simp [CounterUpdate.notifies]⟩
      | blocking | fifoBlocking =>
          rw [kind] at tagged
          cases tagged
  | task submitted step =>
      cases step with
      | enterRunning place =>
          refine .inr ⟨.taskStart, rfl, by simp [CounterUpdate.notifies], ?_⟩
          simp [Call.owesNotification, Call.setTask, submitted, place]
      | leaveRunning place =>
          refine .inr ⟨.taskEnd, rfl, ?_, by simp [CounterUpdate.notifies]⟩
          simp [Call.owesNotification, Call.setTask]
      | releaseSlot => exact .inl (sameDecision_fetchSub _)
      | _ => exact .inl unchanged
  | accept | reject => exact .inl (sameDecision_fetchAdd _)
  | returnSlot => exact .inl (sameDecision_fetchSub _)
  | _ => exact .inl unchanged

end HoprUtilities.Parallelize
