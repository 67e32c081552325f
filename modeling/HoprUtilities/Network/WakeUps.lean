import HoprUtilities.Network.Blocking
import Mathlib.Logic.Function.Basic

/-!
# A pending duplex copy will be woken

Besides the calls that leave the waker with an endpoint, the duplex future
calls `wake_by_ref` itself where it moves an aborted direction to its
shutdown.  The model of the future has no wakers.  `Polled` adds the one thing
that is missing, the number of times each side has made the future wake its
own task, and erases to the future.

A pending poll leaves every direction done, blocked, or woken for, and over a
whole run each side wakes the task at most once.
-/

namespace HoprUtilities.Network

open HoprUtilities.Lib

/-- The duplex future together with the number of times each side has made it
wake its own task by `cx.waker().wake_by_ref()`. -/
structure Polled where
  duplex : Duplex
  wakeUps : Side → Nat

abbrev WakingM (α : Type) := EStateM DuplexCall Polled α

namespace Polled

open Duplex (Transferred)

def onDuplex {α : Type} (code : DuplexM α) : WakingM α :=
  zoom id Polled.duplex
    (fun duplex polled => { polled with duplex := duplex }) code

/-- `ShuttingDown(buf.amt)` for a side that is still running. -/
def stopRunning (polled : Polled) (side : Side) : Polled :=
  { polled with duplex := polled.duplex.stopRunning side }

/-- `cx.waker().wake_by_ref()`, on behalf of a side. -/
def wakeByRef (polled : Polled) (side : Side) : Polled :=
  { polled with
    wakeUps := Function.update polled.wakeUps side
      (polled.wakeUps side + 1) }

/-- The shutdown of an aborted side, with the artificial wake-up: "as if an
empty read was received". -/
def stopAborted (polled : Polled) (side : Side) : Polled :=
  match (polled.duplex.direction side).state with
  | .running _ => (polled.stopRunning side).wakeByRef side
  | _ => polled

def transfer (side : Side) (next : Poll Nat → WakingM Transferred) :
    WakingM Transferred := do
  match ← onDuplex (Duplex.onDirection side Direction.transferOneDirection) with
  | .ready (.error err) => return .ready (.error err)
  | .ready (.ok count) => next (.ready count)
  | .pending => next .pending

def initiateAbort (side : Side) (next : WakingM Transferred) :
    WakingM Transferred := do
  match ← onDuplex (Duplex.pollAbort side) with
  | true => do
      modify fun polled => polled.stopAborted side
      next
  | false => next

def terminate (side other : Side) (result : Poll Nat)
    (next : Poll Nat → WakingM Transferred) : WakingM Transferred := do
  let polled ← get
  match (polled.duplex.direction other).state,
      (polled.duplex.direction side).state with
  | .done _, .running _ => do
      modify fun polled => polled.stopRunning side
      transfer side next
  | _, _ => next result

/-- One poll of the future, counting its own wake-ups. -/
def pollDuplex : WakingM Transferred :=
  transfer .a fun aToBResult =>
  transfer .b fun bToAResult =>
  initiateAbort .a <|
  initiateAbort .b <|
  terminate .a .b aToBResult fun aToBResult =>
  terminate .b .a bToAResult fun bToAResult =>
  match aToBResult, bToAResult with
  | .ready aToB, .ready bToA => return .ready (.ok (aToB, bToA))
  | _, _ => return .pending

/-- The future, polled until it is ready, at most `polls` times. -/
def copyDuplex : Nat → WakingM Transferred
  | 0 => return .pending
  | polls + 1 => do
      match ← pollDuplex with
      | .pending => copyDuplex polls
      | .ready res => return .ready res

theorem duplex_stopAborted (polled : Polled) (side : Side) :
    (polled.stopAborted side).duplex = polled.duplex.stopRunning side := by
  unfold stopAborted Duplex.stopRunning
  cases state : (polled.duplex.direction side).state with
  | running buf =>
      change polled.duplex.stopRunning side = _
      rw [Duplex.stopRunning, state]
  | shuttingDown count => rfl
  | done count => rfl

theorem onDuplex_erases {α : Type} (code : DuplexM α) :
    Erases Polled.duplex (onDuplex code) code :=
  .zoom code fun _ _ => rfl

section Erasure

variable {rich : Poll Nat → WakingM Transferred}
  {plain : Poll Nat → DuplexM Transferred}

theorem transfer_erases (side : Side)
    (tail : ∀ result, Erases Polled.duplex (rich result) (plain result)) :
    Erases Polled.duplex (transfer side rich)
      (Duplex.transfer side plain) := by
  apply Erases.bind (onDuplex_erases _)
  intro result
  match result with
  | .pending => exact tail .pending
  | .ready (.error err) => exact .pure _
  | .ready (.ok count) => exact tail (.ready count)

theorem initiateAbort_erases (side : Side) {richNext : WakingM Transferred}
    {plainNext : DuplexM Transferred}
    (tail : Erases Polled.duplex richNext plainNext) :
    Erases Polled.duplex (initiateAbort side richNext)
      (Duplex.initiateAbort side plainNext) := by
  apply Erases.bind (onDuplex_erases _)
  intro aborted
  cases aborted with
  | true =>
      exact .modify_bind (fun polled => duplex_stopAborted polled side) tail
  | false => exact tail

theorem terminate_erases (side other : Side) (result : Poll Nat)
    (tail : ∀ result, Erases Polled.duplex (rich result) (plain result)) :
    Erases Polled.duplex (terminate side other result rich)
      (Duplex.terminate side other result plain) := by
  apply Erases.get_bind
  intro polled
  cases (polled.duplex.direction other).state with
  | running buf => exact tail result
  | shuttingDown count => exact tail result
  | done count =>
      cases (polled.duplex.direction side).state with
      | shuttingDown count => exact tail result
      | done count => exact tail result
      | running buf =>
          exact .modify_bind (fun _ => rfl) (transfer_erases side tail)

theorem pollDuplex_erases :
    Erases Polled.duplex pollDuplex Duplex.pollDuplex := by
  apply transfer_erases
  intro aToB
  apply transfer_erases
  intro bToA
  apply initiateAbort_erases
  apply initiateAbort_erases
  apply terminate_erases
  intro aToB
  apply terminate_erases
  intro bToA
  cases aToB with
  | pending => exact .pure _
  | ready aToB =>
      cases bToA with
      | pending => exact .pure _
      | ready bToA => exact .pure _

/-- What is proved of the counting future is proved of the future. -/
theorem copyDuplex_erases (polls : Nat) :
    Erases Polled.duplex (copyDuplex polls)
      (Duplex.copyDuplexAbortableWithDatagram polls) := by
  induction polls with
  | zero => exact .pure _
  | succ polls induction =>
      apply Erases.bind pollDuplex_erases
      intro result
      cases result with
      | pending => exact induction
      | ready result => exact .pure _

end Erasure

@[simp] theorem duplex_wakeByRef (polled : Polled) (side : Side) :
    (polled.wakeByRef side).duplex = polled.duplex := rfl

@[simp] theorem wakeUps_wakeByRef_self (polled : Polled) (side : Side) :
    (polled.wakeByRef side).wakeUps side = polled.wakeUps side + 1 :=
  Function.update_self ..

theorem wakeUps_wakeByRef_other (polled : Polled) {side other : Side}
    (different : other ≠ side) :
    (polled.wakeByRef side).wakeUps other = polled.wakeUps other :=
  Function.update_of_ne different ..

def wire (polled : Polled) (side : Side) : Wire :=
  (polled.duplex.direction side).wire

/-- Only a side that was aborted has woken the task, and only once: it has
left `Running` since. -/
def Frugal (polled : Polled) : Prop :=
  ∀ side, polled.wakeUps side = 0 ∨
    polled.wakeUps side = 1 ∧ polled.duplex.aborted side = true ∧
      Duplex.Stopping (polled.duplex.direction side)

theorem Frugal.move {before : Polled} (frugal : before.Frugal) {side : Side}
    {direction : Direction}
    (stopping : Duplex.Stopping (before.duplex.direction side) →
      Duplex.Stopping direction) :
    Frugal { before with
      duplex := before.duplex.setDirection side direction } := by
  intro current
  rcases frugal current with none | ⟨once, fired, stopped⟩
  · exact .inl none
  · exact .inr ⟨once, fired,
      Duplex.setDirection_keeps _ stopping current stopped⟩

/-- The states of a poll that began in `start`: which abort registrations have
been `asked`, and what the `results` of the transfers so far still say about
a side that has not woken the task. -/
structure Covered (start : Polled) (asked : Side → Bool)
    (results : Side → Option (Poll Nat)) (polled : Polled) : Prop where
  since : ∀ side, Since (start.wire side) (polled.wire side)
  listens : ∀ side,
    if asked side then
      ∃ fired, start.duplex.abortScript side =
        fired :: polled.duplex.abortScript side
    else start.duplex.abortScript side = polled.duplex.abortScript side
  wakes : ∀ side, start.wakeUps side ≤ polled.wakeUps side
  shown : ∀ side result, results side = some result →
    polled.wakeUps side = start.wakeUps side →
    (polled.duplex.direction side).Shows (start.wire side) result
  frugal : start.Frugal → polled.Frugal

/-- What a pending poll has seen to: both abort registrations have been
polled, and each direction is done, has left its waker with the endpoint that
it waits for, or has just woken the task. -/
structure WillWake (start final : Polled) : Prop where
  listens : ∀ side, ∃ fired, start.duplex.abortScript side =
    fired :: final.duplex.abortScript side
  waits : ∀ side, (∃ count,
      (final.duplex.direction side).state = .done count) ∨
    (final.duplex.direction side).Blocked (start.wire side) ∨
    start.wakeUps side < final.wakeUps side
  unfinished : ∃ side,
    (final.duplex.direction side).Blocked (start.wire side) ∨
      start.wakeUps side < final.wakeUps side

def Ends (start : Polled) (result : Transferred) (polled : Polled) : Prop :=
  (start.Frugal → polled.Frugal) ∧
    (result = .pending → WillWake start polled)

def Stops (start : Polled) (_ : DuplexCall) (polled : Polled) : Prop :=
  start.Frugal → polled.Frugal

theorem aborted_stopRunning (duplex : Duplex) (side : Side) :
    (duplex.stopRunning side).aborted = duplex.aborted := by
  unfold Duplex.stopRunning
  split <;> rfl

namespace Covered

variable {start before : Polled} {asked : Side → Bool}
  {results : Side → Option (Poll Nat)}

theorem refl (start : Polled) :
    Covered start (fun _ => false) (fun _ => none) start where
  since _ := .refl _
  listens _ := rfl
  wakes _ := Nat.le_refl _
  shown _ _ shown := by cases shown
  frugal frugal := frugal

theorem move (covered : Covered start asked results before) {side : Side}
    {direction : Direction} {result : Option (Poll Nat)}
    (since : Since (before.wire side) direction.wire)
    (shown : ∀ value, result = some value →
      direction.Shows (before.wire side) value)
    (stopping : Duplex.Stopping (before.duplex.direction side) →
      Duplex.Stopping direction) :
    Covered start asked (Function.update results side result)
      { before with duplex := before.duplex.setDirection side direction } where
  since current := by
    by_cases same : current = side
    · subst current
      apply (covered.since side).trans
      simpa [wire] using since
    · have kept := covered.since current
      rw [wire, wire] at kept
      rwa [wire, wire, Duplex.setDirection_other same]
  listens := covered.listens
  wakes := covered.wakes
  shown current value known calm := by
    by_cases same : current = side
    · subst current
      rw [Function.update_self] at known
      rw [Duplex.setDirection_self]
      exact (shown value known).earlier (covered.since side)
    · rw [Function.update_of_ne same] at known
      rw [Duplex.setDirection_other same]
      exact covered.shown current value known calm
  frugal started := (covered.frugal started).move stopping

theorem stopRunning (covered : Covered start asked results before)
    (side : Side) :
    Covered start asked (Function.update results side none)
      (before.stopRunning side) := by
  unfold Polled.stopRunning Duplex.stopRunning
  cases state : (before.duplex.direction side).state with
  | running buf =>
      apply covered.move
      · exact Direction.note_during (.refl _) _ _
      · intro value known
        cases known
      · intro stopped
        exact (stopped buf state).elim
  | shuttingDown count | done count =>
      refine ⟨covered.since, covered.listens, covered.wakes, ?_,
        covered.frugal⟩
      intro current value known calm
      by_cases same : current = side
      · subst current
        rw [Function.update_self] at known
        cases known
      · rw [Function.update_of_ne same] at known
        exact covered.shown current value known calm

theorem wakeByRef {results : Side → Option (Poll Nat)} {side : Side}
    (covered : Covered start asked (Function.update results side none) before)
    (fired : before.duplex.aborted side = true)
    (stopped : Duplex.Stopping (before.duplex.direction side))
    (first : start.Frugal → before.wakeUps side = 0) :
    Covered start asked results (before.wakeByRef side) where
  since := covered.since
  listens := covered.listens
  wakes current := by
    have wakes := covered.wakes current
    by_cases same : current = side
    · subst current
      rw [wakeUps_wakeByRef_self]
      omega
    · rwa [wakeUps_wakeByRef_other before same]
  shown current value known calm := by
    have wakes := covered.wakes current
    by_cases same : current = side
    · subst current
      rw [wakeUps_wakeByRef_self] at calm
      omega
    · rw [wakeUps_wakeByRef_other before same] at calm
      apply covered.shown current value _ calm
      rwa [Function.update_of_ne same]
  frugal started current := by
    by_cases same : current = side
    · subst current
      rw [wakeUps_wakeByRef_self, first started]
      exact .inr ⟨rfl, fired, stopped⟩
    · rw [wakeUps_wakeByRef_other before same]
      exact covered.frugal started current

theorem stopAborted (covered : Covered start asked results before)
    {side : Side} (fired : before.duplex.aborted side = true) :
    Covered start asked results (before.stopAborted side) := by
  unfold Polled.stopAborted
  cases state : (before.duplex.direction side).state with
  | shuttingDown count | done count => exact covered
  | running buf =>
      apply (covered.stopRunning side).wakeByRef
      · rw [Polled.stopRunning, aborted_stopRunning]
        exact fired
      · exact Duplex.stopping_stopRunning before.duplex side
      · intro started
        rcases covered.frugal started side with none | ⟨_, _, stopped⟩
        · exact none
        · exact (stopped buf state).elim

theorem ask (covered : Covered start asked results before) {side : Side}
    (fresh : asked side = false) {fired : Bool} {rest : List Bool}
    (script : before.duplex.abortScript side = fired :: rest)
    {aborted : Side → Bool}
    (still : ∀ current, before.duplex.aborted current = true →
      aborted current = true) :
    Covered start (Function.update asked side true) results
      { before with
        duplex :=
          { before.duplex with
            abortScript := fun current =>
              if current = side then rest
              else before.duplex.abortScript current
            aborted := aborted } } where
  since := covered.since
  listens current := by
    have listened := covered.listens current
    by_cases same : current = side
    · subst current
      rw [fresh, if_neg Bool.false_ne_true, script] at listened
      rw [Function.update_self, if_pos rfl]
      exact ⟨fired, by simpa using listened⟩
    · rw [Function.update_of_ne same]
      simpa [same] using listened
  wakes := covered.wakes
  shown := covered.shown
  frugal started current := by
    rcases covered.frugal started current with none | ⟨once, fired, stopped⟩
    · exact .inl none
    · exact .inr ⟨once, still current fired, stopped⟩

end Covered

section Poll

variable {start : Polled} {asked : Side → Bool}
  {results : Side → Option (Poll Nat)}
  {next : Poll Nat → WakingM Transferred}

/-- The two facts about a transfer of one side: what its result shows, and
that it does not go back to `Running`. -/
theorem transferOneDirection_moves (direction : Direction) :
    Triple (· = direction) Direction.transferOneDirection
      (fun result after => Direction.Waits direction.wire result after ∧
        (Duplex.Stopping direction → Duplex.Stopping after))
      (fun _ after => Duplex.Stopping direction → Duplex.Stopping after) := by
  intro current same
  subst same
  have waits := Direction.transferOneDirection_waits current.wire current
    (Since.refl _)
  have stays := Direction.transferOneDirection_triple
    (fun _ _ step => Duplex.stopping_of_step step.directionStep)
    (fun _ buf stopping running => (stopping buf running).elim) current
  cases result : Direction.transferOneDirection current with
  | error call after =>
      rw [result] at stays
      exact fun stopping => (stays stopping).1
  | ok value after =>
      rw [result] at waits stays
      exact ⟨waits, fun stopping => (stays stopping).1⟩

theorem transfer_triple {side : Side}
    (tail : ∀ result, Triple
      (Covered start asked (Function.update results side (some result)))
      (next result) (Ends start) (Stops start)) :
    Triple (Covered start asked results) (transfer side next) (Ends start)
      (Stops start) := by
  apply Triple.bind (fun result polled =>
    match result with
    | .ready (.error _) => start.Frugal → polled.Frugal
    | .ready (.ok count) =>
        Covered start asked
          (Function.update results side (some (.ready count))) polled
    | .pending =>
        Covered start asked
          (Function.update results side (some .pending)) polled)
  · apply Triple.zoom
    intro before covered
    apply Triple.zoom
    intro duplex same
    subst same
    apply (transferOneDirection_moves _).consequence
    · exact fun _ same => same
    · intro result direction moves
      obtain ⟨⟨since, shown⟩, stopping⟩ := moves
      match result with
      | .ready (.error err) =>
          exact fun started => (covered.frugal started).move stopping
      | .ready (.ok count) =>
          apply covered.move since _ stopping
          intro value known
          cases known
          exact shown
      | .pending =>
          apply covered.move since _ stopping
          intro value known
          cases known
          exact shown
    · intro call direction stopping started
      exact (covered.frugal started).move stopping
  · intro result
    match result with
    | .ready (.error err) =>
        exact Triple.pure (fun _ frugal => ⟨frugal, by simp⟩)
    | .ready (.ok count) => exact tail (.ready count)
    | .pending => exact tail .pending

theorem initiateAbort_triple {side : Side} {next : WakingM Transferred}
    (fresh : asked side = false)
    (tail : Triple (Covered start (Function.update asked side true) results)
      next (Ends start) (Stops start)) :
    Triple (Covered start asked results) (initiateAbort side next)
      (Ends start) (Stops start) := by
  apply Triple.bind (fun aborted polled =>
    Covered start (Function.update asked side true) results polled ∧
      (aborted = true → polled.duplex.aborted side = true))
  · apply Triple.zoom
    intro before covered duplex same
    subst same
    unfold Duplex.pollAbort
    cases script : before.duplex.abortScript side with
    | nil => exact covered.frugal
    | cons fired rest =>
        refine ⟨covered.ask fresh script ?_, fun aborted => ?_⟩
        · intro current aborted
          split_ifs with same
          · rw [← same, aborted, Bool.true_or]
          · exact aborted
        · exact (if_pos rfl).trans aborted
  · intro aborted
    cases aborted with
    | false => exact tail.strengthenPre (fun _ premise => premise.1)
    | true =>
        apply Triple.modify_bind
        intro before premise
        exact tail.startingAt (premise.1.stopAborted (premise.2 rfl))

theorem terminate_triple {side other : Side} {result : Poll Nat}
    (known : results side = some result)
    (tail : ∀ result, Triple
      (Covered start asked (Function.update results side (some result)))
      (next result) (Ends start) (Stops start)) :
    Triple (Covered start asked results)
      (terminate side other result next) (Ends start) (Stops start) := by
  apply Triple.get_bind
  intro before covered
  have skip := tail result
  rw [← known, Function.update_eq_self] at skip
  replace skip := skip.startingAt covered
  cases (before.duplex.direction other).state with
  | running buf => exact skip
  | shuttingDown count => exact skip
  | done count =>
      cases (before.duplex.direction side).state with
      | shuttingDown count => exact skip
      | done count => exact skip
      | running buf =>
          apply Triple.modify_bind
          intro current same
          subst same
          apply (transfer_triple _).startingAt (covered.stopRunning side)
          intro again
          rw [Function.update_idem]
          exact tail again

theorem Covered.shown_or {polled : Polled} {side : Side} {result : Poll Nat}
    (covered : Covered start asked results polled)
    (known : results side = some result) :
    (polled.duplex.direction side).Shows (start.wire side) result ∨
      start.wakeUps side < polled.wakeUps side := by
  have wakes := covered.wakes side
  by_cases calm : polled.wakeUps side = start.wakeUps side
  · exact .inl (covered.shown side result known calm)
  · exact .inr (by omega)

theorem Covered.ends {polled : Polled}
    (covered : Covered start (fun _ => true) results polled)
    (known : ∀ side, ∃ result, results side = some result)
    (unfinished : ∃ side, results side = some .pending) :
    WillWake start polled where
  listens := covered.listens
  waits side := by
    obtain ⟨result, known⟩ := known side
    rcases covered.shown_or known with shown | woken
    · cases result with
      | ready count => exact .inl ⟨count, shown⟩
      | pending => exact .inr (.inl shown)
    · exact .inr (.inr woken)
  unfinished := by
    obtain ⟨side, pending⟩ := unfinished
    exact ⟨side, covered.shown_or pending⟩

theorem pollDuplex_triple (start : Polled) :
    Triple (· = start) pollDuplex (Ends start) (Stops start) := by
  have rule : Triple (Covered start (fun _ => false) (fun _ => none))
      pollDuplex (Ends start) (Stops start) := by
    apply transfer_triple
    intro aToB
    apply transfer_triple
    intro bToA
    apply initiateAbort_triple rfl
    apply initiateAbort_triple rfl
    apply terminate_triple rfl
    intro aToB
    apply terminate_triple rfl
    intro bToA
    have asked : Function.update (Function.update (fun _ => false) Side.a true)
        .b true = fun _ => true := by
      funext side
      cases side <;> rfl
    rw [asked]
    split
    · exact Triple.pure (fun _ covered => ⟨covered.frugal, by simp⟩)
    · next unfinished =>
        apply Triple.pure
        intro polled covered
        refine ⟨covered.frugal, fun _ => covered.ends ?_ ?_⟩
        · intro side
          cases side
          · exact ⟨aToB, rfl⟩
          · exact ⟨bToA, rfl⟩
        · cases aToB with
          | pending => exact ⟨.a, rfl⟩
          | ready aToB =>
              cases bToA with
              | pending => exact ⟨.b, rfl⟩
              | ready bToA => exact (unfinished aToB bToA rfl rfl).elim
  exact rule.startingAt (.refl start)

end Poll

/-- The future before its first poll. -/
def new (bufferSize : Side → Nat) (datagram : Bool)
    (script : Side → Script) (abortScript : Side → List Bool) : Polled :=
  { duplex := Duplex.new bufferSize datagram script abortScript
    wakeUps := fun _ => 0 }

/-- A poll of the future that returns pending has made sure that the task will
be polled again: it has polled both abort registrations, and every direction
is done, or waits for an endpoint that keeps the waker, or has woken the task
itself. -/
theorem pending_poll_will_be_woken {start final : Polled}
    (polled : pollDuplex start = .ok .pending final) :
    Duplex.pollDuplex start.duplex = .ok .pending final.duplex ∧
      WillWake start final := by
  constructor
  · have erases := pollDuplex_erases start
    rw [polled] at erases
    exact erases
  · exact ((pollDuplex_triple start).ok rfl polled).2 rfl

/-- Neither endpoint has anything to read, or takes its shutdown at once. -/
def silent : Side → Script := fun _ =>
  { reads := [.pending, .pending]
    writes := []
    flushes := []
    shutdowns := [.pending]
    tokioUnstable := false
    budget := [] }

theorem pending_poll_will_be_woken_silent :
    let start := new (fun _ => 1) false silent (fun side => [side == .a])
    let final := halt pollDuplex start
    Duplex.pollDuplex start.duplex = .ok .pending final.duplex ∧
      WillWake start final := by
  intro start final
  have polled : pollDuplex start = .ok .pending final :=
    eq_ok_of_value? (by decide +kernel)
  exact pending_poll_will_be_woken polled

theorem copyDuplex_triple (polls : Nat) :
    Triple Frugal (copyDuplex polls) (fun _ => Frugal) (fun _ => Frugal) := by
  induction polls with
  | zero => exact Triple.pure (fun _ frugal => frugal)
  | succ polls induction =>
      apply Triple.bind (fun _ => Frugal)
      · apply Triple.of_forall
        intro start frugal
        apply (pollDuplex_triple start).consequence (fun _ same => same)
        · exact fun _ _ ends => ends.1 frugal
        · exact fun _ _ stops => stops frugal
      · intro result
        cases result with
        | pending => exact induction
        | ready result => exact Triple.pure (fun _ frugal => frugal)

/-- The artificial wake-ups do not make the task spin: at any point of any run
of the future, a side has woken the task at most once, and then its abort
handle was aborted and it has left `Running` for good. -/
theorem sides_wake_once (bufferSize : Side → Nat) (datagram : Bool)
    (script : Side → Script) (abortScript : Side → List Bool) (polls : Nat)
    {final : Polled}
    (seen : Observed (copyDuplex polls)
      (new bufferSize datagram script abortScript) final) :
    Observed (Duplex.copyDuplexAbortableWithDatagram polls)
        (Duplex.new bufferSize datagram script abortScript) final.duplex ∧
      ∀ side, final.wakeUps side = 0 ∨
        final.wakeUps side = 1 ∧ final.duplex.aborted side = true ∧
          ∀ buf, (final.duplex.direction side).state ≠ .running buf := by
  constructor
  · exact (copyDuplex_erases polls).observed seen
  · exact (copyDuplex_triple polls).observed (fun _ => .inl rfl) seen
      (fun _ _ frugal => frugal) (fun _ _ frugal => frugal)

/-- The state of the silent future after two polls, with both sides
aborted. -/
def silenced : Polled :=
  halt (copyDuplex 2)
    (new (fun _ => 1) false silent (fun side => [side == .a, true]))

theorem sides_wake_once_silent :
    silenced.wakeUps .a = 1 ∧
      ∀ buf, (silenced.duplex.direction .a).state ≠ .running buf := by
  have woken : silenced.wakeUps .a = 1 := by decide +kernel
  have seen : Observed (copyDuplex 2)
      (new (fun _ => 1) false silent (fun side => [side == .a, true]))
      silenced := observed_halt _ _
  refine ⟨woken, ?_⟩
  rcases (sides_wake_once _ _ _ _ _ seen).2 .a with none | ⟨_, _, stopped⟩
  · rw [none] at woken
    cases woken
  · exact stopped

end Polled

end HoprUtilities.Network
