import HoprUtilities.Lib.Threads
import HoprUtilities.Runtime.Diagnostics

/-!
# The diagnostics of concurrent child futures

The handle and all child futures of one stream operator share the counters of a
`ConcurrentDiagnosticState`.  Each access to a counter is a step; the children
take theirs in any order, but each child is polled and dropped through an
exclusive reference.  A child whose completion passes the threshold calls
`should_warn`, and loads the other counters for its warning.
-/

namespace HoprUtilities.Runtime

open HoprUtilities.Lib HoprUtilities.Lib.RetryLoop

namespace ConcurrentDiagnostics

/-- What a child knows when it has called `should_warn`.  The calls are
numbered. -/
structure Report where
  completed : UInt64
  elapsed : Duration
  call : Nat
  deriving DecidableEq

structure ChildWarning where
  report : Report
  started : UInt64
  dropped : UInt64
  inFlight : UInt64
  deriving DecidableEq

/-- The next access of a child.  In `wrap` it is still the handle's. -/
inductive ChildPc where
  | enter
  | running
  | leave (completed : Bool)
  | count (completed : Bool)
  | measure (completed : UInt64)
  | ask (report : Report)
  | loadStarted (report : Report)
  | loadDropped (report : Report) (started : UInt64)
  | loadInFlight (report : Report) (started dropped : UInt64)
  | marked (completed : Bool)
  deriving DecidableEq

/-- The future is at rest: it may be polled or dropped. -/
def ChildPc.isFree : ChildPc → Bool
  | .running | .marked _ => true
  | _ => false

structure Child where
  finished : Bool
  pc : ChildPc
  deriving DecidableEq

structure State where
  started : UInt64
  completed : UInt64
  dropped : UInt64
  inFlight : UInt64
  limiter : RetryLoop.State Duration UInt64 Bool
  children : List Child
  warnings : List ChildWarning
  deriving DecidableEq

inductive Label where
  | wrap
  | mark (index : Nat) (completed : Bool)
  | advance (index : Nat)
  | measure (index : Nat) (elapsed : Duration)
  | warn (label : RetryLoop.Label Duration UInt64)
  deriving DecidableEq

def initial : State where
  started := 0
  completed := 0
  dropped := 0
  inFlight := 0
  limiter := warnStart
  children := []
  warnings := []

namespace State

def goto (state : State) (index : Nat) (child : Child) (pc : ChildPc) :
    State :=
  { state with children := state.children.set index { child with pc := pc } }

/-- `mark_finished`, of a future that is ready or has been dropped. -/
def mark (state : State) (index : Nat) (child : Child) (completed : Bool) :
    Option State :=
  if child.pc.isFree then
    if child.finished then some state
    else
      some (state.goto index { child with finished := true }
        (.leave completed))
  else none

/-- `elapsed` and the call of `should_warn`. -/
def measure (cfg : DiagnosticsConfig) (state : State) (index : Nat)
    (child : Child) (elapsed : Duration) : Option State :=
  match child.pc with
  | .measure completed => do
      let limiter ← warnStep cfg.warnEvery state.limiter (.call elapsed)
      some { state.goto index child
          (.ask ⟨completed, elapsed, state.limiter.calls.length⟩) with
        limiter := limiter }
  | _ => none

/-- The next access of the child to a counter. -/
def advance (cfg : DiagnosticsConfig) (state : State) (index : Nat)
    (child : Child) : Option State :=
  match child.pc with
  | .enter =>
      some { state.goto index child .running with
        inFlight := state.inFlight + 1 }
  | .leave completed =>
      some { state.goto index child (.count completed) with
        inFlight := state.inFlight - 1 }
  | .count true =>
      let completed := state.completed + 1
      some { state.goto index child
          (if cfg.warnAfter ≤ completed then .measure completed
            else .marked true) with
        completed := completed }
  | .count false =>
      some { state.goto index child (.marked false) with
        dropped := state.dropped + 1 }
  | .ask report => do
      let call ← state.limiter.calls[report.call]?
      match call.pc with
      | .returned true => some (state.goto index child (.loadStarted report))
      | .returned false => some (state.goto index child (.marked true))
      | _ => none
  | .loadStarted report =>
      some (state.goto index child (.loadDropped report state.started))
  | .loadDropped report started =>
      some (state.goto index child
        (.loadInFlight report started state.dropped))
  | .loadInFlight report started dropped =>
      some { state.goto index child (.marked true) with
        warnings :=
          state.warnings ++ [⟨report, started, dropped, state.inFlight⟩] }
  | .running | .measure _ | .marked _ => none

def step (cfg : DiagnosticsConfig) (state : State) : Label → Option State
  | .wrap =>
      some { state with
        started := state.started + 1
        children := state.children ++ [⟨false, .enter⟩] }
  | .mark index completed => do
      let child ← state.children[index]?
      state.mark index child completed
  | .advance index => do
      let child ← state.children[index]?
      state.advance cfg index child
  | .measure index elapsed => do
      let child ← state.children[index]?
      state.measure cfg index child elapsed
  | .warn (.call _) => none
  | .warn label => do
      let limiter ← warnStep cfg.warnEvery state.limiter label
      some { state with limiter := limiter }

end State

section Step

variable (cfg : DiagnosticsConfig)

/-- Where a child goes after it has been counted as completed. -/
def afterCount (completed : UInt64) : ChildPc :=
  if cfg.warnAfter ≤ completed then .measure completed else .marked true

inductive Move (state : State) (index : Nat) (child : Child) : State → Prop
    where
  | enter : child.pc = .enter →
      Move state index child
        { state.goto index child .running with
          inFlight := state.inFlight + 1 }
  | again : child.finished = true → Move state index child state
  | mark (completed : Bool) :
      child.pc.isFree = true → child.finished = false →
      Move state index child
        (state.goto index { child with finished := true } (.leave completed))
  | leave {completed : Bool} : child.pc = .leave completed →
      Move state index child
        { state.goto index child (.count completed) with
          inFlight := state.inFlight - 1 }
  | complete : child.pc = .count true →
      Move state index child
        { state.goto index child (afterCount cfg (state.completed + 1)) with
          completed := state.completed + 1 }
  | drop : child.pc = .count false →
      Move state index child
        { state.goto index child (.marked false) with
          dropped := state.dropped + 1 }
  | measure {completed : UInt64} {elapsed : Duration}
      {limiter : RetryLoop.State Duration UInt64 Bool} :
      child.pc = .measure completed →
      warnStep cfg.warnEvery state.limiter (.call elapsed) = some limiter →
      Move state index child
        { state.goto index child
            (.ask ⟨completed, elapsed, state.limiter.calls.length⟩) with
          limiter := limiter }
  | granted {report : Report} {call : Call Duration UInt64 Bool} :
      child.pc = .ask report →
      state.limiter.calls[report.call]? = some call →
      call.pc = .returned true →
      Move state index child (state.goto index child (.loadStarted report))
  | refused {report : Report} : child.pc = .ask report →
      Move state index child (state.goto index child (.marked true))
  | loadStarted {report : Report} : child.pc = .loadStarted report →
      Move state index child
        (state.goto index child (.loadDropped report state.started))
  | loadDropped {report : Report} {started : UInt64} :
      child.pc = .loadDropped report started →
      Move state index child
        (state.goto index child (.loadInFlight report started state.dropped))
  | log {report : Report} {started dropped : UInt64} :
      child.pc = .loadInFlight report started dropped →
      Move state index child
        { state.goto index child (.marked true) with
          warnings :=
            state.warnings ++ [⟨report, started, dropped, state.inFlight⟩] }

inductive Step (state : State) : State → Prop where
  | wrap :
      Step state
        { state with
          started := state.started + 1
          children := state.children ++ [⟨false, .enter⟩] }
  | move {index : Nat} {child : Child} {next : State} :
      state.children[index]? = some child →
      Move cfg state index child next → Step state next
  | warn {label : RetryLoop.Label Duration UInt64}
      {limiter : RetryLoop.State Duration UInt64 Bool} :
      warnStep cfg.warnEvery state.limiter label = some limiter →
      Step state { state with limiter := limiter }

variable {cfg}

theorem move_of_advance {state next : State} {index : Nat} {child : Child}
    (taken : state.advance cfg index child = some next) :
    Move cfg state index child next := by
  unfold State.advance at taken
  cases place : child.pc with
  | enter =>
      rw [place] at taken
      cases taken
      exact .enter place
  | running =>
      rw [place] at taken
      cases taken
  | leave completed =>
      rw [place] at taken
      cases taken
      exact .leave place
  | count completed =>
      rw [place] at taken
      cases completed with
      | true =>
          cases taken
          exact .complete place
      | false =>
          cases taken
          exact .drop place
  | measure completed =>
      rw [place] at taken
      cases taken
  | ask report =>
      rw [place] at taken
      obtain ⟨call, asked, taken⟩ := Option.bind_eq_some_iff.mp taken
      cases answered : call.pc with
      | load => simp [answered] at taken
      | exchange expected new answer => simp [answered] at taken
      | returned answer =>
          rw [answered] at taken
          cases answer with
          | true =>
              cases taken
              exact .granted place asked answered
          | false =>
              cases taken
              exact .refused place
  | loadStarted report =>
      rw [place] at taken
      cases taken
      exact .loadStarted place
  | loadDropped report started =>
      rw [place] at taken
      cases taken
      exact .loadDropped place
  | loadInFlight report started dropped =>
      rw [place] at taken
      cases taken
      exact .log place
  | marked completed =>
      rw [place] at taken
      cases taken

theorem move_of_mark {state next : State} {index : Nat} {child : Child}
    {completed : Bool}
    (taken : state.mark index child completed = some next) :
    Move cfg state index child next := by
  unfold State.mark at taken
  split_ifs at taken with free done
  · cases taken
    exact .again done
  · cases taken
    exact .mark completed free (Bool.eq_false_of_not_eq_true done)

theorem move_of_measure {state next : State} {index : Nat} {child : Child}
    {elapsed : Duration}
    (taken : state.measure cfg index child elapsed = some next) :
    Move cfg state index child next := by
  unfold State.measure at taken
  split at taken
  · next completed place =>
      obtain ⟨limiter, called, taken⟩ := Option.bind_eq_some_iff.mp taken
      cases taken
      exact .measure place called
  · cases taken

theorem step_of_step? {state next : State} {label : Label}
    (taken : state.step cfg label = some next) : Step cfg state next := by
  cases label with
  | wrap =>
      cases taken
      exact .wrap
  | mark index completed =>
      obtain ⟨child, current, taken⟩ := Option.bind_eq_some_iff.mp taken
      exact .move current (move_of_mark taken)
  | advance index =>
      obtain ⟨child, current, taken⟩ := Option.bind_eq_some_iff.mp taken
      exact .move current (move_of_advance taken)
  | measure index elapsed =>
      obtain ⟨child, current, taken⟩ := Option.bind_eq_some_iff.mp taken
      exact .move current (move_of_measure taken)
  | warn label =>
      cases label with
      | call elapsed => cases taken
      | load index seen =>
          obtain ⟨limiter, moved, taken⟩ := Option.bind_eq_some_iff.mp taken
          cases taken
          exact .warn moved
      | exchange index =>
          obtain ⟨limiter, moved, taken⟩ := Option.bind_eq_some_iff.mp taken
          cases taken
          exact .warn moved

end Step

end ConcurrentDiagnostics

end HoprUtilities.Runtime
