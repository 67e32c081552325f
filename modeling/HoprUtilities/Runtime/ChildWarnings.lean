import HoprUtilities.Runtime.ConcurrentDiagnostics
import Mathlib.Data.List.Perm.Subperm

/-!
# The warnings about child futures

Each warning goes back to a call of `should_warn` of its own, which has
answered `true`.  The calls are those of a run of `should_warn` alone, so the
warnings keep their distance.
-/

namespace HoprUtilities.Runtime.ConcurrentDiagnostics

open HoprUtilities.Lib HoprUtilities.Lib.RetryLoop

namespace ChildPc

/-- The call of `should_warn` that is answered or pending. -/
def report? : ChildPc → Option Report
  | .ask report | .loadStarted report | .loadDropped report _
  | .loadInFlight report _ _ => some report
  | _ => none

/-- The child stands for the call. -/
def owners (call : Nat) (pc : ChildPc) : Nat :=
  if pc.report?.any (·.call == call) then 1 else 0

end ChildPc

/-- The children and warnings that stand for the call. -/
def State.owners (state : State) (call : Nat) : Nat :=
  total (fun child => child.pc.owners call) state.children +
    (state.warnings.map fun warning => warning.report.call).count call

section Warnings

variable {cfg : DiagnosticsConfig}

/-- The calls of `should_warn` go their own way, as in `ShouldWarn`. -/
theorem Step.limiter {state next : State} (step : Step cfg state next) :
    next.limiter = state.limiter ∨
      ∃ label, warnStep cfg.warnEvery state.limiter label =
        some next.limiter := by
  cases step with
  | wrap => exact .inl rfl
  | move current move =>
      cases move with
      | measure place called => exact .inr ⟨_, called⟩
      | again done => exact .inl rfl
      | _ => exact .inl rfl
  | warn moved => exact .inr ⟨_, moved⟩

theorem reachable_limiter {labels : List Label} {final : State}
    (ended : run (State.step cfg) labels initial = some final) :
    Reachable (warnStep cfg.warnEvery) warnStart final.limiter := by
  have closed : ∀ (state : State) (label : Label) (next : State),
      state.step cfg label = some next →
      Reachable (warnStep cfg.warnEvery) warnStart state.limiter →
      Reachable (warnStep cfg.warnEvery) warnStart next.limiter := by
    intro state label next taken reachable
    rcases (step_of_step? taken).limiter with same | ⟨inner, moved⟩
    · rw [same]
      exact reachable
    · exact reachable.snoc moved
  exact run_invariant closed ended Reachable.refl

theorem ChildPc.owners_of_none {pc : ChildPc} (silent : pc.report? = none)
    (call : Nat) : pc.owners call = 0 := by
  simp [owners, silent]

theorem ChildPc.owners_of_report {pc : ChildPc} (report : Report)
    (reports : pc.report? = some report) (call : Nat) :
    pc.owners call = if report.call = call then 1 else 0 := by
  simp [owners, reports]

/-- The child goes to another place with the same call, or with none. -/
theorem owners_le {state : State} {index : Nat} {old new : Child}
    (current : state.children[index]? = some old)
    (same : new.pc.report? = old.pc.report? ∨ new.pc.report? = none)
    (call : Nat) :
    total (fun child => child.pc.owners call) (state.children.set index new) +
        (state.warnings.map fun warning => warning.report.call).count call ≤
      state.owners call := by
  have balance := total_set (fun child => child.pc.owners call) new current
  have fewer : new.pc.owners call ≤ old.pc.owners call := by
    rcases same with equal | silent
    · unfold ChildPc.owners
      rw [equal]
    · rw [ChildPc.owners_of_none silent]
      exact Nat.zero_le _
  unfold State.owners
  omega

theorem afterCount_report? (completed : UInt64) :
    (afterCount cfg completed).report? = none := by
  unfold afterCount
  split_ifs <;> rfl

/-- A call is owned by a child when it begins, and from then on it passes
from the child to the warning. -/
theorem Move.owners {state next : State} {index : Nat} {child : Child}
    (current : state.children[index]? = some child)
    (move : Move cfg state index child next) (call : Nat) :
    next.owners call ≤ state.owners call ∨
      (call = state.limiter.calls.length ∧
        next.owners call ≤ state.owners call + 1 ∧
        state.limiter.calls.length < next.limiter.calls.length) := by
  cases move with
  | enter place | leave place | drop place | refused place
  | mark completed free fresh =>
      exact .inl (owners_le current (.inr rfl) call)
  | again done => exact .inl (Nat.le_refl _)
  | complete place =>
      exact .inl (owners_le current (.inr (afterCount_report? _)) call)
  | @measure completed elapsed limiter place called =>
      cases called
      have moved := total_set (fun child => child.pc.owners call)
        { child with
          pc := .ask ⟨completed, elapsed, state.limiter.calls.length⟩ } current
      have before : child.pc.owners call = 0 :=
        ChildPc.owners_of_none (by rw [place]; rfl) call
      have after : (ChildPc.ask
          ⟨completed, elapsed, state.limiter.calls.length⟩).owners call =
            if state.limiter.calls.length = call then 1 else 0 :=
        ChildPc.owners_of_report ⟨completed, elapsed, _⟩ rfl call
      simp only [before, after] at moved
      simp only [State.owners, State.goto, List.length_append,
        List.length_singleton]
      split_ifs at moved with own
      · exact .inr ⟨own.symm, by omega, by omega⟩
      · exact .inl (by omega)
  | granted place asked answered | loadStarted place | loadDropped place =>
      have same : _ = child.pc.report? := congrArg ChildPc.report? place.symm
      exact .inl (owners_le current (.inl same) call)
  | @log report started dropped place =>
      have moved := total_set (fun child => child.pc.owners call)
        { child with pc := .marked true } current
      have before : child.pc.owners call =
          if report.call = call then 1 else 0 :=
        ChildPc.owners_of_report report (by rw [place]; rfl) call
      have after : (ChildPc.marked true).owners call = 0 :=
        ChildPc.owners_of_none rfl call
      simp only [before, after] at moved
      refine .inl ?_
      simp only [State.owners, State.goto, List.map_append, List.map_cons,
        List.map_nil, List.count_append, List.count_singleton, beq_iff_eq]
      omega

theorem Step.owners {state next : State} (step : Step cfg state next)
    (call : Nat) :
    next.owners call ≤ state.owners call ∨
      (call = state.limiter.calls.length ∧
        next.owners call ≤ state.owners call + 1 ∧
        state.limiter.calls.length < next.limiter.calls.length) := by
  cases step with
  | wrap =>
      refine .inl ?_
      have silent : ChildPc.enter.owners call = 0 :=
        ChildPc.owners_of_none rfl call
      simp [State.owners, silent]
  | move current move => exact move.owners current call
  | warn moved => exact .inl (Nat.le_refl _)

theorem Step.limiter_length_le {state next : State}
    (step : Step cfg state next) :
    state.limiter.calls.length ≤ next.limiter.calls.length := by
  rcases step.limiter with same | ⟨_, moved⟩
  · rw [same]
  · exact (RetryLoop.step_of_step? _ moved).length_le

/-- Each call has one child or warning at most, and those that have not begun
have none. -/
def Single (state : State) : Prop :=
  ∀ call, state.owners call ≤
    if call < state.limiter.calls.length then 1 else 0

theorem single_initial : Single initial := by
  intro call
  exact Nat.zero_le _

theorem Single.step {state next : State} (single : Single state)
    (step : Step cfg state next) : Single next := by
  intro call
  have before := single call
  have longer := step.limiter_length_le
  rcases step.owners call with fewer | ⟨begins, more, grown⟩
  · split_ifs at before ⊢ <;> omega
  · split_ifs at before ⊢ <;> omega

/-! The children and the warnings know what `should_warn` has been called with
and what it has answered. -/

/-- A warning is due: the threshold is reached and `should_warn` has answered
`true`. -/
structure Report.Granted (cfg : DiagnosticsConfig)
    (limiter : RetryLoop.State Duration UInt64 Bool) (report : Report) :
    Prop where
  reached : cfg.warnAfter ≤ report.completed
  answered : limiter.calls[report.call]? =
    some ⟨report.elapsed, .returned true⟩

inductive ChildPc.Backed (cfg : DiagnosticsConfig)
    (limiter : RetryLoop.State Duration UInt64 Bool) : ChildPc → Prop where
  | measure {completed : UInt64} : cfg.warnAfter ≤ completed →
      Backed cfg limiter (.measure completed)
  | ask {report : Report} {call : Call Duration UInt64 Bool} :
      cfg.warnAfter ≤ report.completed →
      limiter.calls[report.call]? = some call →
      call.input = report.elapsed → Backed cfg limiter (.ask report)
  | loadStarted {report : Report} : report.Granted cfg limiter →
      Backed cfg limiter (.loadStarted report)
  | loadDropped {report : Report} {started : UInt64} :
      report.Granted cfg limiter →
      Backed cfg limiter (.loadDropped report started)
  | loadInFlight {report : Report} {started dropped : UInt64} :
      report.Granted cfg limiter →
      Backed cfg limiter (.loadInFlight report started dropped)
  | enter : Backed cfg limiter .enter
  | running : Backed cfg limiter .running
  | leave {completed : Bool} : Backed cfg limiter (.leave completed)
  | count {completed : Bool} : Backed cfg limiter (.count completed)
  | marked {completed : Bool} : Backed cfg limiter (.marked completed)

structure Backed (cfg : DiagnosticsConfig) (state : State) : Prop where
  children : ∀ child ∈ state.children, child.pc.Backed cfg state.limiter
  warnings : ∀ warning ∈ state.warnings,
    warning.report.Granted cfg state.limiter

theorem Step.stays {state next : State} (step : Step cfg state next) :
    Stays state.limiter.calls next.limiter.calls := by
  rcases step.limiter with same | ⟨_, moved⟩
  · rw [same]
    exact .refl _
  · exact (RetryLoop.step_of_step? _ moved).stays

theorem Report.Granted.mono
    {before after : RetryLoop.State Duration UInt64 Bool} {report : Report}
    (granted : report.Granted cfg before)
    (stays : Stays before.calls after.calls) : report.Granted cfg after := by
  obtain ⟨later, here, _, same⟩ := stays _ _ granted.answered
  exact ⟨granted.reached, same true rfl ▸ here⟩

theorem ChildPc.Backed.mono
    {before after : RetryLoop.State Duration UInt64 Bool} {pc : ChildPc}
    (backed : pc.Backed cfg before) (stays : Stays before.calls after.calls) :
    pc.Backed cfg after := by
  cases backed with
  | measure reached => exact .measure reached
  | ask reached here same =>
      obtain ⟨later, there, input, _⟩ := stays _ _ here
      exact .ask reached there (input.trans same)
  | loadStarted granted => exact .loadStarted (granted.mono stays)
  | loadDropped granted => exact .loadDropped (granted.mono stays)
  | loadInFlight granted => exact .loadInFlight (granted.mono stays)
  | enter => exact .enter
  | running => exact .running
  | leave => exact .leave
  | count => exact .count
  | marked => exact .marked

theorem Backed.move {state next : State} (backed : Backed cfg state)
    (stays : Stays state.limiter.calls next.limiter.calls) {index : Nat}
    {child : Child} (moved : next.children = state.children.set index child)
    (place : child.pc.Backed cfg next.limiter)
    (warned : ∀ warning ∈ next.warnings, warning ∈ state.warnings ∨
      warning.report.Granted cfg next.limiter) : Backed cfg next where
  children := by
    rw [moved]
    refine forall_set (fun other member => ?_) place
    exact (backed.children other member).mono stays
  warnings := by
    intro warning member
    rcases warned warning member with old | granted
    · exact (backed.warnings warning old).mono stays
    · exact granted

theorem Backed.advance {state next : State} (backed : Backed cfg state)
    {index : Nat} {child : Child}
    (current : state.children[index]? = some child)
    (move : Move cfg state index child next) : Backed cfg next := by
  have stays := (Step.move current move).stays
  have before := backed.children child (List.mem_of_getElem? current)
  cases move with
  | enter place =>
      exact backed.move stays rfl .running (fun _ member => .inl member)
  | again done => exact backed
  | mark completed free fresh =>
      exact backed.move stays rfl .leave (fun _ member => .inl member)
  | leave place =>
      exact backed.move stays rfl .count (fun _ member => .inl member)
  | complete place =>
      refine backed.move stays rfl ?_ (fun _ member => .inl member)
      simp only [afterCount]
      split_ifs with reached
      · exact .measure reached
      · exact .marked
  | drop place | refused place =>
      exact backed.move stays rfl .marked (fun _ member => .inl member)
  | measure place called =>
      rw [place] at before
      cases before with
      | measure reached =>
          cases called
          exact backed.move stays rfl
            (.ask reached List.getElem?_concat_length rfl)
            (fun _ member => .inl member)
  | @granted report call place asked answered =>
      rw [place] at before
      cases before with
      | @ask _ other reached here same =>
          cases asked.symm.trans here
          refine backed.move stays rfl (.loadStarted ⟨reached, ?_⟩)
            (fun _ member => .inl member)
          cases call
          cases same
          cases answered
          exact here
  | loadStarted place =>
      rw [place] at before
      cases before with
      | loadStarted granted =>
          exact backed.move stays rfl (.loadDropped granted)
            (fun _ member => .inl member)
  | loadDropped place =>
      rw [place] at before
      cases before with
      | loadDropped granted =>
          exact backed.move stays rfl (.loadInFlight granted)
            (fun _ member => .inl member)
  | log place =>
      rw [place] at before
      cases before with
      | loadInFlight granted =>
          refine backed.move stays rfl .marked ?_
          intro warning member
          rcases List.mem_append.mp member with old | new
          · exact .inl old
          · cases List.mem_singleton.mp new
            exact .inr granted

theorem backed_initial : Backed cfg initial where
  children := by
    intro child member
    cases member
  warnings := by
    intro warning member
    cases member

theorem Backed.step {state next : State} (backed : Backed cfg state)
    (step : Step cfg state next) : Backed cfg next := by
  have stays := step.stays
  cases step with
  | wrap =>
      exact ⟨forall_concat backed.children .enter, backed.warnings⟩
  | move current move => exact backed.advance current move
  | warn moved =>
      exact ⟨fun child member => (backed.children child member).mono stays,
        fun warning member => (backed.warnings warning member).mono stays⟩

variable {labels : List Label} {final : State}

theorem single_of_run
    (ended : run (State.step cfg) labels initial = some final) :
    Single final :=
  run_invariant (fun _ _ _ taken single => single.step (step_of_step? taken))
    ended single_initial

theorem backed_of_run
    (ended : run (State.step cfg) labels initial = some final) :
    Backed cfg final :=
  run_invariant (fun _ _ _ taken backed => backed.step (step_of_step? taken))
    ended backed_initial

theorem nodup_warnings
    (ended : run (State.step cfg) labels initial = some final) :
    (final.warnings.map fun warning => warning.report.call).Nodup := by
  rw [List.nodup_iff_count_le_one]
  intro call
  have single := single_of_run ended call
  unfold State.owners at single
  split_ifs at single <;> omega

theorem warnings_subperm
    (ended : run (State.step cfg) labels initial = some final) :
    (final.warnings.map fun warning =>
      warning.report.elapsed.clampNanos.toNat).Subperm
        (warnedAt final.limiter) := by
  obtain ⟨inner, reached⟩ := reachable_limiter ended
  have sound := sound_of_run reached
  have granted : ∀ warning ∈ final.warnings,
      (warning.report.call, warning.report.elapsed.clampNanos) ∈
        final.limiter.exchanges := by
    intro warning member
    have answered := ((backed_of_run ended).warnings warning member).answered
    exact (mem_exchanges_iff cfg.warnEvery_pos sound _ _).mpr
      ⟨_, answered, rfl⟩
  have single : (final.warnings.map fun warning =>
      (warning.report.call, warning.report.elapsed.clampNanos)).Nodup := by
    refine .of_map Prod.fst ?_
    rw [List.map_map]
    exact nodup_warnings ended
  have inside : (final.warnings.map fun warning =>
      (warning.report.call, warning.report.elapsed.clampNanos)) ⊆
        final.limiter.exchanges := by
    intro pair member
    obtain ⟨warning, there, rfl⟩ := List.mem_map.mp member
    exact granted warning there
  obtain ⟨picked, permuted, part⟩ := List.subperm_of_subset single inside
  have numbers := permuted.map fun exchange => exchange.2.toNat
  rw [List.map_map] at numbers
  exact ⟨_, numbers, part.map _⟩

/-- In every order of the steps, a warning comes after `warn_after`
completions, and no window of elapsed times as long as `warn_every` sees
two. -/
theorem warnings_limited
    (ended : run (State.step cfg) labels initial = some final) :
    (∀ warning ∈ final.warnings,
      cfg.warnAfter ≤ warning.report.completed) ∧
    ∀ opening, (final.warnings.map fun warning =>
      warning.report.elapsed.clampNanos.toNat).countP (fun time =>
        opening ≤ time ∧ time < opening + cfg.warnEvery.clampNanos.toNat) ≤
          1 := by
  constructor
  · intro warning member
    exact ((backed_of_run ended).warnings warning member).reached
  · intro opening
    obtain ⟨inner, reached⟩ := reachable_limiter ended
    exact (List.Subperm.countP_le _ (warnings_subperm ended)).trans
      (window_le_one cfg.warnEvery_pos reached opening)

theorem one_warns : (0 : UInt64) < 1 :=
  UInt64.lt_iff_toNat_lt.mpr Nat.one_pos

theorem second_pos : 0 < (Duration.ofSecs 1).asNanos := by
  rw [Duration.asNanos_ofSecs]
  exact Nat.mul_pos Nat.one_pos (Nat.succ_pos _)

/-- Warnings from the first future on, every second. -/
def eager : DiagnosticsConfig where
  enabled := true
  warnAfter := 1
  warnEvery := .ofSecs 1
  warnAfter_pos := one_warns
  warnEvery_pos := second_pos

/-- Two futures are completed after two seconds.  Only one of them warns. -/
def bothComplete : List Label :=
  [.wrap, .wrap, .advance 0, .advance 1, .mark 0 true, .mark 1 true,
    .advance 0, .advance 1, .advance 0, .advance 1, .measure 0 (.ofSecs 2),
    .measure 1 (.ofSecs 2), .warn (.load 0 0), .warn (.load 1 0),
    .warn (.exchange 0), .warn (.exchange 1), .warn (.load 1 2000000000),
    .advance 0, .advance 1, .advance 0, .advance 0, .advance 0]

theorem warnings_limited_both :
    ∃ final, run (State.step eager) bothComplete initial = some final ∧
      final.warnings.length = 1 ∧
      ∀ warning ∈ final.warnings, eager.warnAfter ≤ warning.report.completed := by
  have passed : (run (State.step eager) bothComplete initial).any
      (fun final => final.warnings.length == 1) = true := by
    decide +kernel
  obtain ⟨final, ended, one⟩ := exists_run _ passed
  exact ⟨final, ended, eq_of_beq one, (warnings_limited ended).1⟩

end Warnings

end HoprUtilities.Runtime.ConcurrentDiagnostics
