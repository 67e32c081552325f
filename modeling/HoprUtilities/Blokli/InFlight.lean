import HoprUtilities.Lib.Transition
import HoprUtilities.Lib.Watermark
import Mathlib.Logic.Function.Basic

/-!
# Writes in flight

The embedding of `enter_in_flight`, `leave_in_flight` and `InFlightGuard` from
`src/testing/blokli/faults.rs`.  Every access to an entry of a map or to an
atomic counter is a step of its own, and the guards take their steps in any
order.  A guard may be dropped at any time after it has been returned.

Counters are natural numbers with the saturation of the subtractions.
-/

namespace HoprUtilities.Blokli

open HoprUtilities.Lib

inductive ChainOp where
  | safeInfo
  | balance
  | ticketPrice
  | winProb
  | resolutionTime
  | streamChannels
  | streamAccounts
  | openChannel
  | fundChannel
  | closeChannel
  deriving DecidableEq, Repr

/-- The fields of `ChainFaults` that count. -/
structure InFlightCounters where
  inFlight : ChainOp → Option Nat
  peakInFlight : ChainOp → Option Nat
  inFlightTotal : Nat
  peakInFlightTotal : Nat

/-- The next step of a guard: the four of `enter_in_flight` until it is live,
and the two of `leave_in_flight` once it is being dropped. -/
inductive GuardPc where
  | count
  | peak
  | countTotal
  | peakTotal
  | live
  | leave
  | leaveTotal
  | dropped
  deriving DecidableEq, Repr

/-- `outstanding` and `total` are the variables of `enter_in_flight`, as soon
as they are bound. -/
structure InFlightGuard where
  op : ChainOp
  pc : GuardPc
  outstanding : Nat
  total : Nat
  deriving DecidableEq, Repr

namespace InFlightCounters

def new : InFlightCounters where
  inFlight := fun _ => none
  peakInFlight := fun _ => none
  inFlightTotal := 0
  peakInFlightTotal := 0

def peakOf (self : InFlightCounters) (op : ChainOp) : Nat :=
  (self.peakInFlight op).getD 0

/-- The next step of a guard.  A live guard waits to be dropped. -/
def advance (self : InFlightCounters) (guard : InFlightGuard) :
    Option (InFlightCounters × InFlightGuard) :=
  match guard.pc with
  | .count =>
      let outstanding := (self.inFlight guard.op).getD 0 + 1
      some
        ({ self with
            inFlight :=
              Function.update self.inFlight guard.op (some outstanding) },
          { guard with pc := .peak, outstanding := outstanding })
  | .peak =>
      let peak :=
        match self.peakInFlight guard.op with
        | some peak => max peak guard.outstanding
        | none => guard.outstanding
      some
        ({ self with
            peakInFlight :=
              Function.update self.peakInFlight guard.op (some peak) },
          { guard with pc := .countTotal })
  | .countTotal =>
      let total := self.inFlightTotal + 1
      some
        ({ self with inFlightTotal := total },
          { guard with pc := .peakTotal, total := total })
  | .peakTotal =>
      some
        ({ self with
            peakInFlightTotal := max self.peakInFlightTotal guard.total },
          { guard with pc := .live })
  | .leave =>
      let inFlight :=
        match self.inFlight guard.op with
        | some outstanding =>
            Function.update self.inFlight guard.op (some (outstanding - 1))
        | none => self.inFlight
      some ({ self with inFlight := inFlight },
        { guard with pc := .leaveTotal })
  | .leaveTotal =>
      some ({ self with inFlightTotal := self.inFlightTotal - 1 },
        { guard with pc := .dropped })
  | .live | .dropped => none

end InFlightCounters

/-- Somebody calls `enter_in_flight`, a guard takes its next step, or a live
guard begins to be dropped. -/
inductive InFlightLabel where
  | enter (op : ChainOp)
  | advance (index : Nat)
  | drop (index : Nat)
  deriving DecidableEq, Repr

structure InFlightState where
  counters : InFlightCounters
  guards : List InFlightGuard

namespace InFlightState

def start : InFlightState where
  counters := .new
  guards := []

def step (self : InFlightState) : InFlightLabel → Option InFlightState
  | .enter op =>
      some
        { self with
          guards := self.guards ++
            [{ op := op
               pc := .count
               outstanding := 0
               total := 0 }] }
  | .advance index => do
      let guard ← self.guards[index]?
      let (counters, next) ← self.counters.advance guard
      return { counters := counters, guards := self.guards.set index next }
  | .drop index => do
      let guard ← self.guards[index]?
      if guard.pc = .live then
        return { self with
          guards := self.guards.set index { guard with pc := .leave } }
      else none

end InFlightState

/-- The writes of one operation, or all of them. -/
inductive Scope where
  | of (op : ChainOp)
  | all
  deriving DecidableEq, Repr

namespace Scope

def covers : Scope → InFlightGuard → Bool
  | of op, guard => guard.op = op
  | all, _ => true

def count : Scope → InFlightCounters → Nat
  | of op, counters => (counters.inFlight op).getD 0
  | all, counters => counters.inFlightTotal

def peak : Scope → InFlightCounters → Nat
  | of op, counters => counters.peakOf op
  | all, counters => counters.peakInFlightTotal

/-- From the step that raises the counter to the step that lowers it. -/
def counted : Scope → GuardPc → Bool
  | of _, .peak | of _, .countTotal | of _, .peakTotal | of _, .live
  | of _, .leave => true
  | all, .peakTotal | all, .live | all, .leave | all, .leaveTotal => true
  | _, _ => false

/-- After the step that raises the mark. -/
def marked : Scope → GuardPc → Bool
  | of _, .countTotal | of _, .peakTotal | of _, .live => true
  | all, .live => true
  | _, _ => false

def number : Scope → InFlightGuard → Nat
  | of _, guard => guard.outstanding
  | all, guard => guard.total

/-- What a guard is to the counter of the scope. -/
def view (scope : Scope) : ThreadView InFlightGuard where
  rank guard :=
    if scope.covers guard && scope.counted guard.pc then
      some (scope.number guard)
    else none
  reported guard := scope.covers guard && scope.marked guard.pc

/-- From the return of `enter_in_flight` to the start of the drop. -/
def live (scope : Scope) (guard : InFlightGuard) : Nat :=
  if scope.covers guard && guard.pc = .live then 1 else 0

/-- From the first step of `enter_in_flight` to the last step of the drop. -/
def begun (scope : Scope) (guard : InFlightGuard) : Nat :=
  if scope.covers guard && guard.pc ≠ .count && guard.pc ≠ .dropped then 1
  else 0

end Scope

namespace InFlightState

def live (self : InFlightState) (scope : Scope) : Nat :=
  total scope.live self.guards

def begun (self : InFlightState) (scope : Scope) : Nat :=
  total scope.begun self.guards

/-- Nobody is entering or leaving. -/
def quiescent (self : InFlightState) : Bool :=
  self.guards.all fun guard => guard.pc = .live || guard.pc = .dropped

end InFlightState

theorem Scope.live_le_reported (scope : Scope) (guard : InFlightGuard) :
    scope.live guard ≤ if scope.view.reported guard then 1 else 0 := by
  obtain ⟨op, pc, outstanding, total⟩ := guard
  cases scope <;> cases pc <;> simp [live, view, marked]

theorem Scope.inside_le_begun (scope : Scope) (guard : InFlightGuard) :
    inside scope.view.rank guard ≤ scope.begun guard := by
  obtain ⟨op, pc, outstanding, total⟩ := guard
  cases covered : scope.covers ⟨op, pc, outstanding, total⟩
  · simp [inside, view, covered]
  · cases scope <;> cases pc <;> simp [inside, view, counted, begun, covered]

theorem Scope.rank_own (op : ChainOp) (pc : GuardPc)
    (outstanding total : Nat) :
    (Scope.of op).view.rank ⟨op, pc, outstanding, total⟩ =
      if (Scope.of op).counted pc then some outstanding else none := by
  simp [view, covers, number]

theorem Scope.reported_own (op : ChainOp) (pc : GuardPc)
    (outstanding total : Nat) :
    (Scope.of op).view.reported ⟨op, pc, outstanding, total⟩ =
      (Scope.of op).marked pc := by
  simp [view, covers]

namespace InFlightCounters

theorem advance_leave {counters after : InFlightCounters} {op : ChainOp}
    {outstanding total : Nat} {next : InFlightGuard}
    (taken : counters.advance ⟨op, .leave, outstanding, total⟩ =
      some (after, next)) :
    next = ⟨op, .leaveTotal, outstanding, total⟩ ∧
      (after.inFlight op).getD 0 = (counters.inFlight op).getD 0 - 1 ∧
      (∀ other, other ≠ op →
        after.inFlight other = counters.inFlight other) ∧
      after.peakInFlight = counters.peakInFlight := by
  cases present : counters.inFlight op with
  | none =>
      simp only [advance, present, Option.some.injEq] at taken
      cases taken
      exact ⟨rfl, by simp [present], fun _ _ => rfl, rfl⟩
  | some number =>
      simp only [advance, present, Option.some.injEq] at taken
      cases taken
      exact ⟨rfl, by simp, fun _ apart => Function.update_of_ne apart _ _,
        rfl⟩

/-- A step of a guard of another operation is nothing to the counter. -/
theorem moves_other {op : ChainOp} {counters after : InFlightCounters}
    {guard next : InFlightGuard}
    (taken : counters.advance guard = some (after, next))
    (other : guard.op ≠ op) :
    ThreadMoves (Scope.of op).view guard next ((Scope.of op).count counters)
      ((Scope.of op).peak counters) ((Scope.of op).count after)
      ((Scope.of op).peak after) := by
  have apart : op ≠ guard.op := fun same => other same.symm
  obtain ⟨own, pc, outstanding, total⟩ := guard
  have unchanged : next.op = own ∧
      after.inFlight op = counters.inFlight op ∧
      after.peakInFlight op = counters.peakInFlight op := by
    cases pc with
    | live => cases taken
    | dropped => cases taken
    | leave =>
        obtain ⟨rfl, _, others, peak⟩ := advance_leave taken
        exact ⟨rfl, others op apart, congrFun peak op⟩
    | count =>
        cases taken
        exact ⟨rfl, Function.update_of_ne apart _ _, rfl⟩
    | peak =>
        cases taken
        exact ⟨rfl, rfl, Function.update_of_ne apart _ _⟩
    | countTotal =>
        cases taken
        exact ⟨rfl, rfl, rfl⟩
    | peakTotal =>
        cases taken
        exact ⟨rfl, rfl, rfl⟩
    | leaveTotal =>
        cases taken
        exact ⟨rfl, rfl, rfl⟩
  obtain ⟨same, count, peak⟩ := unchanged
  have elsewhere : next.op ≠ op := by rwa [same]
  have same_count : (Scope.of op).count after =
      (Scope.of op).count counters := by
    rw [Scope.count, Scope.count, count]
  have same_peak : (Scope.of op).peak after =
      (Scope.of op).peak counters := by
    rw [Scope.peak, Scope.peak, peakOf, peakOf, peak]
  rw [same_count, same_peak]
  refine .keep ?_ ?_
  · simp [Scope.view, Scope.covers, other, elsewhere]
  · simp [Scope.view, Scope.covers, elsewhere]

theorem moves_own {counters after : InFlightCounters}
    {guard next : InFlightGuard}
    (taken : counters.advance guard = some (after, next)) :
    ThreadMoves (Scope.of guard.op).view guard next
      ((Scope.of guard.op).count counters)
      ((Scope.of guard.op).peak counters) ((Scope.of guard.op).count after)
      ((Scope.of guard.op).peak after) := by
  obtain ⟨op, pc, outstanding, total⟩ := guard
  cases pc with
  | live => cases taken
  | dropped => cases taken
  | count =>
      cases taken
      simp only [Scope.count, Scope.peak, peakOf, Function.update_self,
        Option.getD_some]
      exact .enter (Scope.rank_own op .count outstanding total)
        (Scope.rank_own op .peak _ total)
        (Scope.reported_own op .peak _ total)
  | peak =>
      have raised : (match counters.peakInFlight op with
          | some peak => max peak outstanding
          | none => outstanding) =
            max ((counters.peakInFlight op).getD 0) outstanding := by
        cases counters.peakInFlight op <;> simp
      cases taken
      simp only [Scope.count, Scope.peak, peakOf, Function.update_self,
        Option.getD_some, raised]
      exact .report (Scope.rank_own op .peak outstanding total)
        (Scope.rank_own op .countTotal outstanding total)
  | countTotal =>
      cases taken
      refine .keep ?_ ?_
      · simp only [Scope.rank_own, Scope.counted]
      · simp only [Scope.reported_own, Scope.marked, implies_true]
  | peakTotal =>
      cases taken
      refine .keep ?_ ?_
      · simp only [Scope.rank_own, Scope.counted]
      · simp only [Scope.reported_own, Scope.marked, implies_true]
  | leave =>
      obtain ⟨rfl, count, _, peak⟩ := advance_leave taken
      simp only [Scope.count, Scope.peak, peakOf, count, peak]
      exact .leave (Scope.rank_own op .leave outstanding total)
        (Scope.rank_own op .leaveTotal outstanding total)
        (Scope.reported_own op .leaveTotal outstanding total)
  | leaveTotal =>
      cases taken
      refine .keep ?_ ?_
      · simp [Scope.rank_own, Scope.counted]
      · simp only [Scope.reported_own, Scope.marked, imp_self]

theorem moves_all {counters after : InFlightCounters}
    {guard next : InFlightGuard}
    (taken : counters.advance guard = some (after, next)) :
    ThreadMoves Scope.all.view guard next (Scope.all.count counters)
      (Scope.all.peak counters) (Scope.all.count after)
      (Scope.all.peak after) := by
  obtain ⟨op, pc, outstanding, total⟩ := guard
  cases pc with
  | live => cases taken
  | dropped => cases taken
  | count =>
      cases taken
      exact .keep rfl (by simp [Scope.view, Scope.marked])
  | peak =>
      cases taken
      exact .keep rfl (by simp [Scope.view, Scope.marked])
  | countTotal =>
      cases taken
      exact .enter rfl rfl rfl
  | peakTotal =>
      cases taken
      exact .report rfl rfl
  | leave =>
      cases taken
      exact .keep rfl (by simp [Scope.view, Scope.marked])
  | leaveTotal =>
      cases taken
      exact .leave rfl rfl rfl

theorem moves_advance {counters after : InFlightCounters}
    {guard next : InFlightGuard}
    (taken : counters.advance guard = some (after, next)) (scope : Scope) :
    ThreadMoves scope.view guard next (scope.count counters)
      (scope.peak counters)
      (scope.count after) (scope.peak after) := by
  cases scope with
  | all => exact moves_all taken
  | of op =>
      by_cases own : guard.op = op
      · subst own
        exact moves_own taken
      · exact moves_other taken own

end InFlightCounters

theorem Scope.moves_drop (scope : Scope) {guard : InFlightGuard}
    (live : guard.pc = .live) (count peak : Nat) :
    ThreadMoves scope.view guard { guard with pc := .leave } count peak count
      peak := by
  obtain ⟨op, pc, outstanding, total⟩ := guard
  cases live
  cases scope with
  | of other => exact .keep rfl (by simp [view, marked])
  | all => exact .keep rfl (by simp [view, marked])

namespace InFlightState

/-- Every counter and its mark fit the guards, and no mark was ever passed. -/
structure Watched (past : List InFlightState) (state : InFlightState) :
    Prop where
  marked : ∀ scope : Scope,
    Marked scope.view
      (past.map fun moment => total (inside scope.view.rank) moment.guards)
      state.guards (scope.count state.counters) (scope.peak state.counters)
  highest : ∀ scope : Scope, ∀ moment ∈ past,
    moment.live scope ≤ scope.peak state.counters

theorem watched_start : Watched [start] start where
  marked := by
    intro scope
    cases scope with
    | of op => exact Marked.start _
    | all => exact Marked.start _
  highest := by
    intro scope moment member
    rw [List.mem_singleton.mp member]
    exact Nat.zero_le _

theorem Watched.extend {past : List InFlightState}
    {state next : InFlightState} (watched : Watched past state)
    (marked : ∀ scope : Scope,
      Marked scope.view
        ((past ++ [next]).map fun moment =>
          total (inside scope.view.rank) moment.guards)
        next.guards (scope.count next.counters) (scope.peak next.counters))
    (raised : ∀ scope : Scope,
      scope.peak state.counters ≤ scope.peak next.counters) :
    Watched (past ++ [next]) next where
  marked := marked
  highest := by
    intro scope moment member
    rcases List.mem_append.mp member with before | now
    · exact Nat.le_trans (watched.highest scope moment before) (raised scope)
    · rw [List.mem_singleton.mp now]
      exact (marked scope).reported_le scope.live_le_reported

theorem watched_step (past : List InFlightState) (state : InFlightState)
    (label : InFlightLabel) (next : InFlightState)
    (taken : state.step label = some next)
    (watched : Watched (past ++ [state]) state) :
    Watched (past ++ [state] ++ [next]) next := by
  cases label with
  | enter op =>
      cases taken
      refine watched.extend (fun scope => ?_) fun scope => Nat.le_refl _
      rw [List.map_append]
      refine (watched.marked scope).concat ?_ ?_ _
      · cases scope <;> simp [Scope.view, Scope.counted]
      · cases scope <;> simp [Scope.view, Scope.marked]
  | advance index =>
      obtain ⟨guard, current, taken⟩ := Option.bind_eq_some_iff.mp taken
      obtain ⟨⟨counters, moved⟩, advanced, taken⟩ :=
        Option.bind_eq_some_iff.mp taken
      cases taken
      have moves := InFlightCounters.moves_advance advanced
      refine watched.extend (fun scope => ?_) fun scope => (moves scope).peak_le
      rw [List.map_append]
      exact (watched.marked scope).move current (moves scope)
  | drop index =>
      obtain ⟨guard, current, taken⟩ := Option.bind_eq_some_iff.mp taken
      split_ifs at taken with live
      cases taken
      refine watched.extend (fun scope => ?_) fun scope => Nat.le_refl _
      rw [List.map_append]
      exact (watched.marked scope).move current (scope.moves_drop live _ _)

theorem watched_run {labels : List InFlightLabel} {final : InFlightState}
    (ran : run step labels start = some final) :
    Watched (moments step labels start) final := by
  have initially : Watched ([] ++ [start]) start := watched_start
  have history := run_history watched_step ran initially
  rwa [List.nil_append] at history

/-- If nobody is entering or leaving, the guards inside are the live ones. -/
theorem inside_eq_live {state : InFlightState} (quiet : state.quiescent = true)
    (scope : Scope) :
    total (inside scope.view.rank) state.guards = state.live scope := by
  apply total_congr
  intro guard member
  have settled := List.all_eq_true.mp quiet guard member
  obtain ⟨op, pc, outstanding, total⟩ := guard
  cases covered : scope.covers ⟨op, pc, outstanding, total⟩
  · simp [inside, Scope.view, Scope.live, covered]
  · cases scope <;> cases pc <;>
      simp [inside, Scope.view, Scope.counted, Scope.live, covered] at settled ⊢

/-- The counters are the live guards whenever nobody is entering or leaving, no
subtraction saturates, and the marks lie between the most guards that were live
and the most that were begun at any moment. -/
theorem watermarks_tight {labels : List InFlightLabel}
    {final : InFlightState} (ran : run step labels start = some final) :
    (final.quiescent = true →
      (∀ op, (final.counters.inFlight op).getD 0 = final.live (.of op)) ∧
      final.counters.inFlightTotal = final.live .all) ∧
    (∀ guard ∈ final.guards,
      (guard.pc = .leave →
        ∃ others, final.counters.inFlight guard.op = some (others + 1)) ∧
      (guard.pc = .leaveTotal → 0 < final.counters.inFlightTotal)) ∧
    (∀ op,
      (∀ moment ∈ moments step labels start,
        moment.live (.of op) ≤ final.counters.peakOf op) ∧
      ∃ moment ∈ moments step labels start,
        final.counters.peakOf op ≤ moment.begun (.of op)) ∧
    (∀ moment ∈ moments step labels start,
      moment.live .all ≤ final.counters.peakInFlightTotal) ∧
    ∃ moment ∈ moments step labels start,
      final.counters.peakInFlightTotal ≤ moment.begun .all := by
  have watched := watched_run ran
  have lowest : ∀ scope : Scope, ∃ moment ∈ moments step labels start,
      scope.peak final.counters ≤ moment.begun scope := by
    intro scope
    obtain ⟨once, remembered, bound⟩ := (watched.marked scope).peak
    obtain ⟨moment, member, rfl⟩ := List.mem_map.mp remembered
    exact ⟨moment, member,
      Nat.le_trans bound (total_le_total scope.inside_le_begun)⟩
  refine ⟨fun quiet => ⟨fun op => ?_, ?_⟩, fun guard member => ⟨?_, ?_⟩,
    fun op => ⟨watched.highest (.of op), lowest (.of op)⟩,
    watched.highest .all, lowest .all⟩
  · rw [← inside_eq_live quiet]
    exact (watched.marked (.of op)).gauged.counted
  · rw [← inside_eq_live quiet]
    exact (watched.marked .all).gauged.counted
  · intro leaving
    obtain ⟨index, current⟩ := List.mem_iff_getElem?.mp member
    have present : (Scope.of guard.op).view.rank guard =
        some guard.outstanding := by
      rw [Scope.rank_own, leaving]
      rfl
    have positive :=
      (watched.marked (.of guard.op)).gauged.positive current present
    cases entry : final.counters.inFlight guard.op with
    | none => simp [Scope.count, entry] at positive
    | some number =>
        simp only [Scope.count, entry, Option.getD_some] at positive
        exact ⟨number - 1, congrArg some (by omega)⟩
  · intro leaving
    obtain ⟨index, current⟩ := List.mem_iff_getElem?.mp member
    have present : Scope.all.view.rank guard = some guard.total := by
      simp [Scope.view, Scope.covers, Scope.counted, Scope.number, leaving]
    exact (watched.marked .all).gauged.positive current present

/-- One guard is dropped while the other one enters. -/
theorem watermarks_tight_overlap :
    let labels : List InFlightLabel :=
      [.enter .openChannel, .advance 0, .advance 0, .advance 0, .advance 0,
        .enter .openChannel, .advance 1, .drop 0, .advance 0, .advance 1,
        .advance 0, .advance 1, .advance 1]
    ∃ final, run step labels start = some final ∧
      (final.counters.inFlight .openChannel).getD 0 = 1 ∧
      final.counters.inFlightTotal = 1 ∧
      final.counters.peakOf .openChannel = 2 ∧
      final.counters.peakInFlightTotal = 1 := by
  intro labels
  have quiet : (run step labels start).map quiescent = some true := by rfl
  obtain ⟨final, ran, settled⟩ := Option.map_eq_some_iff.mp quiet
  obtain ⟨counted, _⟩ := watermarks_tight ran
  obtain ⟨each, all⟩ := counted settled
  refine ⟨final, ran, (each .openChannel).trans ?_, all.trans ?_, ?_, ?_⟩
  all_goals
    cases ran
    rfl

end InFlightState

end HoprUtilities.Blokli
