import HoprUtilities.Runtime.ConcurrentDiagnostics

/-!
# The counters of child futures

Each counter but `started` goes up or down as children come to the places that
it counts, so that it is the number of children there.  No child is counted
twice, and none is lost.
-/

namespace HoprUtilities.Runtime.ConcurrentDiagnostics

open HoprUtilities.Lib HoprUtilities.Lib.RetryLoop

inductive Tally where
  | completed
  | dropped
  | inFlight

def State.counter (state : State) : Tally → UInt64
  | .completed => state.completed
  | .dropped => state.dropped
  | .inFlight => state.inFlight

namespace ChildPc

/-- The places at which a child has been counted. -/
def counts : Tally → ChildPc → Nat
  | .inFlight, .running | .inFlight, .leave _ => 1
  | .dropped, .marked false => 1
  | .completed, .marked true | .completed, .measure _ | .completed, .ask _
  | .completed, .loadStarted _ | .completed, .loadDropped _ _
  | .completed, .loadInFlight _ _ _ => 1
  | _, _ => 0

/-- The places between two counters. -/
def between : ChildPc → Nat
  | .enter | .count _ => 1
  | _ => 0

/-- The child has passed the swap of `mark_finished`. -/
def isMarked : ChildPc → Bool
  | .enter | .running => false
  | _ => true

theorem eq_running {pc : ChildPc} (free : pc.isFree = true)
    (unmarked : pc.isMarked = false) : pc = .running := by
  cases pc with
  | running => rfl
  | marked completed => cases unmarked
  | enter => cases free
  | leave completed | count completed | measure completed => cases free
  | ask report | loadStarted report => cases free
  | loadDropped report started => cases free
  | loadInFlight report started dropped => cases free

/-- The child has been counted as completed; it may still have to warn. -/
def completes : ChildPc → Bool
  | .measure _ | .ask _ | .loadStarted _ | .loadDropped _ _
  | .loadInFlight _ _ _ | .marked true => true
  | _ => false

theorem counts_of_completes {pc : ChildPc} (completes : pc.completes = true)
    (tally : Tally) : pc.counts tally = (marked true).counts tally := by
  cases pc with
  | marked completed =>
      cases completed with
      | true => rfl
      | false => cases completes
  | _ => cases tally <;> first | rfl | cases completes

theorem isMarked_of_completes {pc : ChildPc}
    (completes : pc.completes = true) : pc.isMarked = true := by
  cases pc <;> first | rfl | cases completes

theorem afterCount_completes (cfg : DiagnosticsConfig) (completed : UInt64) :
    (afterCount cfg completed).completes = true := by
  unfold afterCount
  split_ifs <;> rfl

end ChildPc

/-- The flag says whether the child has passed the swap. -/
def Child.Flagged (child : Child) : Prop :=
  child.finished = child.pc.isMarked

section Counters

variable {cfg : DiagnosticsConfig}

/-- A child that moves is counted elsewhere, and its counters say so. -/
structure Recounted (state : State) (index : Nat) (old new : Child)
    (next : State) : Prop where
  children : next.children = state.children.set index new
  flagged : new.Flagged
  started : next.started = state.started
  counters : ∀ tally,
    next.counter tally + UInt64.ofNat (old.pc.counts tally) =
      state.counter tally + UInt64.ofNat (new.pc.counts tally)

theorem Recounted.report {state next : State} {index : Nat} {old : Child}
    {pc : ChildPc} (flagged : old.Flagged)
    (before : old.pc.completes = true) (after : pc.completes = true)
    (moved : next.children = (state.goto index old pc).children)
    (started : next.started = state.started)
    (counters : ∀ tally, next.counter tally = state.counter tally) :
    Recounted state index old { old with pc := pc } next where
  children := moved
  flagged := by
    rw [Child.Flagged, flagged, ChildPc.isMarked_of_completes before,
      ChildPc.isMarked_of_completes after]
  started := started
  counters := by
    intro tally
    rw [counters, ChildPc.counts_of_completes before,
      ChildPc.counts_of_completes after]

theorem Move.recounts {state next : State} {index : Nat} {child : Child}
    (current : state.children[index]? = some child)
    (flagged : child.Flagged) (move : Move cfg state index child next) :
    ∃ new, Recounted state index child new next := by
  cases move with
  | enter place =>
      refine ⟨_, rfl, ?_, rfl, ?_⟩
      · simpa [Child.Flagged, place, ChildPc.isMarked] using flagged
      · intro tally
        cases tally <;>
          simp [State.counter, State.goto, place, ChildPc.counts]
  | again done =>
      refine ⟨child, ?_, flagged, rfl, fun _ => rfl⟩
      obtain ⟨bound, rfl⟩ := List.getElem?_eq_some_iff.mp current
      exact (List.set_getElem_self bound).symm
  | mark completed free fresh =>
      have place := ChildPc.eq_running free (flagged.symm.trans fresh)
      refine ⟨_, rfl, rfl, rfl, ?_⟩
      intro tally
      cases tally <;>
        simp [State.counter, State.goto, place, ChildPc.counts]
  | @leave completed place =>
      refine ⟨_, rfl, flagged.trans (by rw [place]; rfl), rfl, ?_⟩
      intro tally
      cases tally <;> cases completed <;>
        simp [State.counter, State.goto, place, ChildPc.counts]
  | complete place =>
      have completes :=
        ChildPc.afterCount_completes cfg (state.completed + 1)
      refine ⟨_, rfl, ?_, rfl, ?_⟩
      · exact flagged.trans (by
          rw [place, ChildPc.isMarked_of_completes completes]
          rfl)
      · intro tally
        rw [ChildPc.counts_of_completes completes]
        cases tally <;>
          simp [State.counter, State.goto, place, ChildPc.counts]
  | drop place =>
      refine ⟨_, rfl, flagged.trans (by rw [place]; rfl), rfl, ?_⟩
      intro tally
      cases tally <;>
        simp [State.counter, State.goto, place, ChildPc.counts]
  | measure place called =>
      have before : child.pc.completes = true := by rw [place]; rfl
      exact ⟨_, .report flagged before rfl rfl rfl fun tally => by
        cases tally <;> rfl⟩
  | granted place asked answered =>
      have before : child.pc.completes = true := by rw [place]; rfl
      exact ⟨_, .report flagged before rfl rfl rfl fun _ => rfl⟩
  | refused place =>
      have before : child.pc.completes = true := by rw [place]; rfl
      exact ⟨_, .report flagged before rfl rfl rfl fun _ => rfl⟩
  | loadStarted place =>
      have before : child.pc.completes = true := by rw [place]; rfl
      exact ⟨_, .report flagged before rfl rfl rfl fun _ => rfl⟩
  | loadDropped place =>
      have before : child.pc.completes = true := by rw [place]; rfl
      exact ⟨_, .report flagged before rfl rfl rfl fun _ => rfl⟩
  | log place =>
      have before : child.pc.completes = true := by rw [place]; rfl
      exact ⟨_, .report flagged before rfl rfl rfl fun tally => by
        cases tally <;> rfl⟩

/-- How many children stand at the places that a counter counts. -/
def State.count (state : State) (tally : Tally) : Nat :=
  total (fun child => child.pc.counts tally) state.children

structure Counted (state : State) : Prop where
  started : state.started = UInt64.ofNat state.children.length
  counted : ∀ tally, state.counter tally = UInt64.ofNat (state.count tally)
  flagged : ∀ child ∈ state.children, child.Flagged

theorem counted_initial : Counted initial where
  started := rfl
  counted := by
    intro tally
    cases tally <;> rfl
  flagged := by
    intro child member
    cases member

theorem Counted.move {state next : State} (counted : Counted state)
    {index : Nat} {old new : Child}
    (current : state.children[index]? = some old)
    (recounted : Recounted state index old new next) : Counted next where
  started := by
    rw [recounted.started, recounted.children, List.length_set]
    exact counted.started
  counted := by
    intro tally
    have balance := recounted.counters tally
    have moved := total_set (fun child => child.pc.counts tally) new current
    rw [counted.counted tally, ← UInt64.ofNat_add] at balance
    rw [State.count, recounted.children]
    rw [State.count, ← moved, UInt64.ofNat_add] at balance
    exact (UInt64.add_left_inj _).mp balance
  flagged := by
    rw [recounted.children]
    exact forall_set counted.flagged recounted.flagged

theorem Counted.step {state next : State} (counted : Counted state)
    (step : Step cfg state next) : Counted next := by
  cases step with
  | wrap =>
      refine ⟨?_, ?_, forall_concat counted.flagged rfl⟩
      · simp [counted.started]
      · intro tally
        have before := counted.counted tally
        have nowhere : ChildPc.counts tally .enter = 0 := by
          cases tally <;> rfl
        simp only [State.count, total_append, total_cons, total_nil, nowhere,
          Nat.add_zero]
        cases tally <;> exact before
  | move current move =>
      have flagged := counted.flagged _ (List.mem_of_getElem? current)
      obtain ⟨new, recounted⟩ := move.recounts current flagged
      exact counted.move current recounted
  | warn moved => exact ⟨counted.started, counted.counted, counted.flagged⟩

theorem counted_of_run {labels : List Label} {final : State}
    (ended : run (State.step cfg) labels initial = some final) :
    Counted final :=
  run_invariant (fun _ _ _ taken counted =>
    counted.step (step_of_step? taken)) ended counted_initial

theorem ChildPc.counts_add_between (pc : ChildPc) :
    pc.counts .completed + pc.counts .dropped + pc.counts .inFlight +
      pc.between = 1 := by
  cases pc with
  | marked completed => cases completed <;> rfl
  | _ => rfl

theorem count_add_between (state : State) :
    state.count .completed + state.count .dropped + state.count .inFlight +
        total (fun child => child.pc.between) state.children =
      state.children.length := by
  unfold State.count
  induction state.children with
  | nil => rfl
  | cons child rest induction =>
      have one := child.pc.counts_add_between
      simp only [total_cons, List.length_cons]
      omega

/-- Less than 2^64 children are counted exactly, so that `in_flight` does not
fall below zero. -/
theorem Counted.exact {state : State} (counted : Counted state)
    (few : state.children.length < UInt64.size) (tally : Tally) :
    (state.counter tally).toNat = state.count tally := by
  have sum := count_add_between state
  have bound : state.count tally < UInt64.size := by
    cases tally <;> omega
  rw [counted.counted tally]
  exact UInt64.toNat_ofNat_of_lt' bound

/-- What has started is in flight, completed, dropped, or between two
counters. -/
theorem started_eq {labels : List Label} {final : State}
    (ended : run (State.step cfg) labels initial = some final) :
    final.started = final.completed + final.dropped + final.inFlight +
      UInt64.ofNat (total (fun child => child.pc.between) final.children) := by
  have counted := counted_of_run ended
  have completed := counted.counted .completed
  have dropped := counted.counted .dropped
  have inFlight := counted.counted .inFlight
  simp only [State.counter] at completed dropped inFlight
  rw [counted.started, completed, dropped, inFlight, ← UInt64.ofNat_add,
    ← UInt64.ofNat_add, ← UInt64.ofNat_add, count_add_between]

/-- Once every future is gone, none is in flight, and each has been counted as
completed or as dropped. -/
theorem settled {labels : List Label} {final : State}
    (ended : run (State.step cfg) labels initial = some final)
    (gone : ∀ child ∈ final.children, ∃ completed,
      child.pc = .marked completed) :
    final.inFlight = 0 ∧ final.started = final.completed + final.dropped := by
  have idle : total (fun child => child.pc.between) final.children = 0 :=
    total_eq_zero fun child member => by
      obtain ⟨completed, place⟩ := gone child member
      rw [place]
      rfl
  have landed : final.count .inFlight = 0 :=
    total_eq_zero fun child member => by
      obtain ⟨completed, place⟩ := gone child member
      cases completed <;> rw [place] <;> rfl
  have inFlight := (counted_of_run ended).counted .inFlight
  rw [landed] at inFlight
  have started := started_eq ended
  have none : final.inFlight = 0 := inFlight
  rw [idle, none] at started
  exact ⟨none, by simpa using started⟩

/-- In every order of the steps each future is counted once: as started, and at
the place where it is.  Less than 2^64 futures are counted exactly, so that
`in_flight` does not fall below zero; and once all of them are gone, each has
been counted as completed or as dropped. -/
theorem futures_counted_once (cfg : DiagnosticsConfig) (labels : List Label)
    (final : State)
    (ended : run (State.step cfg) labels initial = some final) :
    final.started = UInt64.ofNat final.children.length ∧
    (final.children.length < UInt64.size →
      ∀ tally, (final.counter tally).toNat = final.count tally) ∧
    ((∀ child ∈ final.children, ∃ completed, child.pc = .marked completed) →
      final.inFlight = 0 ∧ final.started = final.completed + final.dropped) :=
  ⟨(counted_of_run ended).started, (counted_of_run ended).exact,
    settled ended⟩

/-- One future is dropped while another one is polled to its end. -/
def oneDropped : List Label :=
  [.wrap, .wrap, .advance 0, .advance 1, .mark 0 false, .mark 1 true,
    .advance 1, .advance 0, .advance 1, .advance 0]

/-- Warnings after a hundred futures, every second. -/
def patient : DiagnosticsConfig where
  enabled := true
  warnAfter := 100
  warnEvery := .ofSecs 1
  warnAfter_pos := by decide
  warnEvery_pos := by decide

theorem futures_counted_once_dropped :
    ∃ final, run (State.step patient) oneDropped initial = some final ∧
      final.completed = 1 ∧ final.inFlight = 0 ∧
      final.started = final.completed + final.dropped := by
  have passed : (run (State.step patient) oneDropped initial).any
      (fun final => final.completed == 1 &&
        final.children.all fun child =>
          child.pc == .marked true || child.pc == .marked false) = true := by
    decide +kernel
  obtain ⟨final, ended, facts⟩ := exists_run _ passed
  simp only [Bool.and_eq_true, beq_iff_eq, List.all_eq_true,
    Bool.or_eq_true] at facts
  have gone : ∀ child ∈ final.children, ∃ completed,
      child.pc = .marked completed := by
    intro child member
    rcases facts.2 child member with completed | dropped
    · exact ⟨true, completed⟩
    · exact ⟨false, dropped⟩
  exact ⟨final, ended, facts.1,
    (futures_counted_once patient oneDropped final ended).2.2 gone⟩

end Counters

end HoprUtilities.Runtime.ConcurrentDiagnostics
