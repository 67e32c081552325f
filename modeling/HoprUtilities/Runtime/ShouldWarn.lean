import HoprUtilities.Lib.RetryLoop
import HoprUtilities.Lib.Spacing

/-!
# The rate limit of the poll diagnostics

All that share the state of a diagnosed future call `should_warn` with its
`AtomicU64`.  A call loads the elapsed time of the last warning and refuses if
too little time has passed since; else it tries to exchange the loaded time for
its own one, and starts again if another call came first.  The accesses are
relaxed, so that a load may see an older time.

The elapsed times of the calls reach the counter in any order.  Its values rise
by `warn_every` or more at a time nevertheless.
-/

namespace HoprUtilities.Runtime

open HoprUtilities.Lib HoprUtilities.Lib.RetryLoop

structure Duration where
  secs : UInt64
  nanos : UInt32
  nanos_lt : nanos < 1_000_000_000
  deriving DecidableEq

namespace Duration

def ofSecs (secs : UInt64) : Duration := ⟨secs, 0, by decide⟩

def zero : Duration := ofSecs 0

/-- A `u128`, which is large enough. -/
def asNanos (duration : Duration) : Nat :=
  duration.secs.toNat * 1_000_000_000 + duration.nanos.toNat

/-- `as_nanos().min(u64::MAX as u128) as u64`. -/
def clampNanos (duration : Duration) : UInt64 :=
  UInt64.ofNat (min duration.asNanos (UInt64.size - 1))

theorem toNat_clampNanos (duration : Duration) :
    duration.clampNanos.toNat = min duration.asNanos (UInt64.size - 1) := by
  have small : min duration.asNanos (UInt64.size - 1) < UInt64.size :=
    Nat.lt_of_le_of_lt (Nat.min_le_right _ _) (by decide)
  exact UInt64.toNat_ofNat_of_lt' small

theorem clampNanos_pos {duration : Duration}
    (positive : 0 < duration.asNanos) : 0 < duration.clampNanos.toNat := by
  rw [toNat_clampNanos]
  exact Nat.lt_min.mpr ⟨positive, by decide⟩

end Duration

def saturatingSub (left right : UInt64) : UInt64 :=
  if right ≤ left then left - right else 0

theorem toNat_saturatingSub (left right : UInt64) :
    (saturatingSub left right).toNat = left.toNat - right.toNat := by
  unfold saturatingSub
  split_ifs with ordered
  · exact UInt64.toNat_sub_of_le left right ordered
  · have less : left.toNat < right.toNat := UInt64.not_le.mp ordered
    rw [Nat.sub_eq_zero_of_le (Nat.le_of_lt less)]
    rfl

/-- The body of the loop of `should_warn`, after the load of `last`. -/
def shouldWarn (warnEvery elapsed : Duration) (last : UInt64) :
    Round UInt64 Bool :=
  let elapsedNanos := elapsed.clampNanos
  let warnEveryNanos := warnEvery.clampNanos
  if saturatingSub elapsedNanos last < warnEveryNanos then .leave false
  else .exchange elapsedNanos true

section Decision

variable {warnEvery elapsed : Duration} {last new : UInt64} {answer : Bool}

theorem shouldWarn_leave
    (decided : shouldWarn warnEvery elapsed last = .leave answer) :
    answer = false ∧
      elapsed.clampNanos.toNat < last.toNat + warnEvery.clampNanos.toNat := by
  simp only [shouldWarn] at decided
  split_ifs at decided with early
  have less := UInt64.lt_iff_toNat_lt.mp early
  rw [toNat_saturatingSub] at less
  cases decided
  exact ⟨rfl, by omega⟩

theorem shouldWarn_exchange (positive : 0 < warnEvery.asNanos)
    (decided : shouldWarn warnEvery elapsed last = .exchange new answer) :
    answer = true ∧ new = elapsed.clampNanos ∧
      last.toNat + warnEvery.clampNanos.toNat ≤ new.toNat := by
  have pause := Duration.clampNanos_pos positive
  simp only [shouldWarn] at decided
  split_ifs at decided with early
  have late := mt UInt64.lt_iff_toNat_lt.mpr early
  rw [toNat_saturatingSub] at late
  cases decided
  exact ⟨rfl, rfl, by omega⟩

theorem shouldWarn_of_advances (positive : 0 < warnEvery.asNanos)
    (advances : Advances (shouldWarn warnEvery) last new) :
    last < new ∧
      last.toNat + warnEvery.clampNanos.toNat ≤ new.toNat := by
  obtain ⟨elapsed, answer, decided⟩ := advances
  have pause := Duration.clampNanos_pos positive
  obtain ⟨_, _, apart⟩ := shouldWarn_exchange positive decided
  exact ⟨UInt64.lt_iff_toNat_lt.mpr (by omega), apart⟩

theorem le_of_advances (positive : 0 < warnEvery.asNanos)
    (earlier later : UInt64)
    (advances : Advances (shouldWarn warnEvery) earlier later) :
    earlier ≤ later :=
  UInt64.le_of_lt (shouldWarn_of_advances positive advances).1

end Decision

abbrev warnStep (warnEvery : Duration) :
    State Duration UInt64 Bool → Label Duration UInt64 →
      Option (State Duration UInt64 Bool) :=
  State.step (shouldWarn warnEvery)

/-- `AtomicU64::new(0)` before the first call. -/
def warnStart : State Duration UInt64 Bool := State.start 0

/-- What a run of the callers has to look like.  The exchanges are those of
the calls that return `true`, in the order in which they succeed. -/
structure RateLimited (warnEvery : Duration)
    (labels : List (Label Duration UInt64))
    (final : State Duration UInt64 Bool) : Prop where
  spaced : (0 :: final.exchanges.map Prod.snd).IsChain
    fun earlier later => earlier < later ∧
      earlier.toNat + warnEvery.clampNanos.toNat ≤ later.toNat
  once : (final.exchanges.map Prod.fst).Nodup
  own : ∀ index nanos, (index, nanos) ∈ final.exchanges ↔
    ∃ elapsed, final.calls[index]? = some ⟨elapsed, .returned true⟩ ∧
      nanos = elapsed.clampNanos
  rising : (moments (warnStep warnEvery) labels warnStart).Pairwise
    fun earlier later => earlier.value ≤ later.value
  silent : ∀ index elapsed,
    final.calls[index]? = some ⟨elapsed, .returned false⟩ →
    ∀ before label after state next, labels = before ++ label :: after →
      label.caller? = some index →
      run (warnStep warnEvery) before warnStart = some state →
      warnStep warnEvery state label = some next →
      next.value = state.value

section Calls

variable {warnEvery : Duration} {labels : List (Label Duration UInt64)}
  {state : State Duration UInt64 Bool}

/-- A call returns `true` if and only if it has exchanged its elapsed time. -/
theorem mem_exchanges_iff (positive : 0 < warnEvery.asNanos)
    (sound : Sound (shouldWarn warnEvery) state) (index : Nat)
    (nanos : UInt64) :
    (index, nanos) ∈ state.exchanges ↔
      ∃ elapsed, state.calls[index]? = some ⟨elapsed, .returned true⟩ ∧
        nanos = elapsed.clampNanos := by
  constructor
  · intro member
    obtain ⟨⟨elapsed, pc⟩, current⟩ :=
      sound.exists_call (List.mem_map_of_mem member)
    obtain ⟨earlier, _, answer, decided, place⟩ :=
      sound.exchanged current member
    obtain ⟨rfl, same, _⟩ := shouldWarn_exchange positive decided
    cases place
    exact ⟨elapsed, current, same⟩
  · rintro ⟨elapsed, current, rfl⟩
    rcases sound.returned current rfl with
      ⟨seen, _, left⟩ | ⟨new, member, earlier, _, decided⟩
    · cases (shouldWarn_leave left).1
    · obtain ⟨_, same, _⟩ := shouldWarn_exchange positive decided
      rw [← same]
      exact member

theorem not_mem_winners_of_false (positive : 0 < warnEvery.asNanos)
    (sound : Sound (shouldWarn warnEvery) state) {index : Nat}
    {elapsed : Duration}
    (current : state.calls[index]? = some ⟨elapsed, .returned false⟩) :
    index ∉ state.winners := by
  intro winner
  obtain ⟨⟨_, nanos⟩, member, rfl⟩ := List.mem_map.mp winner
  obtain ⟨other, warned, _⟩ :=
    (mem_exchanges_iff positive sound _ nanos).mp member
  rw [current] at warned
  cases warned

/-- The elapsed times of the warnings, as numbers. -/
def warnedAt (state : State Duration UInt64 Bool) : List Nat :=
  state.exchanges.map fun exchange => exchange.2.toNat

theorem spaced_of_sound (positive : 0 < warnEvery.asNanos)
    (sound : Sound (shouldWarn warnEvery) state) (zero : state.initial = 0) :
    Spaced warnEvery.clampNanos.toNat (0 :: warnedAt state) := by
  have apart : ∀ earlier later, Advances (shouldWarn warnEvery) earlier later →
      earlier.toNat + warnEvery.clampNanos.toNat ≤ later.toNat :=
    fun earlier later advances =>
      (shouldWarn_of_advances positive advances).2
  have chain : Spaced warnEvery.clampNanos.toNat
      (state.held.map UInt64.toNat) :=
    List.isChain_map_of_isChain UInt64.toNat apart sound.advances
  rw [State.held, zero, List.map_cons, List.map_map] at chain
  exact chain

theorem getLast?_warnedAt (sound : Sound (shouldWarn warnEvery) state)
    (zero : state.initial = 0) :
    (0 :: warnedAt state).getLast? = some state.value.toNat := by
  have last : (state.held.map UInt64.toNat).getLast? =
      some state.value.toNat := by
    rw [List.getLast?_map, sound.present]
    rfl
  rw [State.held, zero, List.map_cons, List.map_map] at last
  exact last

end Calls

/-- In every order of the steps the warnings are `warn_every` apart. -/
theorem rate_limited (warnEvery : Duration) (positive : 0 < warnEvery.asNanos)
    (labels : List (Label Duration UInt64))
    (final : State Duration UInt64 Bool)
    (ended : run (warnStep warnEvery) labels warnStart = some final) :
    RateLimited warnEvery labels final := by
  have sound := sound_of_run ended
  refine ⟨?_, sound.single, mem_exchanges_iff positive sound, ?_, ?_⟩
  · have chain := sound.advances.imp fun earlier later advances =>
      shouldWarn_of_advances positive advances
    rw [State.held, initial_of_run ended] at chain
    exact chain
  · exact pairwise_value (le_of_advances positive) UInt64.le_refl
      UInt64.le_trans ended
  · intro index elapsed refused before label after state next split caller
      reached taken
    subst split
    rcases value_cases_of_run ended reached taken with
      same | ⟨winner, mover, wins⟩
    · exact same
    · cases caller.symm.trans mover
      exact absurd wins (not_mem_winners_of_false positive sound refused)

/-- Callers with 7, 13, 6 and 20 elapsed nanoseconds.  The first and the third
fail their exchange after the second one; the third loads an old value once
more, fails again, and is refused in the end, as is the first. -/
def warnRace : List (Label Duration UInt64) :=
  [.call ⟨0, 7, by decide⟩, .call ⟨0, 13, by decide⟩, .call ⟨0, 6, by decide⟩,
    .load 0 0, .load 1 0, .load 2 0, .exchange 1, .exchange 0, .load 0 13,
    .exchange 2, .load 2 0, .call ⟨0, 20, by decide⟩, .load 3 13, .exchange 3,
    .exchange 2, .load 2 20]

theorem rate_limited_race :
    ∃ final, run (warnStep ⟨0, 5, by decide⟩) warnRace warnStart =
        some final ∧
      final.exchanges = [(1, 13), (3, 20)] ∧
      RateLimited ⟨0, 5, by decide⟩ warnRace final := by
  have passed :
      (run (warnStep ⟨0, 5, by decide⟩) warnRace warnStart).any
        (fun final => final.exchanges == [(1, 13), (3, 20)]) = true := by
    decide +kernel
  obtain ⟨final, ended, warned⟩ := exists_run _ passed
  exact ⟨final, ended, eq_of_beq warned,
    rate_limited ⟨0, 5, by decide⟩ (by decide) warnRace final ended⟩

section Runs

variable {warnEvery : Duration} {labels : List (Label Duration UInt64)}
  {final : State Duration UInt64 Bool}

/-- No window of elapsed times as long as `warn_every` sees two warnings. -/
theorem window_le_one (positive : 0 < warnEvery.asNanos)
    (ended : run (warnStep warnEvery) labels warnStart = some final)
    (opening : Nat) :
    (warnedAt final).countP (fun time => opening ≤ time ∧
      time < opening + warnEvery.clampNanos.toNat) ≤ 1 := by
  have spaced := spaced_of_sound positive (sound_of_run ended)
    (initial_of_run ended)
  exact Spaced.window_le_one spaced.tail (Nat.zero_le _) opening

theorem warnings_mul_le (positive : 0 < warnEvery.asNanos)
    (ended : run (warnStep warnEvery) labels warnStart = some final) :
    final.exchanges.length * warnEvery.clampNanos.toNat ≤
      final.value.toNat := by
  have sound := sound_of_run ended
  have zero := initial_of_run ended
  have paid := (spaced_of_sound positive sound zero).nsmul_le
    (getLast?_warnedAt sound zero)
  simpa [warnedAt] using paid

/-! If every load sees the present value, every call ends, however the callers
are scheduled: it can take a step until it returns, and its loop goes round at
most once more for each warning. -/

theorem steps_le (positive : 0 < warnEvery.asNanos)
    (ended : run (restrict present (warnStep warnEvery)) labels warnStart =
      some final) (index : Nat) :
    taken index labels ≤
      2 * (final.value.toNat / warnEvery.clampNanos.toNat) + 1 := by
  have paid := warnings_mul_le positive (run_of_restrict ended)
  have pause := Duration.clampNanos_pos positive
  have few := (Nat.le_div_iff_mul_le pause).mpr paid
  have steps := taken_le_of_run ended index
  omega

theorem returned_or_moves
    (ended : run (restrict present (warnStep warnEvery)) labels warnStart =
      some final) {index : Nat} {call : Call Duration UInt64 Bool}
    (current : final.calls[index]? = some call) :
    (∃ answer, call.pc = .returned answer) ∨
      ∃ label next, label.caller? = some index ∧
        restrict present (warnStep warnEvery) final label = some next := by
  by_cases returned : ∃ answer, call.pc = .returned answer
  · exact .inl returned
  · have sound := sound_of_run (run_of_restrict ended)
    exact .inr (exists_step sound current (not_exists.mp returned))

/-- A call has returned or can move on, and it moves at most twice for every
`warn_every` in the counter, and once more. -/
theorem should_warn_returns (positive : 0 < warnEvery.asNanos)
    (ended : run (restrict present (warnStep warnEvery)) labels warnStart =
      some final) :
    (∀ index, taken index labels ≤
      2 * (final.value.toNat / warnEvery.clampNanos.toNat) + 1) ∧
    ∀ (index : Nat) (call : Call Duration UInt64 Bool),
      final.calls[index]? = some call →
      (∃ answer, call.pc = .returned answer) ∨
        ∃ label next, label.caller? = some index ∧
          restrict present (warnStep warnEvery) final label = some next :=
  ⟨steps_le positive ended, fun _ _ current => returned_or_moves ended current⟩

/-- A caller with 7 elapsed nanoseconds fails its exchange after the one with
13, and is refused. -/
def lateCaller : List (Label Duration UInt64) :=
  [.call ⟨0, 7, by decide⟩, .call ⟨0, 13, by decide⟩, .load 0 0, .load 1 0,
    .exchange 1, .exchange 0, .load 0 13]

theorem late_caller_returns :
    ∃ final, run (restrict present (warnStep ⟨0, 5, by decide⟩)) lateCaller
        warnStart = some final ∧
      final.exchanges = [(1, 13)] ∧
      ∀ index, taken index lateCaller ≤
        2 * (final.value.toNat /
          (Duration.clampNanos ⟨0, 5, by decide⟩).toNat) + 1 := by
  have passed :
      (run (restrict present (warnStep ⟨0, 5, by decide⟩)) lateCaller
        warnStart).any (fun final => final.exchanges == [(1, 13)]) = true := by
    decide +kernel
  obtain ⟨final, ended, warned⟩ := exists_run _ passed
  exact ⟨final, ended, eq_of_beq warned,
    (should_warn_returns (by decide) ended).1⟩

end Runs

end HoprUtilities.Runtime
