import HoprUtilities.Lib.Mixture
import Mathlib.Algebra.Order.Ring.Rat
import Mathlib.Data.List.Induction
import Mathlib.Tactic.FieldSimp

/-!
# The exponential moving average

The embedding of `src/statistics/moving/exponential.rs` over any ordered field
in the place of `f64`.  Arithmetic is exact, also that of the counter.
-/

namespace HoprUtilities.Statistics

open HoprUtilities.Lib

structure ExponentialMovingAverage (FACTOR : Nat) (F : Type) where
  count : Nat
  average : F
  deriving Repr

namespace ExponentialMovingAverage

variable {FACTOR : Nat} {F : Type} [Field F]

def default : ExponentialMovingAverage FACTOR F where
  count := 0
  average := 0

def update (self : ExponentialMovingAverage FACTOR F) (value : F) :
    ExponentialMovingAverage FACTOR F :=
  let count := self.count + 1
  { count := count
    average := self.average +
      (value - self.average) / (min count FACTOR : Nat) }

def get (self : ExponentialMovingAverage FACTOR F) : F := self.average

/-- `update` with one value after the other. -/
def updates (self : ExponentialMovingAverage FACTOR F) (values : List F) :
    ExponentialMovingAverage FACTOR F :=
  values.foldl update self

theorem updates_append_singleton
    (self : ExponentialMovingAverage FACTOR F) (values : List F) (value : F) :
    self.updates (values ++ [value]) = (self.updates values).update value := by
  simp [updates]

theorem count_updates (self : ExponentialMovingAverage FACTOR F)
    (values : List F) :
    (self.updates values).count = self.count + values.length := by
  induction values using List.reverseRecOn with
  | nil => rfl
  | append_singleton values value induction =>
      rw [updates_append_singleton, List.length_append, List.length_singleton,
        ← Nat.add_assoc, ← induction]
      rfl

/-- The sum follows the samples as long as the divisor follows the counter. -/
theorem count_mul_average [CharZero F] (start : F) {values : List F}
    (few : values.length ≤ FACTOR) :
    (values.length : F) *
        (({ count := 0, average := start } :
          ExponentialMovingAverage FACTOR F).updates values).average =
      values.sum := by
  induction values using List.reverseRecOn with
  | nil => simp
  | append_singleton values value induction =>
      rw [List.length_append, List.length_singleton] at few
      have before := induction (Nat.le_of_succ_le few)
      have counted := count_updates
        ({ count := 0, average := start } :
          ExponentialMovingAverage FACTOR F) values
      rw [Nat.zero_add] at counted
      have divisor : min (values.length + 1) FACTOR = values.length + 1 :=
        Nat.min_eq_left few
      have nonzero : (values.length : F) + 1 ≠ 0 := Nat.cast_add_one_ne_zero _
      rw [updates_append_singleton, List.sum_append, List.sum_singleton,
        ← before, List.length_append, List.length_singleton]
      simp only [update, counted, divisor, Nat.cast_add, Nat.cast_one]
      field_simp
      ring

section Order

variable [LinearOrder F] [IsStrictOrderedRing F]

/-- What the newest of so many samples counts. -/
def newestShare (FACTOR count : Nat) : F := 1 / (min count FACTOR : Nat)

theorem newestShare_nonneg (count : Nat) :
    0 ≤ (newestShare FACTOR count : F) :=
  one_div_nonneg.mpr (Nat.cast_nonneg _)

theorem newestShare_le_one (count : Nat) :
    (newestShare FACTOR count : F) ≤ 1 := by
  rcases Nat.eq_zero_or_pos (min count FACTOR) with none | some
  · simp [newestShare, none]
  · exact (div_le_one (Nat.cast_pos.mpr some)).mpr (Nat.one_le_cast.mpr some)

/-- The weights of a first sample and so many further ones. -/
def mixture (FACTOR : Nat) : Nat → Mixture F
  | 0 => Mixture.sole
  | further + 1 =>
      (mixture FACTOR further).share (newestShare FACTOR (further + 2))
        (newestShare_nonneg _) (newestShare_le_one _)

theorem length_mixture (further : Nat) :
    (mixture FACTOR further : Mixture F).weights.length = further + 1 := by
  induction further with
  | zero => rfl
  | succ further induction =>
      rw [mixture, Mixture.length_share, induction]

/-- The first sample replaces the initial average, and every further one takes
its share. -/
theorem average_updates (positive : 1 ≤ FACTOR) (start first : F)
    (rest : List F) :
    (({ count := 0, average := start } :
        ExponentialMovingAverage FACTOR F).updates (first :: rest)).average =
      combine (mixture FACTOR rest.length).weights (first :: rest) := by
  induction rest using List.reverseRecOn with
  | nil =>
      simp [updates, update, mixture, Mixture.sole, combine,
        Nat.min_eq_left positive]
  | append_singleton rest value induction =>
      have counted := count_updates
        ({ count := 0, average := start } :
          ExponentialMovingAverage FACTOR F) (first :: rest)
      have count : 0 + (first :: rest).length + 1 = rest.length + 2 := by
        simp
      have lengths : (mixture FACTOR rest.length : Mixture F).weights.length =
          (first :: rest).length := length_mixture rest.length
      rw [← List.cons_append, updates_append_singleton,
        List.length_append, List.length_singleton, mixture,
        Mixture.combine_share lengths, ← induction]
      simp only [update, counted, count, newestShare]
      ring

/-- The average is the mean of the samples until there are more than the
factor, and always a mixture of them that owes nothing to the initial value. -/
theorem updates_mix (positive : 1 ≤ FACTOR) {samples : List F}
    (nonempty : samples ≠ []) :
    let value :=
      ((default : ExponentialMovingAverage FACTOR F).updates samples).get
    (samples.length ≤ FACTOR → value = samples.sum / samples.length) ∧
    (∃ mixture : Mixture F,
      mixture.weights.length = samples.length ∧
      ∀ start : F,
        (({ count := 0, average := start } :
          ExponentialMovingAverage FACTOR F).updates samples).get =
          combine mixture.weights samples) ∧
    (∀ low, (∀ sample ∈ samples, low ≤ sample) → low ≤ value) ∧
    (∀ high, (∀ sample ∈ samples, sample ≤ high) → value ≤ high) ∧
    (∀ start : F,
      (({ count := 0, average := start } :
        ExponentialMovingAverage FACTOR F).updates samples).get = value) ∧
    ∀ constant, (∀ sample ∈ samples, sample = constant) →
      value = constant := by
  obtain ⟨first, rest, rfl⟩ := List.exists_cons_of_ne_nil nonempty
  have lengths : (mixture FACTOR rest.length : Mixture F).weights.length =
      (first :: rest).length := length_mixture rest.length
  have mixed := average_updates (F := F) positive
  have lower : ∀ low, (∀ sample ∈ first :: rest, low ≤ sample) →
      low ≤ ((default : ExponentialMovingAverage FACTOR F).updates
        (first :: rest)).average := by
    intro low bound
    rw [default, mixed]
    exact Mixture.le_value _ lengths bound
  have upper : ∀ high, (∀ sample ∈ first :: rest, sample ≤ high) →
      ((default : ExponentialMovingAverage FACTOR F).updates
        (first :: rest)).average ≤ high := by
    intro high bound
    rw [default, mixed]
    exact Mixture.value_le _ lengths bound
  refine ⟨?_, ⟨mixture FACTOR rest.length, lengths, fun start => ?_⟩,
    lower, upper, fun start => ?_, ?_⟩
  · intro few
    have occupied : ((first :: rest).length : F) ≠ 0 :=
      Nat.cast_ne_zero.mpr (Nat.succ_ne_zero _)
    exact (eq_div_iff occupied).mpr
      ((mul_comm _ _).trans (count_mul_average 0 few))
  · exact mixed start first rest
  · exact (mixed start first rest).trans (mixed 0 first rest).symm
  · intro constant all
    exact le_antisymm
      (upper constant fun sample member => (all sample member).le)
      (lower constant fun sample member => (all sample member).ge)

/-- Four samples and a factor of three. -/
theorem updates_mix_four :
    let value := ((default : ExponentialMovingAverage 3 ℚ).updates
      [1, 2, 3, 8]).get
    value = 4 ∧ 1 ≤ value ∧ value ≤ 8 := by
  have factor : 1 ≤ 3 := by decide
  have nonempty : ([1, 2, 3, 8] : List ℚ) ≠ [] := by simp
  obtain ⟨_, _, lower, upper, _, _⟩ := updates_mix factor nonempty
  refine ⟨?_, lower 1 (by norm_num), upper 8 (by norm_num)⟩
  simp [updates, update, get, default]
  norm_num

end Order

end ExponentialMovingAverage

end HoprUtilities.Statistics
