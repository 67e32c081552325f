import HoprUtilities.Statistics.MovingAverage
import Mathlib.Data.List.Induction
import Mathlib.Data.List.Infix

/-!
# Overflow in a carried sum

The averages of `MovingAverage` over the sample types whose arithmetic is
checked.  A push adds the new sample to the carried sum before it takes the
oldest one away, so for a moment the sum is one of a sample more than the window
holds.
-/

namespace HoprUtilities.Statistics

open HoprUtilities.Lib

/-- Samples that stand for the numbers up to a limit, and no others. -/
class FixedWidth (τ : Type) extends Sample τ where
  value : τ → Nat
  limit : Nat
  value_default : value default = 0
  add_fits : ∀ {left right}, value left + value right ≤ limit →
    ∃ sum, add left right = some sum ∧ value sum = value left + value right
  add_overflows : ∀ {left right}, limit < value left + value right →
    add left right = none
  sub_fits : ∀ {left right}, value right ≤ value left →
    ∃ rest, sub left right = some rest ∧ value rest = value left - value right
  sub_underflows : ∀ {left right}, value left < value right →
    sub left right = none

/-- Checked arithmetic on the numbers below a bound. -/
@[reducible]
def FixedWidth.below {τ : Type} (bound : Nat) (positive : 0 < bound)
    (value : τ → Nat) (ofNat : (number : Nat) → number < bound → τ)
    (value_ofNat : ∀ number small, value (ofNat number small) = number)
    (value_lt : ∀ sample, value sample < bound) : FixedWidth τ where
  default := ofNat 0 positive
  add left right :=
    if small : value left + value right < bound then
      some (ofNat (value left + value right) small)
    else none
  sub left right :=
    if value right ≤ value left then
      some (ofNat (value left - value right)
        ((Nat.sub_le _ _).trans_lt (value_lt left)))
    else none
  value := value
  limit := bound - 1
  value_default := value_ofNat _ _
  add_fits := by
    intro left right fits
    have small : value left + value right < bound := by omega
    exact ⟨_, dif_pos small, value_ofNat _ _⟩
  add_overflows := by
    intro left right overflows
    exact dif_neg (by omega)
  sub_fits := by
    intro left right fits
    exact ⟨_, if_pos fits, value_ofNat _ _⟩
  sub_underflows := by
    intro left right underflows
    exact if_neg (Nat.not_le.mpr underflows)

instance : FixedWidth UInt32 :=
  .below UInt32.size (by decide) UInt32.toNat UInt32.ofNatLT
    (fun _ _ => rfl) UInt32.toNat_lt_size

instance : FixedWidth UInt64 :=
  .below UInt64.size (by decide) UInt64.toNat UInt64.ofNatLT
    (fun _ _ => rfl) UInt64.toNat_lt_size

/-- `Duration`: nanoseconds, of which the whole seconds are a `u64`. -/
structure Duration where
  nanos : Nat
  bounded : nanos < UInt64.size * 1000000000
  deriving DecidableEq

instance : FixedWidth Duration :=
  .below (UInt64.size * 1000000000) (by decide) Duration.nanos Duration.mk
    (fun _ _ => rfl) Duration.bounded

namespace FixedWidth

variable {τ : Type} [FixedWidth τ]

/-- The sum of samples, as large as it may be. -/
def total (samples : List τ) : Nat := (samples.map value).sum

@[simp] theorem total_nil : total ([] : List τ) = 0 := rfl

@[simp] theorem total_cons (sample : τ) (rest : List τ) :
    total (sample :: rest) = value sample + total rest := by
  simp [total]

@[simp] theorem total_append (older newer : List τ) :
    total (older ++ newer) = total older + total newer := by
  simp [total]

end FixedWidth

namespace SingleSumSMA

variable {τ δ : Type} [FixedWidth τ]

/-- The average holds the last of the samples, and their sum. -/
structure Sums (sma : SingleSumSMA τ δ) (samples : List τ) : Prop where
  window : sma.window = samples.rtake sma.windowSize
  sum : FixedWidth.value sma.sum = FixedWidth.total sma.window

theorem sums_new (windowSize : Nat) :
    Sums
      ({ window := []
         windowSize := windowSize
         sum := Sample.default } : SingleSumSMA τ δ) [] :=
  { window := (List.rtake_nil windowSize).symm
    sum := FixedWidth.value_default }

theorem total_added {self : SingleSumSMA τ δ} {samples : List τ}
    (sums : self.Sums samples) (sample : τ) :
    FixedWidth.value self.sum + FixedWidth.value sample =
      FixedWidth.total
        ((samples ++ [sample]).rtake (self.windowSize + 1)) := by
  rw [List.rtake_concat_succ, FixedWidth.total_append, sums.sum, sums.window]
  simp

theorem push_overflows {self : SingleSumSMA τ δ} {sample : τ}
    (overflows : FixedWidth.limit τ <
      FixedWidth.value self.sum + FixedWidth.value sample) :
    self.push sample = none := by
  rw [push, FixedWidth.add_overflows overflows]
  rfl

/-- The oldest sample is part of the sum, so that it can be taken away. -/
theorem push_fits {self : SingleSumSMA τ δ} {samples : List τ} {sample : τ}
    (size : 0 < self.windowSize) (sums : self.Sums samples)
    (fits : FixedWidth.value self.sum + FixedWidth.value sample ≤
      FixedWidth.limit τ) :
    ∃ next, self.push sample = some next ∧
      next.windowSize = self.windowSize ∧
      next.Sums (samples ++ [sample]) := by
  obtain ⟨added_sum, added, added_value⟩ := FixedWidth.add_fits fits
  have slid : slide self.windowSize self.window sample =
      (samples ++ [sample]).rtake self.windowSize := by
    rw [sums.window, slide_rtake size]
  have carried := sums.sum
  by_cases full : self.window.length = self.windowSize
  · cases window : self.window with
    | nil =>
        rw [window] at full
        exact absurd full size.ne
    | cons oldest rest =>
        rw [window, FixedWidth.total_cons] at carried
        have oldest_counts :
            FixedWidth.value oldest ≤ FixedWidth.value added_sum := by
          omega
        obtain ⟨sum, removed, sum_value⟩ :=
          FixedWidth.sub_fits oldest_counts
        refine ⟨_, push_full window full added removed, rfl,
          { window := slid, sum := ?_ }⟩
        have slid_total : FixedWidth.total
            (slide self.windowSize self.window sample) =
              FixedWidth.total rest + FixedWidth.value sample := by
          rw [slide_full full, window]
          simp
        have same : FixedWidth.value sum =
            FixedWidth.total (slide self.windowSize self.window sample) := by
          omega
        exact same
  · refine ⟨_, push_free full added, rfl, { window := slid, sum := ?_ }⟩
    simp only [slide_free full, FixedWidth.total_append,
      FixedWidth.total_cons, FixedWidth.total_nil]
    omega

/-- The samples of one more than a window have a sum that can be represented,
wherever they end. -/
def WiderWindowsFit (windowSize : Nat) (samples : List τ) : Prop :=
  ∀ given, given <+: samples →
    FixedWidth.total (given.rtake (windowSize + 1)) ≤ FixedWidth.limit τ

/-- Either the sum of one sample more than a window fits and the pushes go on,
or a push has failed. -/
theorem pushes {self : SingleSumSMA τ δ} (size : 0 < self.windowSize)
    (sums : self.Sums []) (samples : List τ) :
    match Lib.run apply (samples.map .push) self with
    | some last =>
        last.windowSize = self.windowSize ∧ last.Sums samples ∧
          WiderWindowsFit self.windowSize samples
    | none => ¬WiderWindowsFit self.windowSize samples := by
  induction samples using List.reverseRecOn with
  | nil =>
      refine ⟨rfl, sums, fun given initial => ?_⟩
      rw [List.prefix_nil.mp initial, List.rtake_nil]
      exact Nat.zero_le _
  | append_singleton samples sample induction =>
      rw [List.map_append, Lib.run_append]
      cases ended : Lib.run apply (samples.map .push) self with
      | none =>
          rw [ended] at induction
          exact fun wider => induction fun given initial =>
            wider given (initial.trans (List.prefix_append _ _))
      | some last =>
          rw [ended] at induction
          obtain ⟨same_size, last_sums, wider⟩ := induction
          have added := total_added last_sums sample
          rw [same_size] at added
          by_cases fits : FixedWidth.value last.sum +
              FixedWidth.value sample ≤ FixedWidth.limit τ
          · obtain ⟨next, pushed, next_size, next_sums⟩ :=
              push_fits (same_size ▸ size) last_sums fits
            have taken : Lib.run apply ([sample].map .push) last =
                some next := by
              rw [List.map_singleton, Lib.run, apply, pushed]
              rfl
            rw [Option.bind_some, taken]
            refine ⟨next_size.trans same_size, next_sums, ?_⟩
            intro given initial
            rcases List.prefix_concat_iff.mp initial with whole | earlier
            · rw [whole, ← added]
              exact fits
            · exact wider given earlier
          · have refused : Lib.run apply ([sample].map .push) last =
                none := by
              rw [List.map_singleton, Lib.run, apply,
                push_overflows (Nat.lt_of_not_le fits)]
              rfl
            rw [Option.bind_some, refused]
            intro all
            have bound := all _ List.prefix_rfl
            rw [← added] at bound
            exact fits bound

/-- The arithmetic of all pushes succeeds if and only if one sample more than a
window always fits. -/
theorem pushes_fit_iff {windowSize : Nat} (size : 2 ≤ windowSize)
    (samples : List τ) :
    (∃ last : SingleSumSMA τ δ,
      run windowSize (samples.map .push) = some last) ↔
      WiderWindowsFit windowSize samples := by
  have pushed := pushes (δ := δ) (Nat.zero_lt_of_lt size)
    (sums_new windowSize) samples
  have created : run windowSize (samples.map .push) =
      Lib.run apply (samples.map .push)
        ({ window := []
           windowSize := windowSize
           sum := Sample.default } : SingleSumSMA τ δ) := by
    rw [run, new, if_pos (show windowSize > 1 from size)]
    rfl
  rw [created]
  cases ended : Lib.run apply (samples.map .push)
      ({ window := []
         windowSize := windowSize
         sum := Sample.default } : SingleSumSMA τ δ) with
  | none =>
      rw [ended] at pushed
      refine iff_of_false ?_ pushed
      rintro ⟨last, found⟩
      cases found
  | some last =>
      rw [ended] at pushed
      exact iff_of_true ⟨last, rfl⟩ pushed.2.2

/-- A window of two in which any three samples fit. -/
theorem pushes_fit_iff_small :
    (∃ last : SingleSumSMA UInt32 UInt32,
      run 2 ([7, 9, 7, 1].map .push) = some last) ↔
      WiderWindowsFit 2 ([7, 9, 7, 1] : List UInt32) :=
  pushes_fit_iff (by decide) _

/-- Two samples make the greatest number, and the third one comes before the
first one goes. -/
theorem push_overflows_fitting_windows :
    let samples : List UInt32 := [1, 4294967294, 1]
    (∀ given, given <+: samples →
      FixedWidth.total (given.rtake 2) ≤ FixedWidth.limit UInt32) ∧
    ¬∃ last : SingleSumSMA UInt32 UInt32,
      run 2 (samples.map .push) = some last := by
  intro samples
  constructor
  · intro given initial
    have listed : given ∈ samples.inits := (List.mem_inits _ _).mpr initial
    have all : samples.inits.all (fun given =>
        decide (FixedWidth.total (given.rtake 2) ≤
          FixedWidth.limit UInt32)) = true := by
      decide
    exact of_decide_eq_true (List.all_eq_true.mp all given listed)
  · rintro ⟨last, ended⟩
    have stopped : run (δ := UInt32) 2 (samples.map .push) = none := by
      decide
    cases stopped.symm.trans ended

end SingleSumSMA

end HoprUtilities.Statistics
