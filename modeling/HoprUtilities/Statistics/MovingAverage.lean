import HoprUtilities.Lib.SlidingWindow
import HoprUtilities.Lib.Transition

/-!
# Simple moving averages

The embedding of `src/statistics/moving/simple.rs`: one average that adds its
window up whenever it is asked, and one that carries the sum along.  The traits
that the source asks of samples and divisors are classes here; `none` is a
panic, whether of arithmetic or of the assertion on the window size.
-/

namespace HoprUtilities.Statistics

open HoprUtilities.Lib

/-- `Default`, `AddAssign` and `SubAssign`.  `Sum` adds from the default on. -/
class Sample (τ : Type) where
  default : τ
  add : τ → τ → Option τ
  sub : τ → τ → Option τ

/-- `D: From<u32>` and `T: Div<D, Output = T>`. -/
class Divisor (τ δ : Type) where
  ofU32 : Nat → δ
  div : τ → δ → Option τ

def sumOf {τ : Type} [Sample τ] (window : List τ) : Option τ :=
  window.foldlM Sample.add Sample.default

/-- `sum / D::from(window.len() as u32)`. -/
def divideByLength {τ : Type} (δ : Type) [Divisor τ δ] (sum : τ)
    (len : Nat) : Option τ :=
  Divisor.div sum (Divisor.ofU32 τ (len % UInt32.size) : δ)

structure NoSumSMA (τ δ : Type) where
  window : List τ
  windowSize : Nat
  deriving Repr

structure SingleSumSMA (τ δ : Type) where
  window : List τ
  windowSize : Nat
  sum : τ
  deriving Repr

namespace NoSumSMA

variable {τ δ : Type}

def len (self : NoSumSMA τ δ) : Nat := self.window.length

def isWindowFull (self : NoSumSMA τ δ) : Bool := self.len == self.windowSize

def isEmpty (self : NoSumSMA τ δ) : Bool := self.window.isEmpty

def new (windowSize : Nat) : Option (NoSumSMA τ δ) :=
  if windowSize > 1 then
    some { window := [], windowSize := windowSize }
  else none

def push (self : NoSumSMA τ δ) (sample : τ) : NoSumSMA τ δ :=
  let kept := if self.isWindowFull then self.window.tail else self.window
  { self with window := kept ++ [sample] }

def clear (self : NoSumSMA τ δ) : NoSumSMA τ δ := { self with window := [] }

def newWithSamples (windowSize : Nat) (samples : List τ) :
    Option (NoSumSMA τ δ) :=
  (new windowSize).map fun ret => samples.foldl push ret

def average [Sample τ] [Divisor τ δ] (self : NoSumSMA τ δ) :
    Option (Option τ) :=
  if self.isEmpty then some none
  else do
    let sum ← sumOf self.window
    let average ← divideByLength δ sum self.len
    return some average

end NoSumSMA

namespace SingleSumSMA

variable {τ δ : Type} [Sample τ]

def len (self : SingleSumSMA τ δ) : Nat := self.window.length

def isWindowFull (self : SingleSumSMA τ δ) : Bool :=
  self.len == self.windowSize

def isEmpty (self : SingleSumSMA τ δ) : Bool := self.window.isEmpty

def new (windowSize : Nat) : Option (SingleSumSMA τ δ) :=
  if windowSize > 1 then
    some { window := [], windowSize := windowSize, sum := Sample.default }
  else none

def push (self : SingleSumSMA τ δ) (sample : τ) :
    Option (SingleSumSMA τ δ) := do
  let sum ← Sample.add self.sum sample
  match self.isWindowFull, self.window with
  | true, shiftedSample :: rest =>
      let sum ← Sample.sub sum shiftedSample
      return { self with window := rest ++ [sample], sum := sum }
  | _, _ => return { self with window := self.window ++ [sample], sum := sum }

def clear (self : SingleSumSMA τ δ) : Option (SingleSumSMA τ δ) := do
  let sum ← Sample.sub self.sum self.sum
  return { self with window := [], sum := sum }

def newWithSamples (windowSize : Nat) (samples : List τ) :
    Option (SingleSumSMA τ δ) := do
  let ret ← new windowSize
  Lib.run push samples ret

def average [Divisor τ δ] (self : SingleSumSMA τ δ) : Option (Option τ) :=
  if self.isEmpty then some none
  else (divideByLength δ self.sum self.len).map some

end SingleSumSMA

/-- The calls that change an average.  The last one replaces it. -/
inductive SMACall (τ : Type) where
  | push (sample : τ)
  | clear
  | newWithSamples (windowSize : Nat) (samples : List τ)
  deriving Repr

namespace NoSumSMA

variable {τ δ : Type}

def apply (self : NoSumSMA τ δ) : SMACall τ → Option (NoSumSMA τ δ)
  | .push sample => some (self.push sample)
  | .clear => some self.clear
  | .newWithSamples windowSize samples => newWithSamples windowSize samples

def run (windowSize : Nat) (calls : List (SMACall τ)) :
    Option (NoSumSMA τ δ) := do
  let created ← new windowSize
  Lib.run apply calls created

end NoSumSMA

namespace SingleSumSMA

variable {τ δ : Type} [Sample τ]

def apply (self : SingleSumSMA τ δ) : SMACall τ → Option (SingleSumSMA τ δ)
  | .push sample => self.push sample
  | .clear => self.clear
  | .newWithSamples windowSize samples => newWithSamples windowSize samples

def run (windowSize : Nat) (calls : List (SMACall τ)) :
    Option (SingleSumSMA τ δ) := do
  let created ← new windowSize
  Lib.run apply calls created

end SingleSumSMA

/-- All samples since the average was created or last cleared. -/
structure SampleLog (τ : Type) where
  windowSize : Nat
  samples : List τ

namespace SampleLog

variable {τ : Type}

def apply (self : SampleLog τ) : SMACall τ → SampleLog τ
  | .push sample => { self with samples := self.samples ++ [sample] }
  | .clear => { self with samples := [] }
  | .newWithSamples windowSize samples =>
      { windowSize := windowSize, samples := samples }

def run (windowSize : Nat) (calls : List (SMACall τ)) : SampleLog τ :=
  calls.foldl apply { windowSize := windowSize, samples := [] }

def window (self : SampleLog τ) : List τ :=
  self.samples.rtake self.windowSize

end SampleLog

/-- The window sizes that the documentation allows. -/
def AllowedSize (windowSize : Nat) : Prop :=
  1 < windowSize ∧ windowSize < UInt32.size

/-- Every average of the run is created with an allowed window size. -/
def SMACall.Allowed {τ : Type} : SMACall τ → Prop
  | .newWithSamples windowSize _ => AllowedSize windowSize
  | _ => True

namespace SampleLog

variable {τ : Type}

theorem allowed_apply {log : SampleLog τ} {call : SMACall τ}
    (log_allowed : AllowedSize log.windowSize) (allowed : call.Allowed) :
    AllowedSize (log.apply call).windowSize := by
  cases call with
  | push sample => exact log_allowed
  | clear => exact log_allowed
  | newWithSamples windowSize samples => exact allowed

theorem pushes (log : SampleLog τ) (samples : List τ) :
    samples.foldl (fun log sample => log.apply (.push sample)) log =
      { log with samples := log.samples ++ samples } := by
  induction samples generalizing log with
  | nil => rw [List.foldl_nil, List.append_nil]
  | cons sample rest induction =>
      rw [List.foldl_cons, induction]
      simp [apply]

theorem window_push {log : SampleLog τ}
    (allowed : AllowedSize log.windowSize) (sample : τ) :
    (log.apply (.push sample)).window =
      slide log.windowSize log.window sample :=
  (slide_rtake (Nat.lt_of_succ_lt allowed.1) log.samples sample).symm

theorem length_window (log : SampleLog τ) :
    log.window.length = min log.samples.length log.windowSize :=
  length_rtake log.samples log.windowSize

end SampleLog

namespace NoSumSMA

variable {τ δ : Type}

/-- The average holds what the log says it should. -/
structure Holds (sma : NoSumSMA τ δ) (log : SampleLog τ) : Prop where
  windowSize : sma.windowSize = log.windowSize
  window : sma.window = log.window

theorem push_window (self : NoSumSMA τ δ) (sample : τ) :
    (self.push sample).window =
      slide self.windowSize self.window sample := by
  by_cases full : self.window.length = self.windowSize
  · simp [push, isWindowFull, len, slide, full]
  · simp [push, isWindowFull, len, slide, full]

theorem new_eq {windowSize : Nat} (allowed : AllowedSize windowSize) :
    new windowSize =
      some ({ window := [], windowSize := windowSize } : NoSumSMA τ δ) :=
  if_pos allowed.1

theorem holds_new (windowSize : Nat) :
    Holds ({ window := [], windowSize := windowSize } : NoSumSMA τ δ)
      { windowSize := windowSize, samples := [] } :=
  { windowSize := rfl
    window := (List.rtake_nil windowSize).symm }

theorem holds_push {self : NoSumSMA τ δ} {log : SampleLog τ}
    (allowed : AllowedSize log.windowSize) (holds : self.Holds log)
    (sample : τ) :
    (self.push sample).Holds (log.apply (.push sample)) :=
  { windowSize := holds.windowSize
    window := by
      rw [push_window, holds.window, holds.windowSize,
        SampleLog.window_push allowed] }

theorem holds_pushes {self : NoSumSMA τ δ} {log : SampleLog τ}
    (allowed : AllowedSize log.windowSize) (holds : self.Holds log)
    (samples : List τ) :
    (samples.foldl push self).Holds
      { log with samples := log.samples ++ samples } := by
  induction samples generalizing self log with
  | nil =>
      rw [List.append_nil]
      exact holds
  | cons sample rest induction =>
      have pushed := holds_push allowed holds sample
      have same : AllowedSize (log.apply (.push sample)).windowSize := allowed
      have later := induction same pushed
      simpa [SampleLog.apply] using later

theorem holds_apply (self : NoSumSMA τ δ) (log : SampleLog τ)
    (call : SMACall τ) (allowed : call.Allowed)
    (old : self.Holds log ∧ AllowedSize log.windowSize) :
    ∃ next, self.apply call = some next ∧
      next.Holds (log.apply call) ∧
      AllowedSize (log.apply call).windowSize := by
  obtain ⟨holds, log_allowed⟩ := old
  have still := SampleLog.allowed_apply log_allowed allowed
  cases call with
  | push sample =>
      exact ⟨_, rfl, holds_push log_allowed holds sample, still⟩
  | clear =>
      have window : [] = (log.apply .clear).window :=
        (List.rtake_nil log.windowSize).symm
      exact ⟨_, rfl,
        { windowSize := holds.windowSize, window := window }, still⟩
  | newWithSamples windowSize samples =>
      have size : AllowedSize windowSize := allowed
      have created :=
        holds_pushes size (holds_new (τ := τ) (δ := δ) windowSize) samples
      refine ⟨_, ?_, created, still⟩
      simp only [apply, newWithSamples, new_eq size, Option.map_some]

theorem holds_run {windowSize : Nat} {calls : List (SMACall τ)}
    (size : AllowedSize windowSize)
    (allowed : ∀ call ∈ calls, call.Allowed) :
    ∃ last : NoSumSMA τ δ, run windowSize calls = some last ∧
      last.Holds (SampleLog.run windowSize calls) ∧
      AllowedSize (SampleLog.run windowSize calls).windowSize := by
  have start := holds_new (τ := τ) (δ := δ) windowSize
  obtain ⟨last, ended, holds⟩ :=
    run_simulates holds_apply allowed ⟨start, size⟩
  refine ⟨last, ?_, holds⟩
  rw [run, new_eq size]
  exact ended

end NoSumSMA

instance exactSample : Sample Int where
  default := 0
  add left right := some (left + right)
  sub left right := some (left - right)

/-- Integer division rounds towards zero and panics on zero. -/
instance exactDivisor : Divisor Int Int where
  ofU32 number := number
  div sum divisor := if divisor = 0 then none else some (sum.tdiv divisor)

theorem sumOf_exact (window : List Int) : sumOf window = some window.sum := by
  have added : ∀ start : Int,
      window.foldlM Sample.add start = some (start + window.sum) := by
    induction window with
    | nil =>
        intro start
        rw [List.foldlM_nil, List.sum_nil, Int.add_zero]
        rfl
    | cons sample rest induction =>
        intro start
        rw [List.foldlM_cons, List.sum_cons, ← Int.add_assoc]
        exact induction (start + sample)
  have whole := added 0
  rw [Int.zero_add] at whole
  exact whole

namespace SingleSumSMA

section Checked

variable {τ δ : Type} [Sample τ]

theorem new_eq {windowSize : Nat} (allowed : AllowedSize windowSize) :
    new windowSize = some
      ({ window := []
         windowSize := windowSize
         sum := Sample.default } : SingleSumSMA τ δ) :=
  if_pos allowed.1

theorem push_free {self : SingleSumSMA τ δ} {sample sum : τ}
    (free : self.window.length ≠ self.windowSize)
    (added : Sample.add self.sum sample = some sum) :
    self.push sample = some
      { self with
        window := slide self.windowSize self.window sample
        sum := sum } := by
  have not_full : self.isWindowFull = false := by
    simpa [isWindowFull, len] using free
  simp [push, not_full, added, slide_free free]

theorem push_full {self : SingleSumSMA τ δ} {sample added_sum sum oldest : τ}
    {rest : List τ} (window : self.window = oldest :: rest)
    (full : self.window.length = self.windowSize)
    (added : Sample.add self.sum sample = some added_sum)
    (removed : Sample.sub added_sum oldest = some sum) :
    self.push sample = some
      { self with
        window := slide self.windowSize self.window sample
        sum := sum } := by
  have is_full : self.isWindowFull = true := by
    simpa [isWindowFull, len] using full
  have slid := slide_full full sample
  simp [push, is_full, window, added, removed] at slid ⊢
  exact slid.symm

end Checked

variable {δ : Type}

/-- The average holds what the log says it should, and the sum of it. -/
structure Holds (sma : SingleSumSMA Int δ) (log : SampleLog Int) :
    Prop where
  windowSize : sma.windowSize = log.windowSize
  window : sma.window = log.window
  sum : sma.sum = sma.window.sum

theorem holds_new (windowSize : Nat) :
    Holds
      ({ window := []
         windowSize := windowSize
         sum := Sample.default } : SingleSumSMA Int δ)
      { windowSize := windowSize, samples := [] } :=
  { windowSize := rfl
    window := (List.rtake_nil windowSize).symm
    sum := rfl }

/-- The sum follows the window, through the filling phase and after it. -/
theorem holds_push {self : SingleSumSMA Int δ} {log : SampleLog Int}
    (allowed : AllowedSize log.windowSize) (holds : self.Holds log)
    (sample : Int) :
    ∃ next, self.push sample = some next ∧
      next.Holds (log.apply (.push sample)) := by
  have slid : slide self.windowSize self.window sample =
      (log.apply (.push sample)).window := by
    rw [holds.window, holds.windowSize, SampleLog.window_push allowed]
  by_cases full : self.window.length = self.windowSize
  · cases window : self.window with
    | nil =>
        -- the assertion on the window size rules this out
        have positive := allowed.1
        rw [window, holds.windowSize] at full
        simp at full
        omega
    | cons oldest rest =>
        have sum : self.sum + sample - oldest =
            (slide self.windowSize self.window sample).sum := by
          rw [window] at full
          rw [holds.sum, window, sum_slide_full full]
        exact ⟨_, push_full window full rfl rfl,
          { windowSize := holds.windowSize, window := slid, sum := sum }⟩
  · have sum : self.sum + sample =
        (slide self.windowSize self.window sample).sum := by
      rw [sum_slide_free full, holds.sum]
    exact ⟨_, push_free full rfl,
      { windowSize := holds.windowSize, window := slid, sum := sum }⟩

theorem holds_pushes {self : SingleSumSMA Int δ} {log : SampleLog Int}
    (allowed : AllowedSize log.windowSize) (holds : self.Holds log)
    (samples : List Int) :
    ∃ last, Lib.run push samples self = some last ∧
      last.Holds (samples.foldl (fun log sample => log.apply (.push sample))
        log) := by
  have forward : ∀ (self : SingleSumSMA Int δ) (log : SampleLog Int) sample,
      True → self.Holds log ∧ AllowedSize log.windowSize →
      ∃ next, self.push sample = some next ∧
        next.Holds (log.apply (.push sample)) ∧
        AllowedSize (log.apply (.push sample)).windowSize := by
    intro self log sample _ old
    obtain ⟨next, pushed, next_holds⟩ := holds_push old.2 old.1 sample
    exact ⟨next, pushed, next_holds, old.2⟩
  obtain ⟨last, ended, last_holds, _⟩ :=
    run_simulates forward (fun sample (_ : sample ∈ samples) => trivial)
      ⟨holds, allowed⟩
  exact ⟨last, ended, last_holds⟩

theorem holds_apply (self : SingleSumSMA Int δ) (log : SampleLog Int)
    (call : SMACall Int) (allowed : call.Allowed)
    (old : self.Holds log ∧ AllowedSize log.windowSize) :
    ∃ next, self.apply call = some next ∧
      next.Holds (log.apply call) ∧
      AllowedSize (log.apply call).windowSize := by
  obtain ⟨holds, log_allowed⟩ := old
  have still := SampleLog.allowed_apply log_allowed allowed
  cases call with
  | push sample =>
      obtain ⟨next, pushed, next_holds⟩ := holds_push log_allowed holds sample
      exact ⟨next, pushed, next_holds, still⟩
  | clear =>
      have window : [] = (log.apply .clear).window :=
        (List.rtake_nil log.windowSize).symm
      have sum : self.sum - self.sum = ([] : List Int).sum :=
        Int.sub_self self.sum
      exact ⟨_, rfl,
        { windowSize := holds.windowSize, window := window, sum := sum },
        still⟩
  | newWithSamples windowSize samples =>
      have size : AllowedSize windowSize := allowed
      obtain ⟨last, finished, last_holds⟩ :=
        holds_pushes size (holds_new (δ := δ) windowSize) samples
      rw [SampleLog.pushes] at last_holds
      refine ⟨last, ?_, last_holds, still⟩
      simp only [apply, newWithSamples, new_eq size]
      exact finished

theorem holds_run {windowSize : Nat} {calls : List (SMACall Int)}
    (size : AllowedSize windowSize)
    (allowed : ∀ call ∈ calls, call.Allowed) :
    ∃ last : SingleSumSMA Int δ, run windowSize calls = some last ∧
      last.Holds (SampleLog.run windowSize calls) ∧
      AllowedSize (SampleLog.run windowSize calls).windowSize := by
  have start := holds_new (δ := δ) windowSize
  obtain ⟨last, ended, holds⟩ :=
    run_simulates holds_apply allowed ⟨start, size⟩
  refine ⟨last, ?_, holds⟩
  rw [run, new_eq size]
  exact ended

end SingleSumSMA

theorem divideByLength_exact (sum : Int) {len : Nat} (positive : 0 < len)
    (bounded : len < UInt32.size) :
    divideByLength Int sum len = some (sum.tdiv len) := by
  have nonzero : (len : Int) ≠ 0 := by omega
  rw [divideByLength, Nat.mod_eq_of_lt bounded]
  exact if_neg nonzero

theorem NoSumSMA.average_exact {sma : NoSumSMA Int Int}
    (nonempty : sma.window ≠ []) (bounded : sma.len < UInt32.size) :
    sma.average = some (some (sma.window.sum.tdiv sma.len)) := by
  have occupied : sma.isEmpty = false := by simpa [isEmpty] using nonempty
  have positive : 0 < sma.len := List.length_pos_iff.mpr nonempty
  simp [average, occupied, sumOf_exact,
    divideByLength_exact _ positive bounded]

theorem SingleSumSMA.average_exact {sma : SingleSumSMA Int Int}
    (nonempty : sma.window ≠ []) (bounded : sma.len < UInt32.size) :
    sma.average = some (some (sma.sum.tdiv sma.len)) := by
  have occupied : sma.isEmpty = false := by simpa [isEmpty] using nonempty
  have positive : 0 < sma.len := List.length_pos_iff.mpr nonempty
  simp [average, occupied, divideByLength_exact _ positive bounded]

theorem average_of_holds {basic : NoSumSMA Int Int}
    {single : SingleSumSMA Int Int} {log : SampleLog Int}
    (allowed : AllowedSize log.windowSize) (basic_holds : basic.Holds log)
    (single_holds : single.Holds log) :
    ∃ average, basic.average = some average ∧
      single.average = some average ∧ (average = none ↔ log.window = []) := by
  have basic_len : basic.len = log.window.length := by
    rw [NoSumSMA.len, basic_holds.window]
  have single_len : single.len = log.window.length := by
    rw [SingleSumSMA.len, single_holds.window]
  have bounded : log.window.length < UInt32.size := by
    rw [SampleLog.length_window]
    exact lt_of_le_of_lt (Nat.min_le_right _ _) allowed.2
  by_cases empty : log.window = []
  · refine ⟨none, ?_, ?_, by simp [empty]⟩
    · simp [NoSumSMA.average, NoSumSMA.isEmpty, basic_holds.window, empty]
    · simp [SingleSumSMA.average, SingleSumSMA.isEmpty, single_holds.window,
        empty]
  · have basic_average := NoSumSMA.average_exact
      (basic_holds.window ▸ empty) (basic_len ▸ bounded)
    have single_average := SingleSumSMA.average_exact
      (single_holds.window ▸ empty) (single_len ▸ bounded)
    rw [basic_holds.window, basic_len] at basic_average
    rw [single_holds.sum, single_holds.window, single_len] at single_average
    exact ⟨_, basic_average, single_average, by simp [empty]⟩

/-- Over exact integers the two averages hold the same window and report the
same values, after any calls. -/
theorem averages_agree (windowSize : Nat) (size : AllowedSize windowSize)
    (calls : List (SMACall Int)) (allowed : ∀ call ∈ calls, call.Allowed) :
    ∃ (basic : NoSumSMA Int Int) (single : SingleSumSMA Int Int),
      NoSumSMA.run windowSize calls = some basic ∧
      SingleSumSMA.run windowSize calls = some single ∧
      let log := SampleLog.run windowSize calls
      basic.windowSize = log.windowSize ∧
      single.windowSize = log.windowSize ∧
      basic.window = log.samples.rtake log.windowSize ∧
      single.window = log.samples.rtake log.windowSize ∧
      basic.len ≤ log.windowSize ∧ single.len ≤ log.windowSize ∧
      single.sum = single.window.sum ∧
      ∃ average, basic.average = some average ∧
        single.average = some average ∧
        (average = none ↔ log.samples.rtake log.windowSize = []) := by
  obtain ⟨basic, basic_ran, basic_holds, last_size⟩ :=
    NoSumSMA.holds_run (δ := Int) size allowed
  obtain ⟨single, single_ran, single_holds, _⟩ :=
    SingleSumSMA.holds_run (δ := Int) size allowed
  have bounded : (SampleLog.run windowSize calls).window.length ≤
      (SampleLog.run windowSize calls).windowSize := by
    rw [SampleLog.length_window]
    exact Nat.min_le_right _ _
  have basic_len := congrArg List.length basic_holds.window
  have single_len := congrArg List.length single_holds.window
  refine ⟨basic, single, basic_ran, single_ran, basic_holds.windowSize,
    single_holds.windowSize, basic_holds.window, single_holds.window,
    basic_len.trans_le bounded, single_len.trans_le bounded,
    single_holds.sum, average_of_holds last_size basic_holds single_holds⟩

/-- Filling, eviction, clearing and replacing in one run. -/
theorem averages_agree_example :
    ∃ (basic : NoSumSMA Int Int) (single : SingleSumSMA Int Int),
      NoSumSMA.run 3
        [.push 0, .push 1, .push 2, .push 3, .clear, .push 7,
          .newWithSamples 2 [4, 5, 6]] = some basic ∧
      SingleSumSMA.run 3
        [.push 0, .push 1, .push 2, .push 3, .clear, .push 7,
          .newWithSamples 2 [4, 5, 6]] = some single ∧
      basic.window = [5, 6] ∧ single.window = [5, 6] := by
  obtain ⟨basic, single, basic_ran, single_ran, _, _, basic_window,
      single_window, _⟩ :=
    averages_agree 3 ⟨by decide, by decide⟩
      [.push 0, .push 1, .push 2, .push 3, .clear, .push 7,
        .newWithSamples 2 [4, 5, 6]]
      (by simp [SMACall.Allowed, AllowedSize, UInt32.size])
  exact ⟨basic, single, basic_ran, single_ran, basic_window, single_window⟩

end HoprUtilities.Statistics
