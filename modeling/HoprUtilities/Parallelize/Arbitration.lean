import Mathlib.Tactic.Common

/-!
# The admission policy of the arbiter

The pure part of `src/parallelize/cpu/arbitration.rs`: the configuration, the
admission cap, and `try_reserve_decode` as a machine with one atomic operation
a step.

Counters are natural numbers: each counts live guards, of which there are
fewer than `usize::MAX`.  A decrement at zero wraps, as in the source.  The
percentages of the pool size are exact: in `u64` the products overflow only
from `2^57` threads on.
-/

namespace HoprUtilities.Parallelize

/-- `usize::MAX` of a 64-bit target. -/
def usizeMax : Nat := UInt64.size - 1

inductive ArbitrationConfig where
  | disabled
  | enabled (occupancyPct encodeReservePct : Nat)
  deriving DecidableEq, Repr

/-- A percentage the arbiter can be configured with. -/
def IsPercentage (value : Nat) : Prop := 1 ≤ value ∧ value ≤ 100

instance (value : Nat) : Decidable (IsPercentage value) :=
  inferInstanceAs (Decidable (_ ∧ _))

def clampPct (value : Nat) : Nat := max 1 (min value 100)

def saturatingMul (left right : Nat) : Nat := min (left * right) usizeMax

def divCeil (value divisor : Nat) : Nat := (value + divisor - 1) / divisor

def decodeFloodFactor : Nat := 2

/-- The number of running tasks from which on the pool counts as saturated. -/
def occupancyThreshold (poolThreads occupancyPct : Nat) : Nat :=
  max (poolThreads * occupancyPct / 100) 1

/-- The number of decode tasks that leaves the reserved threads to encode. -/
def decodeCap (poolThreads encOutstanding encodeReservePct : Nat) : Nat :=
  let reserve :=
    min (divCeil (poolThreads * encodeReservePct) 100) encOutstanding
  max (poolThreads - reserve) 1

def decodeAdmitCap (poolThreads running decodeOutstanding encOutstanding
    occupancyPct encodeReservePct : Nat) : Option Nat :=
  if running < occupancyThreshold poolThreads occupancyPct then none
  else if encOutstanding = 0 then none
  else if decodeOutstanding ≤ saturatingMul encOutstanding decodeFloodFactor
  then none
  else some (decodeCap poolThreads encOutstanding encodeReservePct)

/-- The atomic counters of the pool. -/
inductive Counter where
  | running
  | outstanding
  | encodeOutstanding
  | decodeOutstanding
  deriving DecidableEq, Repr

abbrev Counters := Counter → Nat

namespace Counters

def fetchAdd (counters : Counters) (counter : Counter) : Counters :=
  fun current =>
    if current = counter then counters counter + 1 else counters current

def fetchSub (counters : Counters) (counter : Counter) : Counters :=
  fun current =>
    if current = counter then
      if counters counter = 0 then usizeMax else counters counter - 1
    else counters current

end Counters

/-- What `admit_decode` has read before it tries to reserve a slot. -/
structure Gate where
  poolThreads : Nat
  occupancyPct : Nat
  reservePct : Nat
  deriving DecidableEq, Repr

namespace Gate

/-- The limit `try_reserve_decode` compares with: `None` is unconstrained. -/
def limit (gate : Gate) (running dec enc : Nat) : Nat :=
  (decodeAdmitCap gate.poolThreads running dec enc gate.occupancyPct
    gate.reservePct).getD usizeMax

/-- The decision of `try_reserve_decode` on the given counters. -/
def admits (gate : Gate) (counters : Counters) : Bool :=
  decide (counters .decodeOutstanding <
    gate.limit (counters .running) (counters .decodeOutstanding)
      (counters .encodeOutstanding))

end Gate

/-- The places of `try_reserve_decode`, with the values loaded so far. -/
inductive TryPc where
  | loadDec
  | loadRunning (dec : Nat)
  | loadEnc (dec running : Nat)
  | compareExchange (dec : Nat)
  deriving DecidableEq, Repr

/-- How `try_reserve_decode` goes on after an atomic operation. -/
inductive TryMove where
  | next (pc : TryPc)
  | returned (reserved : Bool)
  deriving DecidableEq, Repr

/-- The counters after the operation: only a reservation changes them. -/
def TryMove.counters (counters : Counters) : TryMove → Counters
  | .returned true => counters.fetchAdd .decodeOutstanding
  | _ => counters

/-- One atomic operation of `try_reserve_decode`.  The weak compare-exchange
may also fail when the value is as expected: `weak` says that it does not. -/
def tryReserveDecode (gate : Gate) (counters : Counters) (weak : Bool) :
    TryPc → TryMove
  | .loadDec => .next (.loadRunning (counters .decodeOutstanding))
  | .loadRunning dec => .next (.loadEnc dec (counters .running))
  | .loadEnc dec running =>
      if dec ≥ gate.limit running dec (counters .encodeOutstanding) then
        .returned false
      else .next (.compareExchange dec)
  | .compareExchange dec =>
      if weak && counters .decodeOutstanding == dec then .returned true
      else .next .loadDec

/-- What an atomic operation of `try_reserve_decode` can do. -/
inductive TryStep (gate : Gate) (counters : Counters) :
    TryPc → TryMove → Prop where
  | loadDec :
      TryStep gate counters .loadDec
        (.next (.loadRunning (counters .decodeOutstanding)))
  | loadRunning (dec : Nat) :
      TryStep gate counters (.loadRunning dec)
        (.next (.loadEnc dec (counters .running)))
  | refuse {dec running : Nat}
      (full : gate.limit running dec (counters .encodeOutstanding) ≤ dec) :
      TryStep gate counters (.loadEnc dec running) (.returned false)
  | pass {dec running : Nat}
      (room : dec < gate.limit running dec (counters .encodeOutstanding)) :
      TryStep gate counters (.loadEnc dec running)
        (.next (.compareExchange dec))
  | reserve :
      TryStep gate counters
        (.compareExchange (counters .decodeOutstanding)) (.returned true)
  | retry (dec : Nat) :
      TryStep gate counters (.compareExchange dec) (.next .loadDec)

theorem tryStep_tryReserveDecode (gate : Gate) (counters : Counters)
    (weak : Bool) (pc : TryPc) :
    TryStep gate counters pc (tryReserveDecode gate counters weak pc) := by
  cases pc with
  | loadDec => exact .loadDec
  | loadRunning dec => exact .loadRunning dec
  | loadEnc dec running =>
      simp only [tryReserveDecode]
      split_ifs with full
      · exact .refuse full
      · exact .pass (Nat.lt_of_not_le full)
  | compareExchange dec =>
      simp only [tryReserveDecode]
      split_ifs with success
      · simp only [Bool.and_eq_true, beq_iff_eq] at success
        rw [← success.2]
        exact .reserve
      · exact .retry dec

theorem decodeCap_pos (poolThreads encOutstanding encodeReservePct : Nat) :
    1 ≤ decodeCap poolThreads encOutstanding encodeReservePct :=
  Nat.le_max_right _ _

theorem Gate.limit_pos (gate : Gate) (running dec enc : Nat) :
    1 ≤ gate.limit running dec enc := by
  unfold limit decodeAdmitCap
  split_ifs
  · exact Nat.le_of_ble_eq_true rfl
  · exact Nat.le_of_ble_eq_true rfl
  · exact Nat.le_of_ble_eq_true rfl
  · exact decodeCap_pos _ _ _

end HoprUtilities.Parallelize
