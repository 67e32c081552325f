import HoprUtilities.Lib.Transition
import HoprUtilities.Lib.Threads
import HoprUtilities.Parallelize.Arbitration

/-!
# The admission cap under counter updates and under contention

First, which updates of the counters can open the gate for a refused decode
task, and whether they come with a notification.  Then the cap as a limit on
`DECODE_OUTSTANDING` when any number of `try_reserve_decode` calls race.
-/

namespace HoprUtilities.Parallelize

open HoprUtilities.Lib

inductive CounterUpdate where
  | encodeSubmit
  | encodeRelease
  | decodeReserve
  | decodeRelease
  | taskStart
  | taskEnd
  deriving DecidableEq, Repr

namespace CounterUpdate

def apply (counters : Counters) : CounterUpdate → Counters
  | .encodeSubmit => counters.fetchAdd .encodeOutstanding
  | .encodeRelease => counters.fetchSub .encodeOutstanding
  | .decodeReserve => counters.fetchAdd .decodeOutstanding
  | .decodeRelease => counters.fetchSub .decodeOutstanding
  | .taskStart => counters.fetchAdd .running
  | .taskEnd => counters.fetchSub .running

/-- The update is followed by `ARBITRATION_EVENT.notify(1.additional())`: the
releases are the drops of `TaggedGuard` and `RunningGuard`. -/
def notifies : CounterUpdate → Bool
  | .encodeRelease | .decodeRelease | .taskEnd => true
  | .encodeSubmit | .decodeReserve | .taskStart => false

end CounterUpdate

namespace Gate

/-- A refusal that does not come from a full counter. -/
structure Refused (gate : Gate) (counters : Counters) : Prop where
  saturated : occupancyThreshold gate.poolThreads gate.occupancyPct ≤
    counters .running
  protects : 1 ≤ counters .encodeOutstanding
  flooding : 2 * counters .encodeOutstanding < counters .decodeOutstanding
  full : decodeCap gate.poolThreads (counters .encodeOutstanding)
    gate.reservePct ≤ counters .decodeOutstanding

theorem decodeCap_le_usizeMax {gate : Gate}
    (sized : gate.poolThreads ≤ usizeMax) (enc : Nat) :
    decodeCap gate.poolThreads enc gate.reservePct ≤ usizeMax :=
  Nat.max_le.mpr ⟨Nat.le_trans (Nat.sub_le _ _) sized,
    Nat.le_of_ble_eq_true rfl⟩

theorem admits_eq_false_iff {gate : Gate} (counters : Counters)
    (sized : gate.poolThreads ≤ usizeMax) :
    gate.admits counters = false ↔
      usizeMax ≤ counters .decodeOutstanding ∨ gate.Refused counters := by
  have small := decodeCap_le_usizeMax sized (counters .encodeOutstanding)
  unfold admits limit decodeAdmitCap saturatingMul decodeFloodFactor
  simp only [decide_eq_false_iff_not, Nat.not_lt]
  constructor
  · intro refused
    split_ifs at refused with idle unprotected calm
    · exact .inl refused
    · exact .inl refused
    · exact .inl refused
    · by_cases top : usizeMax ≤ counters .decodeOutstanding
      · exact .inl top
      · exact .inr ⟨by omega, by omega, by omega, refused⟩
  · intro choice
    rcases choice with top | ⟨saturated, protects, flooding, full⟩
    · split_ifs with idle unprotected calm
      · exact top
      · exact top
      · exact top
      · exact Nat.le_trans small top
    · rw [if_neg (by omega), if_neg (by omega), if_neg (by omega)]
      exact full

theorem admits_eq_true_iff {gate : Gate} (counters : Counters)
    (sized : gate.poolThreads ≤ usizeMax) :
    gate.admits counters = true ↔
      counters .decodeOutstanding < usizeMax ∧ ¬gate.Refused counters := by
  rw [← Bool.not_eq_false, admits_eq_false_iff counters sized, not_or,
    Nat.not_le]

end Gate

theorem decodeCap_antitone (poolThreads encodeReservePct : Nat)
    {fewer more : Nat} (le : fewer ≤ more) :
    decodeCap poolThreads more encodeReservePct ≤
      decodeCap poolThreads fewer encodeReservePct := by
  unfold decodeCap
  dsimp only
  omega

namespace CounterUpdate

/-- The situation in which another encode task lets decode through that was
refused before: the second bound of the flood gate passes the decode count. -/
structure OpensFloodGate (gate : Gate) (counters : Counters) : Prop where
  refused : gate.Refused counters
  reached : counters .decodeOutstanding ≤
    2 * (counters .encodeOutstanding + 1)
  countable : counters .decodeOutstanding < usizeMax

/-- Every update that lets a refused decode task through is announced, except
for an encode task that opens the flood gate. -/
theorem announced_iff (gate : Gate) (sized : gate.poolThreads ≤ usizeMax)
    (counters : Counters) (update : CounterUpdate) :
    (gate.admits counters = false →
      gate.admits (update.apply counters) = true →
      update.notifies = true) ↔
    ¬(update = .encodeSubmit ∧ OpensFloodGate gate counters) := by
  rw [Gate.admits_eq_false_iff counters sized,
    Gate.admits_eq_true_iff _ sized]
  cases update with
  | encodeRelease | decodeRelease | taskEnd => simp [notifies]
  | decodeReserve =>
      simp only [reduceCtorEq, false_and, not_false_eq_true, iff_true]
      intro choice premise
      obtain ⟨countable, admitted⟩ := premise
      rcases choice with top | refused
      · have raised : counters .decodeOutstanding + 1 < usizeMax := countable
        omega
      · refine (admitted ⟨refused.saturated, refused.protects, ?_, ?_⟩).elim
        · exact Nat.lt_succ_of_lt refused.flooding
        · exact Nat.le_succ_of_le refused.full
  | taskStart =>
      simp only [reduceCtorEq, false_and, not_false_eq_true, iff_true]
      intro choice premise
      obtain ⟨countable, admitted⟩ := premise
      rcases choice with top | refused
      · have same : counters .decodeOutstanding < usizeMax := countable
        omega
      · exact (admitted ⟨Nat.le_succ_of_le refused.saturated,
          refused.protects, refused.flooding, refused.full⟩).elim
  | encodeSubmit =>
      simp only [notifies, Bool.false_eq_true, true_and]
      constructor
      · intro announced premise
        obtain ⟨refused, reached, countable⟩ := premise
        refine announced (.inr refused) ⟨countable, ?_⟩
        intro still
        have flooding : 2 * (counters .encodeOutstanding + 1) <
            counters .decodeOutstanding := still.flooding
        omega
      · intro closed choice premise
        obtain ⟨countable, admitted⟩ := premise
        rcases choice with top | refused
        · have same : counters .decodeOutstanding < usizeMax := countable
          omega
        · refine closed ⟨refused, ?_, countable⟩
          by_contra above
          refine admitted ⟨refused.saturated, ?_, Nat.lt_of_not_le above, ?_⟩
          · exact Nat.le_add_left 1 _
          · exact Nat.le_trans (decodeCap_antitone _ _ (Nat.le_succ _))
              refused.full

/-- A pool of two threads, one of which runs the only encode task, while
three decode tasks are outstanding. -/
def oneEncodeThreeDecode : Counters
  | .running => 1
  | .outstanding => 4
  | .encodeOutstanding => 1
  | .decodeOutstanding => 3

def defaultGate (poolThreads : Nat) : Gate :=
  { poolThreads := poolThreads, occupancyPct := 75, reservePct := 50 }

theorem encodeSubmit_not_announced :
    (defaultGate 2).admits oneEncodeThreeDecode = false ∧
    (defaultGate 2).admits (encodeSubmit.apply oneEncodeThreeDecode) = true ∧
    encodeSubmit.notifies = false := by
  decide

theorem announced_iff_decodeRelease :
    (defaultGate 2).admits oneEncodeThreeDecode = false ∧
    (defaultGate 2).admits (decodeRelease.apply oneEncodeThreeDecode) = true ∧
    decodeRelease.notifies = true := by
  have refused : (defaultGate 2).admits oneEncodeThreeDecode = false := by
    decide
  have admitted : (defaultGate 2).admits
      (decodeRelease.apply oneEncodeThreeDecode) = true := by
    decide
  exact ⟨refused, admitted, (announced_iff (defaultGate 2) (by decide)
    oneEncodeThreeDecode decodeRelease).mpr (by simp) refused admitted⟩

end CounterUpdate

/-- A call of `try_reserve_decode`: at one of its places, or returned. -/
inductive ReserveCall where
  | running (pc : TryPc)
  | returned (reserved : Bool)
  deriving DecidableEq, Repr

def ReserveCall.reservations : ReserveCall → Nat
  | .returned true => 1
  | _ => 0

/-- The counters, the calls made so far, and the number of decode slots
released. -/
structure Reservations where
  counters : Counters
  calls : List ReserveCall
  released : Nat

/-- A step of the race: a new call, an atomic operation of a call, the release
of a decode slot, or a task that starts or ends. -/
inductive RaceLabel where
  | call
  | operate (index : Nat) (weak : Bool)
  | release
  | taskStart
  | taskEnd
  deriving DecidableEq, Repr

namespace Reservations

def start (counters : Counters) : Reservations :=
  { counters := counters, calls := [], released := 0 }

/-- The call after an atomic operation. -/
def afterMove : TryMove → ReserveCall
  | .next pc => .running pc
  | .returned reserved => .returned reserved

def operate (gate : Gate) (race : Reservations) (index : Nat) (weak : Bool) :
    Option Reservations :=
  match race.calls[index]? with
  | some (.running pc) =>
      let move := tryReserveDecode gate race.counters weak pc
      some
        { race with
          counters := move.counters race.counters
          calls := race.calls.set index (afterMove move) }
  | _ => none

/-- The race while the encode count does not change and the pool stays
saturated. -/
def step (gate : Gate) (race : Reservations) : RaceLabel → Option Reservations
  | .call => some { race with calls := race.calls ++ [.running .loadDec] }
  | .operate index weak => race.operate gate index weak
  | .release =>
      if 0 < race.counters .decodeOutstanding then
        some
          { race with
            counters := race.counters.fetchSub .decodeOutstanding
            released := race.released + 1 }
      else none
  | .taskStart =>
      some { race with counters := race.counters.fetchAdd .running }
  | .taskEnd =>
      if occupancyThreshold gate.poolThreads gate.occupancyPct <
          race.counters .running then
        some { race with counters := race.counters.fetchSub .running }
      else none

/-- The most decode tasks a reservation can lead to. -/
def bound (gate : Gate) (enc : Nat) : Nat :=
  max (2 * enc + 1) (max 1 (gate.poolThreads -
    min enc (divCeil (gate.poolThreads * gate.reservePct) 100)))

/-- What a call has loaded: the pool was saturated, and the value it is about
to replace lies below the bound. -/
def Sound (gate : Gate) (enc : Nat) : ReserveCall → Prop
  | .running (.loadEnc _ running) =>
      occupancyThreshold gate.poolThreads gate.occupancyPct ≤ running
  | .running (.compareExchange dec) => dec + 1 ≤ bound gate enc
  | _ => True

structure Contained (gate : Gate) (enc initial : Nat)
    (race : Reservations) : Prop where
  encode : race.counters .encodeOutstanding = enc
  saturated : occupancyThreshold gate.poolThreads gate.occupancyPct ≤
    race.counters .running
  sound : ∀ call ∈ race.calls, Sound gate enc call
  counted : race.counters .decodeOutstanding + race.released =
    initial + total ReserveCall.reservations race.calls

variable {gate : Gate} {enc initial : Nat} {race next : Reservations}

theorem operate_eq_some {index : Nat} {weak : Bool}
    (taken : race.operate gate index weak = some next) :
    ∃ pc move, race.calls[index]? = some (.running pc) ∧
      TryStep gate race.counters pc move ∧
      next =
        { race with
          counters := move.counters race.counters
          calls := race.calls.set index (afterMove move) } := by
  unfold operate at taken
  split at taken
  · next pc current =>
      cases taken
      exact ⟨pc, _, current, tryStep_tryReserveDecode _ _ _ _, rfl⟩
  · cases taken

/-- With the encode count fixed and the pool saturated, a call that is not
refused has seen a decode count below the bound. -/
theorem lt_bound_of_lt_limit {running dec : Nat}
    (saturated : occupancyThreshold gate.poolThreads gate.occupancyPct ≤
      running) (protects : 1 ≤ enc) (below : dec < gate.limit running dec enc) :
    dec + 1 ≤ bound gate enc := by
  unfold Gate.limit decodeAdmitCap saturatingMul decodeFloodFactor at below
  rw [if_neg (by omega), if_neg (by omega)] at below
  unfold bound
  split_ifs at below with calm
  · omega
  · unfold decodeCap at below
    dsimp only [Option.getD_some] at below
    omega

/-- An atomic operation changes the decode count by the reservation it
makes. -/
theorem counters_decode (move : TryMove) (counters : Counters) :
    move.counters counters .decodeOutstanding =
      counters .decodeOutstanding + (afterMove move).reservations := by
  match move with
  | .next pc => rfl
  | .returned false => rfl
  | .returned true => rfl

theorem counters_other (move : TryMove) (counters : Counters)
    {counter : Counter} (other : counter ≠ .decodeOutstanding) :
    move.counters counters counter = counters counter := by
  unfold TryMove.counters
  split
  · simp [Counters.fetchAdd, other]
  · rfl

namespace Contained

theorem sound_afterMove (contained : Contained gate enc initial race)
    (protects : 1 ≤ enc) {pc : TryPc} {move : TryMove}
    (step : TryStep gate race.counters pc move)
    (sound : Sound gate enc (.running pc)) :
    Sound gate enc (afterMove move) := by
  cases step with
  | loadDec => trivial
  | loadRunning dec => exact contained.saturated
  | refuse full => trivial
  | pass room =>
      rw [contained.encode] at room
      exact lt_bound_of_lt_limit sound protects room
  | reserve => trivial
  | retry dec => trivial

theorem operate (contained : Contained gate enc initial race)
    (protects : 1 ≤ enc) {index : Nat} {weak : Bool}
    (taken : race.operate gate index weak = some next) :
    Contained gate enc initial next := by
  obtain ⟨pc, move, current, step, rfl⟩ := operate_eq_some taken
  have sound := contained.sound_afterMove protects step
    (contained.sound _ (List.mem_of_getElem? current))
  refine ⟨?_, ?_, forall_set contained.sound sound, ?_⟩
  · rw [← contained.encode]
    exact counters_other move _ (by decide)
  · dsimp only
    rw [counters_other move race.counters (by decide)]
    exact contained.saturated
  · have before := contained.counted
    have recount := total_set ReserveCall.reservations (afterMove move)
      current
    have unreturned : (ReserveCall.running pc).reservations = 0 := rfl
    dsimp only
    rw [counters_decode]
    omega

theorem step (contained : Contained gate enc initial race)
    (protects : 1 ≤ enc) {label : RaceLabel}
    (taken : race.step gate label = some next) :
    Contained gate enc initial next := by
  cases label with
  | call =>
      cases taken
      refine ⟨contained.encode, contained.saturated,
        forall_concat contained.sound trivial, ?_⟩
      simpa [ReserveCall.reservations] using contained.counted
  | operate index weak => exact contained.operate protects taken
  | release =>
      simp only [Reservations.step] at taken
      split_ifs at taken with positive
      cases taken
      refine ⟨contained.encode, contained.saturated, contained.sound, ?_⟩
      have before := contained.counted
      simp only [Counters.fetchSub, if_true]
      split_ifs <;> omega
  | taskStart =>
      cases taken
      exact ⟨contained.encode, Nat.le_succ_of_le contained.saturated,
        contained.sound, contained.counted⟩
  | taskEnd =>
      simp only [Reservations.step] at taken
      split_ifs at taken with above
      cases taken
      refine ⟨contained.encode, ?_, contained.sound, contained.counted⟩
      simp only [Counters.fetchSub, if_true]
      split_ifs <;> omega

end Contained

/-- However many calls race, no reservation raises the decode count above the
bound, and only a reservation raises it: an operation of a call that is or
will be refused leaves it alone, and so does the whole call. -/
theorem reservation_le_bound (gate : Gate) (counters : Counters)
    (protects : 1 ≤ counters .encodeOutstanding)
    (saturated : occupancyThreshold gate.poolThreads gate.occupancyPct ≤
      counters .running) (race : Reservations)
    (reachable : Reachable (step gate) (start counters) race) :
    (∀ index weak next, race.step gate (.operate index weak) = some next →
      if next.calls[index]? = some (.returned true) then
        next.counters .decodeOutstanding =
          race.counters .decodeOutstanding + 1 ∧
        next.counters .decodeOutstanding ≤
          max (2 * counters .encodeOutstanding + 1)
            (max 1 (gate.poolThreads -
              min (counters .encodeOutstanding)
                (divCeil (gate.poolThreads * gate.reservePct) 100)))
      else
        next.counters .decodeOutstanding =
          race.counters .decodeOutstanding) ∧
    race.counters .decodeOutstanding + race.released =
      counters .decodeOutstanding +
        total ReserveCall.reservations race.calls := by
  have contained : Contained gate (counters .encodeOutstanding)
      (counters .decodeOutstanding) race :=
    reachable.invariant
      (fun _ _ _ taken held => Contained.step held protects taken)
      ⟨rfl, saturated, by simp [start], by simp [start]⟩
  refine ⟨?_, contained.counted⟩
  intro index weak next taken
  obtain ⟨pc, move, current, step, rfl⟩ := operate_eq_some taken
  have inside : index < race.calls.length :=
    (List.getElem?_eq_some_iff.mp current).1
  rw [List.getElem?_set_self inside]
  have seen := contained.sound _ (List.mem_of_getElem? current)
  cases step with
  | reserve => exact ⟨rfl, seen⟩
  | loadDec | loadRunning | refuse | pass | retry => rfl

/-- Two calls see the last free slot, and one of them gets it. -/
def twoCalls : List RaceLabel :=
  [.call, .call, .operate 0 true, .operate 1 true, .operate 0 true,
    .operate 1 true, .operate 0 true, .operate 1 true, .operate 0 true,
    .operate 1 true]

def lastSlot : Counters
  | .decodeOutstanding => 2
  | _ => 1

theorem reservation_le_bound_twoCalls :
    ∃ race, run (step (CounterUpdate.defaultGate 2)) twoCalls
        (start lastSlot) = some race ∧
      race.calls = [.returned true, .running .loadDec] ∧
      race.counters .decodeOutstanding + race.released =
        2 + total ReserveCall.reservations race.calls := by
  have passed : (run (step (CounterUpdate.defaultGate 2)) twoCalls
      (start lastSlot)).any
        (·.calls == [.returned true, .running .loadDec]) = true := by
    decide
  obtain ⟨race, ended, calls⟩ := exists_run _ passed
  refine ⟨race, ended, by simpa using calls, ?_⟩
  exact (reservation_le_bound (CounterUpdate.defaultGate 2) lastSlot
    (by decide) (by decide) race ⟨twoCalls, ended⟩).2

end Reservations

end HoprUtilities.Parallelize
