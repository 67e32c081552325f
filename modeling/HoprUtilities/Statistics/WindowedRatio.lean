import Mathlib.Algebra.GroupWithZero.Nat
import Mathlib.Data.Fin.Basic
import Mathlib.Data.List.FinRange
import Mathlib.Logic.Function.Basic
import HoprUtilities.Lib.Totals

/-!
# A ratio over a sliding window

The embedding of `src/statistics/moving/windowed.rs` and its refinement of a
plain log of records.  A ring of slots is cleared lazily: a slot carries the
number of the slice it counts, and is taken over by the first record of a newer
slice.  A record of an older slice is dropped.

Instants and durations are numbers of nanoseconds, counts and slice numbers are
natural numbers with the saturation and truncation of `u64` written out.
-/

namespace HoprUtilities.Statistics

open HoprUtilities.Lib

def maxCount : Nat := UInt64.size - 1

def saturatingAdd (left right : Nat) : Nat := min (left + right) maxCount

structure Bucket where
  stamp : Nat
  expected : Nat
  observed : Nat
  deriving DecidableEq, Repr

inductive Tally where
  | expected
  | observed
  deriving DecidableEq, Repr

namespace Bucket

/-- `Bucket::default()` but for the stamp. -/
def empty (stamp : Nat) : Bucket :=
  { stamp := stamp, expected := 0, observed := 0 }

def count (bucket : Bucket) : Tally → Nat
  | .expected => bucket.expected
  | .observed => bucket.observed

def add (bucket : Bucket) (amount : Nat) : Tally → Bucket
  | .expected =>
      { bucket with expected := saturatingAdd bucket.expected amount }
  | .observed =>
      { bucket with observed := saturatingAdd bucket.observed amount }

@[simp] theorem count_empty (stamp : Nat) (tally : Tally) :
    (empty stamp).count tally = 0 := by
  cases tally <;> rfl

@[simp] theorem stamp_empty (stamp : Nat) : (empty stamp).stamp = stamp := rfl

@[simp] theorem stamp_add (bucket : Bucket) (amount : Nat) (tally : Tally) :
    (bucket.add amount tally).stamp = bucket.stamp := by
  cases tally <;> rfl

theorem count_add (bucket : Bucket) (amount : Nat) (added tally : Tally) :
    (bucket.add amount added).count tally =
      if added = tally then saturatingAdd (bucket.count tally) amount
      else bucket.count tally := by
  cases added <;> cases tally <;> rfl

end Bucket

structure WindowedRatio (size : Nat) where
  buckets : Fin size → Bucket
  bucketWidth : Nat
  epoch : Nat

namespace WindowedRatio

section Operations

variable {size : Nat} [NeZero size]

/-- One millisecond. -/
def minWidth : Nat := 1000000

def new (bucketWidth epoch : Nat) : WindowedRatio size :=
  { buckets := fun _ => .empty 0
    bucketWidth := max bucketWidth minWidth
    epoch := epoch }

/-- The number of the slice, before it is truncated to 64 bits. -/
def quotient (self : WindowedRatio size) (now : Nat) : Nat :=
  (now - self.epoch) / self.bucketWidth

def absoluteBucket (self : WindowedRatio size) (now : Nat) : Nat :=
  self.quotient now % UInt64.size

/-- The slot for `now` and what it then holds, or `none` if it already holds a
newer slice. -/
def bucketAt (self : WindowedRatio size) (now : Nat) :
    Option (Fin size × Bucket) :=
  let absolute := self.absoluteBucket now
  let slot := Fin.ofNat size absolute
  match compare absolute (self.buckets slot).stamp with
  | .lt => none
  | .eq => some (slot, self.buckets slot)
  -- reused for a newer slice, so the counts of the previous one go
  | .gt => some (slot, .empty absolute)

/-- The ratio with another bucket in one slot. -/
def put (self : WindowedRatio size) (slot : Fin size) (bucket : Bucket) :
    WindowedRatio size :=
  { self with buckets := Function.update self.buckets slot bucket }

def record (tally : Tally) (self : WindowedRatio size) (count now : Nat) :
    WindowedRatio size :=
  match self.bucketAt now with
  | none => self
  | some (slot, bucket) => self.put slot (bucket.add count tally)

def recordExpected : WindowedRatio size → Nat → Nat → WindowedRatio size :=
  record .expected

def recordObserved : WindowedRatio size → Nat → Nat → WindowedRatio size :=
  record .observed

def clampSlices (size slices : Nat) : Nat := max 1 (min slices size)

/-- The first of the most recent slices. -/
def oldest (self : WindowedRatio size) (slices now : Nat) : Nat :=
  self.absoluteBucket now - (clampSlices size slices - 1)

/-- The totals that `recent_value` computes, expected before observed. -/
def recentTotals (self : WindowedRatio size) (slices now : Nat) : Nat × Nat :=
  let current := self.absoluteBucket now
  let oldest := self.oldest slices now
  ((List.finRange size).map self.buckets
    |>.filter fun bucket => oldest ≤ bucket.stamp && bucket.stamp ≤ current)
    |>.foldl (fun (expected, observed) bucket =>
        (saturatingAdd expected bucket.expected,
          saturatingAdd observed bucket.observed)) (0, 0)

/-- `ratio` stands for the clamped floating-point quotient. -/
def recentValue {φ : Type} (ratio : Nat → Nat → φ)
    (self : WindowedRatio size) (slices now : Nat) : Option φ :=
  let (expected, observed) := self.recentTotals slices now
  if 0 < expected then some (ratio observed expected) else none

def value {φ : Type} (ratio : Nat → Nat → φ) (self : WindowedRatio size)
    (now : Nat) : Option φ :=
  self.recentValue ratio size now

end Operations

end WindowedRatio

structure Record where
  tally : Tally
  count : Nat
  now : Nat
  deriving DecidableEq, Repr

namespace WindowedRatio

variable {size : Nat} [NeZero size]

/-- The ratio after the recorded calls. -/
def recordAll (log : List Record) (self : WindowedRatio size) :
    WindowedRatio size :=
  log.foldl (fun ratio entry => ratio.record entry.tally entry.count entry.now)
    self

/-- The sum of the counts of all records of a kind that satisfy the
condition. -/
def amount (tally : Tally) (counted : Record → Bool) (log : List Record) :
    Nat :=
  total (fun entry =>
    if entry.tally = tally ∧ counted entry = true then entry.count else 0) log

/-- The slot that a record goes to. -/
def slot (self : WindowedRatio size) (entry : Record) : Fin size :=
  Fin.ofNat size (self.absoluteBucket entry.now)

/-- The record goes to the given slot and belongs to the given slice. -/
def isOf (self : WindowedRatio size) (place : Fin size) (slice : Nat)
    (entry : Record) : Bool :=
  self.slot entry == place && self.absoluteBucket entry.now == slice

omit [NeZero size] in
@[simp] theorem put_self (self : WindowedRatio size) (place : Fin size)
    (bucket : Bucket) : (self.put place bucket).buckets place = bucket := by
  simp [put]

omit [NeZero size] in
theorem put_of_ne (self : WindowedRatio size) {place other : Fin size}
    (bucket : Bucket) (apart : other ≠ place) :
    (self.put place bucket).buckets other = self.buckets other := by
  simp [put, apart]

@[simp] theorem amount_append (tally : Tally) (counted : Record → Bool)
    (left right : List Record) :
    amount tally counted (left ++ right) =
      amount tally counted left + amount tally counted right :=
  total_append _ _ _

theorem amount_ignored (tally : Tally) {counted : Record → Bool}
    {entry : Record} (ignored : counted entry = false) :
    amount tally counted [entry] = 0 := by
  simp [amount, ignored]

inductive Claims (self : WindowedRatio size) (now : Nat) :
    Option (Fin size × Bucket) → Prop where
  | late
      (older : self.absoluteBucket now <
        (self.buckets (Fin.ofNat size (self.absoluteBucket now))).stamp) :
      Claims self now none
  | same {place : Fin size}
      (isPlace : place = Fin.ofNat size (self.absoluteBucket now))
      (stamped : (self.buckets place).stamp = self.absoluteBucket now) :
      Claims self now (some (place, self.buckets place))
  | reused {place : Fin size}
      (isPlace : place = Fin.ofNat size (self.absoluteBucket now))
      (newer : (self.buckets place).stamp < self.absoluteBucket now) :
      Claims self now (some (place, .empty (self.absoluteBucket now)))

theorem claims_bucketAt (self : WindowedRatio size) (now : Nat) :
    Claims self now (self.bucketAt now) := by
  unfold bucketAt
  dsimp only
  split
  · next older => exact .late (Nat.compare_eq_lt.mp older)
  · next stamped => exact .same rfl (Nat.compare_eq_eq.mp stamped).symm
  · next newer => exact .reused rfl (Nat.compare_eq_gt.mp newer)

/-- The ratio agrees with the log; `clock` is any ratio with the same slices.
Every slot counts the newest of its slices, exactly up to saturation. -/
structure Logged (clock : WindowedRatio size) (log : List Record)
    (ratio : WindowedRatio size) : Prop where
  clock_eq : ratio.absoluteBucket = clock.absoluteBucket
  newest : ∀ entry ∈ log, clock.absoluteBucket entry.now ≤
    (ratio.buckets (clock.slot entry)).stamp
  origin : ∀ place, (ratio.buckets place).stamp = 0 ∨ ∃ entry ∈ log,
    clock.slot entry = place ∧
      clock.absoluteBucket entry.now = (ratio.buckets place).stamp
  counted : ∀ place tally, (ratio.buckets place).count tally =
    min (amount tally (clock.isOf place (ratio.buckets place).stamp) log)
      maxCount

namespace Logged

variable {clock ratio : WindowedRatio size} {log : List Record}

theorem new (bucketWidth epoch : Nat) :
    Logged (WindowedRatio.new bucketWidth epoch : WindowedRatio size) []
      (WindowedRatio.new bucketWidth epoch) := by
  constructor
  · rfl
  · intro entry member
    cases member
  · intro place
    exact .inl rfl
  · intro place tally
    simp [WindowedRatio.new, amount]

theorem late (logged : Logged clock log ratio) {entry : Record}
    (older : clock.absoluteBucket entry.now <
      (ratio.buckets (clock.slot entry)).stamp) :
    Logged clock (log ++ [entry]) ratio := by
  constructor
  · exact logged.clock_eq
  · intro other member
    rcases List.mem_append.mp member with earlier | last
    · exact logged.newest other earlier
    · rw [List.mem_singleton.mp last]
      exact Nat.le_of_lt older
  · intro place
    rcases logged.origin place with zero | ⟨other, member, stamped⟩
    · exact .inl zero
    · exact .inr ⟨other, List.mem_append_left _ member, stamped⟩
  · intro place tally
    have ignored :
        clock.isOf place (ratio.buckets place).stamp entry = false := by
      by_contra counted
      simp only [isOf, Bool.and_eq_true, beq_iff_eq,
        Bool.not_eq_false] at counted
      rw [counted.1] at older
      omega
    rw [amount_append, amount_ignored tally ignored, Nat.add_zero]
    exact logged.counted place tally

/-- A record goes to its slot, which then counts the slice of the record:
`bucket` is what the slot holds before the count is added. -/
theorem claimed (logged : Logged clock log ratio) {entry : Record}
    {bucket : Bucket} (stamped : bucket.stamp = clock.absoluteBucket entry.now)
    (newest : (ratio.buckets (clock.slot entry)).stamp ≤ bucket.stamp)
    (counted : ∀ tally, bucket.count tally =
      min (amount tally (clock.isOf (clock.slot entry) bucket.stamp) log)
        maxCount) :
    Logged clock (log ++ [entry])
      (ratio.put (clock.slot entry) (bucket.add entry.count entry.tally)) := by
  constructor
  · exact logged.clock_eq
  · intro other member
    by_cases same : clock.slot other = clock.slot entry
    · rw [same, put_self, Bucket.stamp_add]
      rcases List.mem_append.mp member with earlier | last
      · have below := logged.newest other earlier
        rw [same] at below
        omega
      · rw [List.mem_singleton.mp last, stamped]
    · rw [put_of_ne _ _ same]
      rcases List.mem_append.mp member with earlier | last
      · exact logged.newest other earlier
      · rw [List.mem_singleton.mp last] at same
        exact (same rfl).elim
  · intro place
    by_cases same : place = clock.slot entry
    · subst same
      exact .inr ⟨entry, by simp, rfl, by simp [stamped]⟩
    · rw [put_of_ne _ _ same]
      rcases logged.origin place with zero | ⟨other, present, stamped⟩
      · exact .inl zero
      · exact .inr ⟨other, List.mem_append_left _ present, stamped⟩
  · intro place tally
    by_cases same : place = clock.slot entry
    · subst same
      have own : clock.isOf (clock.slot entry) bucket.stamp entry = true := by
        simp [isOf, stamped]
      rw [put_self, Bucket.stamp_add, amount_append, Bucket.count_add, counted]
      by_cases added : entry.tally = tally
      · simp only [amount, total_cons, total_nil, added, own, saturatingAdd]
        simp only [if_true, and_self]
        omega
      · simp [amount, added]
    · have other : clock.isOf place (ratio.buckets place).stamp entry =
          false := by
        simp [isOf, Ne.symm same]
      rw [put_of_ne _ _ same, amount_append, amount_ignored tally other,
        Nat.add_zero]
      exact logged.counted place tally

theorem record (logged : Logged clock log ratio) (entry : Record) :
    Logged clock (log ++ [entry])
      (ratio.record entry.tally entry.count entry.now) := by
  have claims := ratio.claims_bucketAt entry.now
  have sameClock : ratio.absoluteBucket entry.now =
      clock.absoluteBucket entry.now := by
    rw [logged.clock_eq]
  unfold WindowedRatio.record
  generalize ratio.bucketAt entry.now = claim at claims
  cases claims with
  | late older =>
      rw [sameClock] at older
      exact logged.late older
  | same isPlace stamped =>
      rw [sameClock] at isPlace stamped
      subst isPlace
      exact logged.claimed stamped (Nat.le_refl _) (logged.counted _)
  | reused isPlace newer =>
      rw [sameClock] at isPlace newer
      subst isPlace
      rw [sameClock]
      have stamped : (Bucket.empty (clock.absoluteBucket entry.now)).stamp =
          clock.absoluteBucket entry.now := rfl
      apply logged.claimed stamped (Nat.le_of_lt newer)
      intro tally
      -- every record of this slot is of an older slice
      have none : amount tally (clock.isOf (clock.slot entry)
          (clock.absoluteBucket entry.now)) log = 0 := by
        apply total_eq_zero
        intro other member
        have below := logged.newest other member
        have ignored : clock.isOf (clock.slot entry)
            (clock.absoluteBucket entry.now) other = false := by
          by_contra counted
          simp only [isOf, Bool.and_eq_true, beq_iff_eq,
            Bool.not_eq_false] at counted
          rw [counted.1, counted.2] at below
          exact Nat.not_lt.mpr below newer
        simp [ignored]
      rw [Bucket.count_empty, Bucket.stamp_empty, none, Nat.zero_min]

theorem recordAll (rest : List Record) :
    ∀ {log : List Record} {ratio : WindowedRatio size},
      Logged clock log ratio →
      Logged clock (log ++ rest) (ratio.recordAll rest) := by
  induction rest with
  | nil =>
      intro log ratio logged
      rw [List.append_nil]
      exact logged
  | cons entry rest induction =>
      intro log ratio logged
      have next := induction (logged.record entry)
      rw [List.append_assoc] at next
      exact next

end Logged

theorem foldl_saturating (buckets : List Bucket) (expected observed : Nat) :
    buckets.foldl (fun (expected, observed) bucket =>
        (saturatingAdd expected bucket.expected,
          saturatingAdd observed bucket.observed))
      (min expected maxCount, min observed maxCount) =
    (min (expected + total Bucket.expected buckets) maxCount,
      min (observed + total Bucket.observed buckets) maxCount) := by
  induction buckets generalizing expected observed with
  | nil => rfl
  | cons bucket rest induction =>
      have absorb : ∀ left right, saturatingAdd (min left maxCount) right =
          min (left + right) maxCount := by
        intro left right
        unfold saturatingAdd
        omega
      rw [List.foldl_cons]
      simp only [absorb]
      rw [induction, total_cons, total_cons, Nat.add_assoc, Nat.add_assoc]

def recentTotal (self : WindowedRatio size) (slices now : Nat) : Tally → Nat
  | .expected => (self.recentTotals slices now).1
  | .observed => (self.recentTotals slices now).2

/-- The slot counts a slice of the window. -/
def live (self : WindowedRatio size) (slices now : Nat) (place : Fin size) :
    Bool :=
  self.oldest slices now ≤ (self.buckets place).stamp &&
    (self.buckets place).stamp ≤ self.absoluteBucket now

omit [NeZero size] in
theorem recentTotal_eq (self : WindowedRatio size) (slices now : Nat)
    (tally : Tally) :
    self.recentTotal slices now tally =
      min (total (fun place => if self.live slices now place then
        (self.buckets place).count tally else 0) (List.finRange size))
        maxCount := by
  have folded := foldl_saturating
    (((List.finRange size).map self.buckets).filter fun bucket =>
      self.oldest slices now ≤ bucket.stamp &&
        bucket.stamp ≤ self.absoluteBucket now) 0 0
  rw [Nat.zero_min, Nat.zero_add, Nat.zero_add, total_filter, total_filter,
    total_map, total_map] at folded
  cases tally with
  | expected => exact congrArg Prod.fst folded
  | observed => exact congrArg Prod.snd folded

/-- The record is in the ring, and its slot is read. -/
def visible (clock ratio : WindowedRatio size) (slices now : Nat)
    (entry : Record) : Bool :=
  clock.absoluteBucket entry.now == (ratio.buckets (clock.slot entry)).stamp &&
    ratio.live slices now (clock.slot entry)

namespace Logged

variable {clock ratio : WindowedRatio size} {log : List Record}

theorem recentTotal_eq (logged : Logged clock log ratio) (slices now : Nat)
    (tally : Tally) :
    ratio.recentTotal slices now tally =
      min (amount tally (clock.visible ratio slices now) log) maxCount := by
  rw [WindowedRatio.recentTotal_eq]
  have cutOff : ∀ place, (if ratio.live slices now place then
      (ratio.buckets place).count tally else 0) =
      min (total (fun entry => if ratio.live slices now place ∧
        entry.tally = tally ∧
        clock.isOf place (ratio.buckets place).stamp entry then entry.count
        else 0) log) maxCount := by
    intro place
    by_cases isLive : ratio.live slices now place = true
    · simp only [isLive, if_true, true_and]
      exact logged.counted place tally
    · simp only [isLive, Bool.false_eq_true, false_and, if_false]
      rw [total_eq_zero (fun _ _ => rfl), Nat.zero_min]
  rw [total_congr (fun place _ => cutOff place), min_total_min, total_comm]
  congr 1
  apply total_congr
  intro entry _
  -- a record goes to one slot only
  rw [total_eq_single (List.nodup_finRange size)
    (List.mem_finRange (clock.slot entry))]
  · by_cases isLive : ratio.live slices now (clock.slot entry) = true <;>
      by_cases stamped : clock.absoluteBucket entry.now =
        (ratio.buckets (clock.slot entry)).stamp <;>
      simp [visible, isOf, isLive, stamped]
  · intro place other
    simp [isOf, Ne.symm other]

/-- A record of the window is in the ring: a newer slice of the same slot would
lie in the future. -/
theorem stamp_eq (logged : Logged clock log ratio) {slices now : Nat}
    (past : ∀ entry ∈ log,
      clock.absoluteBucket entry.now ≤ clock.absoluteBucket now)
    {entry : Record} (member : entry ∈ log)
    (recent : clock.oldest slices now ≤ clock.absoluteBucket entry.now) :
    clock.absoluteBucket entry.now =
      (ratio.buckets (clock.slot entry)).stamp := by
  have below := logged.newest entry member
  by_contra different
  rcases logged.origin (clock.slot entry) with zero | ⟨other, present, same,
    stamped⟩
  · omega
  · have present := past other present
    -- two slices of one slot are at least the size of the ring apart
    have residues : clock.absoluteBucket other.now % size =
        clock.absoluteBucket entry.now % size :=
      congrArg Fin.val same
    have apart : size ≤ clock.absoluteBucket other.now -
        clock.absoluteBucket entry.now := by
      apply Nat.le_of_dvd (by omega)
      exact Nat.dvd_of_mod_eq_zero (Nat.sub_mod_eq_zero_of_mod_eq residues)
    have positive : 0 < size := Nat.pos_of_ne_zero (NeZero.ne size)
    unfold oldest clampSlices at recent
    omega

end Logged

/-- The slice of the record is one of the last ones up to that of `now`. -/
def isRecent (self : WindowedRatio size) (slices now : Nat)
    (entry : Record) : Bool :=
  self.quotient now < self.quotient entry.now + clampSlices size slices &&
    self.quotient entry.now ≤ self.quotient now

/-- What a read of the plain log returns. -/
def logTotals (self : WindowedRatio size) (log : List Record)
    (slices now : Nat) : Nat × Nat :=
  (min (amount .expected (self.isRecent slices now) log) maxCount,
    min (amount .observed (self.isRecent slices now) log) maxCount)

namespace Logged

variable {clock ratio : WindowedRatio size} {log : List Record}

theorem isRecent_of_visible (logged : Logged clock log ratio)
    {slices now : Nat} (nowFits : clock.quotient now < UInt64.size)
    {entry : Record} (fits : clock.quotient entry.now < UInt64.size)
    (seen : clock.visible ratio slices now entry = true) :
    clock.isRecent slices now entry = true := by
  have stays : ∀ time, clock.quotient time < UInt64.size →
      clock.absoluteBucket time = clock.quotient time := by
    intro time short
    exact Nat.mod_eq_of_lt short
  simp only [visible, live, oldest, logged.clock_eq, Bool.and_eq_true,
    beq_iff_eq, decide_eq_true_eq] at seen
  obtain ⟨stamped, lower, upper⟩ := seen
  rw [← stamped, stays _ nowFits, stays _ fits] at lower upper
  have positive : 1 ≤ clampSlices size slices := Nat.le_max_left _ _
  simp only [isRecent, Bool.and_eq_true, decide_eq_true_eq]
  omega

/-- A recent record is visible unless there are records from the future. -/
theorem visible_of_isRecent (logged : Logged clock log ratio)
    {slices now : Nat} (nowFits : clock.quotient now < UInt64.size)
    (past : ∀ entry ∈ log,
      clock.absoluteBucket entry.now ≤ clock.absoluteBucket now)
    {entry : Record} (member : entry ∈ log)
    (fits : clock.quotient entry.now < UInt64.size)
    (recent : clock.isRecent slices now entry = true) :
    clock.visible ratio slices now entry = true := by
  have nowSlice : clock.absoluteBucket now = clock.quotient now :=
    Nat.mod_eq_of_lt nowFits
  have slice : clock.absoluteBucket entry.now = clock.quotient entry.now :=
    Nat.mod_eq_of_lt fits
  simp only [isRecent, Bool.and_eq_true, decide_eq_true_eq] at recent
  have lower : clock.oldest slices now ≤ clock.absoluteBucket entry.now := by
    rw [oldest, nowSlice, slice]
    omega
  have stamped := logged.stamp_eq past member lower
  have upper := past entry member
  simp only [visible, live, oldest, logged.clock_eq, Bool.and_eq_true,
    beq_iff_eq, decide_eq_true_eq, ← stamped]
  exact ⟨trivial, lower, upper⟩

theorem recentTotal_le (logged : Logged clock log ratio) {slices now : Nat}
    (fits : ∀ entry ∈ log, clock.quotient entry.now < UInt64.size)
    (nowFits : clock.quotient now < UInt64.size) (tally : Tally) :
    ratio.recentTotal slices now tally ≤
      min (amount tally (clock.isRecent slices now) log) maxCount := by
  rw [logged.recentTotal_eq]
  have each : amount tally (clock.visible ratio slices now) log ≤
      amount tally (clock.isRecent slices now) log := by
    apply total_le_of_mem
    intro entry member
    have recent : clock.visible ratio slices now entry = true →
        clock.isRecent slices now entry = true :=
      logged.isRecent_of_visible nowFits (fits entry member)
    by_cases seen : clock.visible ratio slices now entry = true
    · simp [seen, recent seen]
    · simp [seen]
  omega

theorem recentTotal_eq_of_past (logged : Logged clock log ratio)
    {slices now : Nat}
    (fits : ∀ entry ∈ log, clock.quotient entry.now < UInt64.size)
    (nowFits : clock.quotient now < UInt64.size)
    (past : ∀ entry ∈ log,
      clock.absoluteBucket entry.now ≤ clock.absoluteBucket now)
    (tally : Tally) :
    ratio.recentTotal slices now tally =
      min (amount tally (clock.isRecent slices now) log) maxCount := by
  rw [logged.recentTotal_eq]
  congr 1
  apply total_congr
  intro entry member
  have same : clock.visible ratio slices now entry =
      clock.isRecent slices now entry := by
    rw [Bool.eq_iff_iff]
    exact ⟨logged.isRecent_of_visible nowFits (fits entry member),
      logged.visible_of_isRecent nowFits past member (fits entry member)⟩
  rw [same]

end Logged

/-- For every log of records, the totals that a read computes are at most those
of the log, and exactly those if no record is later than the read.  They then
depend on the records and not on their order. -/
theorem recentTotals_refine_log (bucketWidth epoch : Nat) (log : List Record)
    (slices now : Nat)
    (fits : ∀ entry ∈ log,
      (new bucketWidth epoch : WindowedRatio size).quotient entry.now <
        UInt64.size)
    (nowFits : (new bucketWidth epoch : WindowedRatio size).quotient now <
      UInt64.size) :
    let start : WindowedRatio size := new bucketWidth epoch
    let totals := (start.recordAll log).recentTotals slices now
    totals.1 ≤ (start.logTotals log slices now).1 ∧
    totals.2 ≤ (start.logTotals log slices now).2 ∧
    ((∀ entry ∈ log, entry.now ≤ now) →
      totals = start.logTotals log slices now ∧
      ∀ other : List Record, other.Perm log →
        (start.recordAll other).recentTotals slices now = totals) := by
  intro start totals
  have logged : ∀ log, Logged start log (start.recordAll log) := by
    intro log
    exact (Logged.new bucketWidth epoch).recordAll log
  have exact_ : ∀ log : List Record,
      (∀ entry ∈ log, start.quotient entry.now < UInt64.size) →
      (∀ entry ∈ log, entry.now ≤ now) →
      (start.recordAll log).recentTotals slices now =
        start.logTotals log slices now := by
    intro log fits past
    have inPast : ∀ entry ∈ log,
        start.absoluteBucket entry.now ≤ start.absoluteBucket now := by
      intro entry member
      rw [absoluteBucket, absoluteBucket, Nat.mod_eq_of_lt (fits entry member),
        Nat.mod_eq_of_lt nowFits]
      exact Nat.div_le_div_right (Nat.sub_le_sub_right (past entry member) _)
    exact Prod.ext
      ((logged log).recentTotal_eq_of_past fits nowFits inPast .expected)
      ((logged log).recentTotal_eq_of_past fits nowFits inPast .observed)
  refine ⟨(logged log).recentTotal_le fits nowFits .expected,
    (logged log).recentTotal_le fits nowFits .observed, ?_⟩
  intro past
  refine ⟨exact_ log fits past, ?_⟩
  intro other permuted
  have sameEntries : ∀ entry, entry ∈ other → entry ∈ log :=
    fun entry => permuted.mem_iff.mp
  calc (start.recordAll other).recentTotals slices now
      = start.logTotals other slices now :=
        exact_ other (fun entry member => fits entry (sameEntries entry member))
          (fun entry member => past entry (sameEntries entry member))
    _ = start.logTotals log slices now := by
        simp only [logTotals, amount, total_perm permuted]
    _ = totals := (exact_ log fits past).symm

/-- Two slots.  The second record takes over the slot of the first; the third
is late for the window, the last one is late and still counted. -/
def lateLog : List Record :=
  [⟨.expected, 7, 500000⟩, ⟨.expected, 5, 2500000⟩, ⟨.observed, 9, 800000⟩,
    ⟨.observed, 3, 1500000⟩]

theorem recentTotals_refine_log_lateLog :
    ((new 1000000 0 : WindowedRatio 2).recordAll lateLog).recentTotals 2
        3000000 = (5, 0) ∧
    ((new 1000000 0 : WindowedRatio 2).recordAll lateLog).recentTotals 2
        2900000 = (5, 3) ∧
    ((new 1000000 0 : WindowedRatio 2).recordAll lateLog.reverse).recentTotals
        2 2900000 = (5, 3) := by
  have fits : ∀ entry ∈ lateLog,
      (new 1000000 0 : WindowedRatio 2).quotient entry.now < UInt64.size := by
    decide
  have first := recentTotals_refine_log 1000000 0 lateLog 2 3000000
    fits (by decide)
  have second := recentTotals_refine_log 1000000 0 lateLog 2
    2900000 fits (by decide)
  obtain ⟨atFirst, _⟩ := first.2.2 (by decide)
  obtain ⟨atSecond, anyOrder⟩ := second.2.2 (by decide)
  refine ⟨atFirst.trans (by decide), atSecond.trans (by decide), ?_⟩
  exact (anyOrder _ lateLog.reverse_perm).trans
    (atSecond.trans (by decide))

end WindowedRatio

end HoprUtilities.Statistics
