import Mathlib.Algebra.Order.Field.Basic
import Mathlib.Algebra.Order.Ring.Rat
import Mathlib.Order.Interval.Set.Defs
import Mathlib.Tactic.Linarith

/-!
# Weighted picks

The embedding of `src/statistics/weighted.rs` over any ordered type of weights.
A draw of the random generator is an argument.  Of the arithmetic of `f64`
only `x + 0 = x` matters to a pick: its finite and infinite values, with the two
zeros taken for one, are such an ordered type.
-/

namespace HoprUtilities.Statistics

section Sums

variable {T W : Type} [LinearOrder W] [Zero W] [Add W]

/-- The left-to-right sum of the positive weights of the first items. -/
def runningSum (cumulative : W) (items : List (T × W)) (count : Nat) : W :=
  (items.take count).foldl (fun sum item => sum + max item.2 0) cumulative

structure WeightedCollection (T W : Type) [LinearOrder W] [Zero W] [Add W]
    where
  items : List (T × W)
  totalWeight : W
  cached : totalWeight = runningSum 0 items items.length

namespace WeightedCollection

/-- `From`.  The sum over an iterator goes from left to right. -/
def new (items : List (T × W)) : WeightedCollection T W where
  items := items
  totalWeight := items.foldl (fun sum item => sum + max item.2 0) 0
  cached := by rw [runningSum, List.take_length]

def isEmpty (self : WeightedCollection T W) : Bool := self.items.isEmpty

def len (self : WeightedCollection T W) : Nat := self.items.length

def probabilityOf [Div W] (self : WeightedCollection T W) (weight : W) : W :=
  if 0 < self.totalWeight ∧ 0 < weight then weight / self.totalWeight else 0

def scan (r : W) : List (T × W) → Nat → W → Option Nat
  | [], _, _ => none
  | (_, weight) :: rest, i, cumulative =>
      let cumulative := cumulative + max weight 0
      if r < cumulative then some i else scan r rest (i + 1) cumulative

/-- `rposition` of a positive weight. -/
def lastPositive (items : List (T × W)) : Option Nat :=
  (items.reverse.findIdx? fun item => decide (0 < item.2)).map
    fun i => items.length - 1 - i

/-- `r` is what the generator draws if it is asked to. -/
def pickIndex (self : WeightedCollection T W) (r : W) : Option Nat :=
  if self.totalWeight ≤ 0 then none
  else if self.items.length = 1 then some 0
  else
    match scan r self.items 0 0 with
    | some i => some i
    -- a rounding error is thought of here
    | none => lastPositive self.items

end WeightedCollection

@[simp] theorem runningSum_zero (cumulative : W) (items : List (T × W)) :
    runningSum cumulative items 0 = cumulative := rfl

@[simp] theorem runningSum_cons (cumulative : W) (item : T × W)
    (rest : List (T × W)) (count : Nat) :
    runningSum cumulative (item :: rest) (count + 1) =
      runningSum (cumulative + max item.2 0) rest count := rfl

theorem runningSum_succ (cumulative : W) {items : List (T × W)} {i : Nat}
    {item : T × W} (found : items[i]? = some item) :
    runningSum cumulative items (i + 1) =
      runningSum cumulative items i + max item.2 0 := by
  rw [runningSum, List.take_add_one, found, List.foldl_append]
  rfl

namespace WeightedCollection

/-- The loop ends at the first running sum above the draw, and there is one
unless the draw is not below the whole sum. -/
theorem scan_eq {r : W} {items : List (T × W)} (start : Nat) {cumulative : W}
    (reached : cumulative ≤ r)
    (below : r < runningSum cumulative items items.length) :
    ∃ i < items.length, scan r items start cumulative = some (start + i) ∧
      r < runningSum cumulative items (i + 1) ∧
      ∀ j ≤ i, runningSum cumulative items j ≤ r := by
  induction items generalizing start cumulative with
  | nil => exact absurd below (not_lt.mpr reached)
  | cons item rest induction =>
      by_cases hit : r < cumulative + max item.2 0
      · refine ⟨0, Nat.succ_pos _, if_pos hit, hit, fun j bound => ?_⟩
        rw [Nat.le_zero.mp bound]
        exact reached
      · obtain ⟨i, inside, found, above, before⟩ :=
          induction (start + 1) (not_lt.mp hit) below
        refine ⟨i + 1, Nat.succ_lt_succ inside, ?_, above, fun j bound => ?_⟩
        · rw [scan, if_neg hit, found, Nat.add_assoc, Nat.add_comm 1]
        · cases j with
          | zero => exact reached
          | succ j => exact before j (Nat.le_of_succ_le_succ bound)

/-- A pick is the pick of the loop, also where the loop is skipped. -/
theorem pickIndex_eq_scan (items : List (T × W)) {r : W} (nonneg : 0 ≤ r)
    (below : r < (new items).totalWeight) :
    ∃ i < items.length, scan r items 0 0 = some i ∧
      (new items).pickIndex r = some i ∧
      r < runningSum 0 items (i + 1) ∧
      ∀ j ≤ i, runningSum 0 items j ≤ r := by
  have total := below
  rw [(new items).cached] at total
  obtain ⟨i, inside, found, above, before⟩ := scan_eq 0 nonneg total
  rw [Nat.zero_add] at found
  have positive : ¬(new items).totalWeight ≤ 0 :=
    not_le.mpr (nonneg.trans_lt below)
  refine ⟨i, inside, found, ?_, above, before⟩
  rw [pickIndex, if_neg positive]
  split_ifs with single
  · have first : i = 0 := by
      have bound : i < 1 := inside.trans_eq single
      exact Nat.lt_one_iff.mp bound
    rw [first]
  · have listed : (new items).items = items := rfl
    have same : scan r items 0 0 = some i := found
    rw [listed, same]

/-- An item without a positive weight does not move the running sum. -/
theorem positive_of_moved (add_zero : ∀ weight : W, weight + 0 = weight)
    {items : List (T × W)} {i : Nat} {item : T × W}
    (found : items[i]? = some item) {r : W}
    (before : runningSum 0 items i ≤ r)
    (above : r < runningSum 0 items (i + 1)) : 0 < item.2 := by
  by_contra excluded
  rw [runningSum_succ 0 found, max_eq_right (not_lt.mp excluded),
    add_zero] at above
  exact absurd above (not_lt.mpr before)

end WeightedCollection

end Sums

section Exact

variable {T F : Type} [Field F] [LinearOrder F] [IsStrictOrderedRing F]

theorem runningSum_le_succ (items : List (T × F)) (i : Nat) :
    runningSum 0 items i ≤ runningSum 0 items (i + 1) := by
  cases found : items[i]? with
  | none =>
      have outside := List.getElem?_eq_none_iff.mp found
      rw [runningSum, runningSum, List.take_of_length_le outside,
        List.take_of_length_le (Nat.le_succ_of_le outside)]
  | some item =>
      rw [runningSum_succ 0 found]
      exact le_add_of_nonneg_right (le_max_right _ _)

theorem runningSum_mono (items : List (T × F)) :
    Monotone (runningSum (0 : F) items) :=
  monotone_nat_of_le_succ (runningSum_le_succ items)

namespace WeightedCollection

/-- The draws that pick an item are those between the running sums before and
after it. -/
theorem draws_of_index {items : List (T × F)} {i : Nat} {item : T × F}
    (found : items[i]? = some item) (r : F) :
    (0 ≤ r ∧ r < (new items).totalWeight ∧
      (new items).pickIndex r = some i) ↔
    r ∈ Set.Ico (runningSum 0 items i)
      (runningSum 0 items i + max item.2 0) := by
  rw [Set.mem_Ico, ← runningSum_succ 0 found]
  constructor
  · rintro ⟨nonneg, below, picked⟩
    obtain ⟨index, _, _, same, above, before⟩ :=
      pickIndex_eq_scan items nonneg below
    cases same.symm.trans picked
    exact ⟨before i le_rfl, above⟩
  · rintro ⟨before, above⟩
    have nonneg : 0 ≤ r :=
      (runningSum_mono items (Nat.zero_le i)).trans before
    have inside : i < items.length := (List.getElem?_eq_some_iff.mp found).1
    have below : r < (new items).totalWeight := by
      rw [(new items).cached]
      exact above.trans_le (runningSum_mono items inside)
    obtain ⟨index, _, _, picked, passed, up_to⟩ :=
      pickIndex_eq_scan items nonneg below
    have same : index = i := by
      apply le_antisymm
      · by_contra later
        exact absurd above (not_lt.mpr (up_to (i + 1) (not_le.mp later)))
      · by_contra earlier
        have bound := runningSum_mono items (not_le.mp earlier)
        exact absurd passed (not_lt.mpr (bound.trans before))
    exact ⟨nonneg, below, same ▸ picked⟩

theorem share_eq_probabilityOf (items : List (T × F)) {item : T × F}
    (member : item ∈ items) :
    max item.2 0 / (new items).totalWeight =
      (new items).probabilityOf item.2 := by
  by_cases positive : 0 < item.2
  · obtain ⟨i, inside, rfl⟩ := List.mem_iff_getElem.mp member
    have found : items[i]? = some items[i] := List.getElem?_eq_getElem inside
    have total : 0 < (new items).totalWeight := by
      rw [(new items).cached]
      calc
        0 ≤ runningSum 0 items i := runningSum_mono items (Nat.zero_le i)
        _ < runningSum 0 items i + max items[i].2 0 :=
          lt_add_of_pos_right _ (lt_max_of_lt_left positive)
        _ = runningSum 0 items (i + 1) := (runningSum_succ 0 found).symm
        _ ≤ runningSum 0 items items.length := runningSum_mono items inside
    rw [probabilityOf, if_pos ⟨total, positive⟩, max_eq_left positive.le]
  · rw [probabilityOf, if_neg fun both => positive both.2,
      max_eq_right (not_lt.mp positive), zero_div]

/-- A pick inverts the running sums, for any arithmetic with `x + 0 = x`, and in
exact arithmetic an item is picked with its own probability. -/
theorem pickIndex_inverts {W : Type} [LinearOrder W] [Zero W] [Add W]
    (add_zero : ∀ weight : W, weight + 0 = weight) :
    (∀ (items : List (T × W)) (r : W),
      0 ≤ r → r < (new items).totalWeight →
      ∃ i item, items[i]? = some item ∧
        (new items).pickIndex r = some i ∧
        scan r items 0 0 = some i ∧
        0 < item.2 ∧
        r < runningSum 0 items (i + 1) ∧
        ∀ j < i, runningSum 0 items (j + 1) ≤ r) ∧
    ∀ (items : List (T × F)) i item, items[i]? = some item →
      ∃ low high : F,
        {r | 0 ≤ r ∧ r < (new items).totalWeight ∧
          (new items).pickIndex r = some i} = Set.Ico low high ∧
        high - low = max item.2 0 ∧
        (high - low) / (new items).totalWeight =
          (new items).probabilityOf item.2 := by
  constructor
  · intro items r nonneg below
    obtain ⟨i, inside, found, picked, above, before⟩ :=
      pickIndex_eq_scan items nonneg below
    have listed : items[i]? = some items[i] := List.getElem?_eq_getElem inside
    exact ⟨i, items[i], listed, picked, found,
      positive_of_moved add_zero listed (before i le_rfl) above, above,
      fun j bound => before (j + 1) bound⟩
  · intro items i item found
    have length : runningSum 0 items i + max item.2 0 - runningSum 0 items i =
        max item.2 0 := add_sub_cancel_left _ _
    refine ⟨runningSum 0 items i, runningSum 0 items i + max item.2 0,
      Set.ext (draws_of_index found), length, ?_⟩
    rw [length]
    exact share_eq_probabilityOf items (List.mem_of_getElem? found)

/-- Excluded items stand before, between and after the others. -/
theorem pickIndex_inverts_excluded :
    let items : List (String × Int) :=
      [("a", 0), ("b", 3), ("c", -2), ("d", 5), ("e", 0)]
    (∃ i item, items[i]? = some item ∧
      (new items).pickIndex 3 = some i ∧ 0 < item.2) ∧
    (new items).pickIndex 3 = some 3 := by
  intro items
  obtain ⟨i, item, found, picked, _, positive, _, _⟩ :=
    (pickIndex_inverts (T := String) (F := ℚ) Int.add_zero).1 items 3
      (by decide) (by decide)
  exact ⟨⟨i, item, found, picked, positive⟩, by decide⟩

end WeightedCollection

end Exact

end HoprUtilities.Statistics
