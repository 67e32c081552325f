import HoprUtilities.Lib.StableSort
import HoprUtilities.Statistics.Weighted

/-!
# Weighted shuffles

The embedding of `into_shuffled` of `src/statistics/weighted.rs`.  The draws of
the random generator and the power function are arguments.  An item without a
positive weight takes no draw, and its key is the least that the power function
may give to the others as well.
-/

namespace HoprUtilities.Statistics

open HoprUtilities.Lib

variable {T W : Type} [LinearOrder W]

def byKey (left right : T × W) : Bool := decide (right.2 ≤ left.2)

theorem byKey_trans (a b c : T × W) (first : byKey a b = true)
    (second : byKey b c = true) : byKey a c = true := by
  simp only [byKey, decide_eq_true_eq] at *
  exact second.trans first

theorem byKey_total (a b : T × W) : (byKey a b || byKey b a) = true := by
  simp only [byKey, Bool.or_eq_true, decide_eq_true_eq]
  exact le_total b.2 a.2

variable [Zero W] [One W] [Div W]

/-- The keys take the places of the weights, from left to right. -/
def rekey (powf : W → W → W) : List (T × W) → (Nat → W) → List (T × W)
  | [], _ => []
  | (item, weight) :: rest, draws =>
      if 0 < weight then
        (item, powf (draws 0) (1 / weight)) ::
          rekey powf rest fun n => draws (n + 1)
      else (item, 0) :: rekey powf rest draws

namespace WeightedCollection

variable [Add W]

def intoShuffled (self : WeightedCollection T W) (powf : W → W → W)
    (draws : Nat → W) : List T :=
  ((rekey powf self.items draws).mergeSort byKey).map Prod.fst

end WeightedCollection

/-- How many draws the items take. -/
def drawsOf (items : List (T × W)) : Nat :=
  items.countP fun item => decide (0 < item.2)

/-- The key of an item whose draw is given. -/
def keyOf (powf : W → W → W) (weight draw : W) : W :=
  if 0 < weight then powf draw (1 / weight) else 0

theorem rekey_cons (powf : W → W → W) (item : T × W) (rest : List (T × W))
    (draws : Nat → W) :
    rekey powf (item :: rest) draws =
      (item.1, keyOf powf item.2 (draws 0)) ::
        rekey powf rest fun n => draws (drawsOf [item] + n) := by
  by_cases positive : 0 < item.2
  · simp [rekey, keyOf, drawsOf, positive, Nat.add_comm]
  · simp [rekey, keyOf, drawsOf, positive]

theorem getElem?_rekey (powf : W → W → W) (items : List (T × W))
    (draws : Nat → W) (i : Nat) :
    (rekey powf items draws)[i]? = items[i]?.map fun item =>
      (item.1, keyOf powf item.2 (draws (drawsOf (items.take i)))) := by
  induction items generalizing draws i with
  | nil => simp [rekey]
  | cons item rest induction =>
      rw [rekey_cons]
      cases i with
      | zero => rfl
      | succ i =>
          have counted : drawsOf ((item :: rest).take (i + 1)) =
              drawsOf [item] + drawsOf (rest.take i) := by
            rw [List.take_succ_cons, drawsOf, drawsOf, drawsOf,
              ← List.countP_append, List.singleton_append]
          rw [List.getElem?_cons_succ, List.getElem?_cons_succ, induction,
            counted]

theorem rekey_map {S : Type} (name : T → S) (powf : W → W → W)
    (items : List (T × W)) (draws : Nat → W) :
    rekey powf (items.map (Prod.map name id)) draws =
      (rekey powf items draws).map (Prod.map name id) := by
  apply List.ext_getElem?
  intro i
  have counted : drawsOf ((items.map (Prod.map name id)).take i) =
      drawsOf (items.take i) := by
    rw [← List.map_take, drawsOf, List.countP_map]
    rfl
  rw [getElem?_rekey, counted, List.getElem?_map, List.getElem?_map,
    getElem?_rekey, Option.map_map, Option.map_map]
  rfl

/-- Every item with a positive weight precedes every other one. -/
def PositiveFirst (entries : List (T × W)) : Prop :=
  entries.Pairwise fun earlier later => 0 < later.2 → 0 < earlier.2

/-- No item whose power comes out as zero stands behind an excluded one. -/
def NoTieWithExcluded (powf : W → W → W) (items : List (T × W))
    (draws : Nat → W) : Prop :=
  ∀ i j excluded item, i < j → items[i]? = some excluded →
    items[j]? = some item → ¬0 < excluded.2 → 0 < item.2 →
    powf (draws (drawsOf (items.take j))) (1 / item.2) ≠ 0

/-- The weights go along as parts of the items. -/
def withWeights (items : List (T × W)) : List ((T × W) × W) :=
  items.map fun item => (item, item.2)

theorem mem_rekey {powf : W → W → W} {items : List (T × W)}
    {draws : Nat → W} {entry : (T × W) × W}
    (member : entry ∈ rekey powf (withWeights items) draws) :
    ∃ n, entry.2 = keyOf powf entry.1.2 (draws n) := by
  obtain ⟨i, found⟩ := List.mem_iff_getElem?.mp member
  rw [getElem?_rekey, withWeights, List.getElem?_map, Option.map_map,
    Option.map_eq_some_iff] at found
  obtain ⟨item, _, rfl⟩ := found
  exact ⟨_, rfl⟩

theorem getElem?_withWeights (powf : W → W → W) (items : List (T × W))
    (draws : Nat → W) (i : Nat) :
    (rekey powf (withWeights items) draws)[i]? = items[i]?.map fun item =>
      (item, keyOf powf item.2 (draws (drawsOf (items.take i)))) := by
  have counted : drawsOf ((withWeights items).take i) =
      drawsOf (items.take i) := by
    rw [withWeights, ← List.map_take, drawsOf, List.countP_map]
    rfl
  rw [getElem?_rekey, counted, withWeights, List.getElem?_map, Option.map_map]
  rfl

namespace WeightedCollection

variable [Add W]

theorem intoShuffled_perm (items : List (T × W)) (powf : W → W → W)
    (draws : Nat → W) :
    ((new items).intoShuffled powf draws).Perm (items.map Prod.fst) := by
  have same : (rekey powf items draws).map Prod.fst = items.map Prod.fst := by
    apply List.ext_getElem?
    intro i
    rw [List.getElem?_map, List.getElem?_map, getElem?_rekey, Option.map_map]
    rfl
  rw [← same]
  exact (List.mergeSort_perm _ byKey).map Prod.fst

theorem intoShuffled_withWeights (items : List (T × W))
    (powf : W → W → W) (draws : Nat → W) :
    ((new (withWeights items)).intoShuffled powf draws).map Prod.fst =
      (new items).intoShuffled powf draws := by
  have renamed : (withWeights items).map (Prod.map Prod.fst id) = items := by
    rw [withWeights, List.map_map]
    exact List.map_id' items
  have keys := rekey_map Prod.fst powf (withWeights items) draws
  have sorted : ((rekey powf (withWeights items) draws).mergeSort byKey).map
      (Prod.map Prod.fst id) = (rekey powf items draws).mergeSort byKey := by
    rw [← renamed, keys, renamed]
    exact List.map_mergeSort fun a _ b _ => rfl
  have whole : (new items).intoShuffled powf draws =
      ((rekey powf items draws).mergeSort byKey).map Prod.fst := rfl
  rw [whole, ← sorted, intoShuffled, List.map_map, List.map_map]
  rfl

theorem positiveFirst_iff {items : List (T × W)} {powf : W → W → W}
    {draws : Nat → W} (nonneg : ∀ n exponent, 0 ≤ powf (draws n) exponent) :
    PositiveFirst ((new (withWeights items)).intoShuffled powf draws) ↔
      NoTieWithExcluded powf items draws := by
  have tied : ∀ a b : (T × W) × W, decide (a.2 = 0) = true →
      decide (b.2 = 0) = true → byKey a b = true := by
    intro a b first second
    simp only [decide_eq_true_eq] at first second
    simp only [byKey, first, second, le_refl, decide_true]
  have settled : ∀ a ∈ rekey powf (withWeights items) draws,
      ∀ b ∈ rekey powf (withWeights items) draws, byKey a b = true →
      ¬(0 < b.1.2 → 0 < a.1.2) →
      decide (a.2 = 0) = true ∧ decide (b.2 = 0) = true := by
    intro a first b second sorted fails
    obtain ⟨positive, excluded⟩ := Classical.not_imp.mp fails
    obtain ⟨_, left⟩ := mem_rekey first
    obtain ⟨n, right⟩ := mem_rekey second
    rw [keyOf, if_neg excluded] at left
    rw [keyOf, if_pos positive] at right
    simp only [byKey, decide_eq_true_eq] at sorted
    have least : b.2 = 0 :=
      le_antisymm (sorted.trans left.le) (right ▸ nonneg n _)
    simp only [left, least, decide_true, and_self]
  rw [PositiveFirst, intoShuffled, List.pairwise_map]
  rw [show (new (withWeights items)).items = withWeights items from rfl,
    pairwise_mergeSort_iff byKey_trans byKey_total tied settled,
    List.pairwise_filter, pairwise_iff_lookup]
  constructor
  · intro holds i j excluded item before first second none positive zero
    have left : (rekey powf (withWeights items) draws)[i]? =
        some (excluded, 0) := by
      rw [getElem?_withWeights, first, Option.map_some, keyOf, if_neg none]
    have right : (rekey powf (withWeights items) draws)[j]? =
        some (item, 0) := by
      rw [getElem?_withWeights, second, Option.map_some, keyOf,
        if_pos positive, zero]
    exact none (holds i j _ _ before left right (decide_eq_true rfl)
      (decide_eq_true rfl) positive)
  · intro free i j a b before first second _ zero positive
    rw [getElem?_withWeights, Option.map_eq_some_iff] at first second
    obtain ⟨excluded, left, rfl⟩ := first
    obtain ⟨item, right, rfl⟩ := second
    by_contra none
    have rounded : keyOf powf item.2 (draws (drawsOf (items.take j))) = 0 :=
      of_decide_eq_true zero
    rw [keyOf, if_pos positive] at rounded
    exact free i j excluded item before left right none positive rounded

/-- A shuffle keeps every item, and the excluded ones come last unless the key
of an item behind one of them is rounded to zero. -/
theorem shuffled_excluded_last {items : List (T × W)} {powf : W → W → W}
    {draws : Nat → W} (drawn : ∀ n, 0 < draws n ∧ draws n < 1)
    (unit : ∀ u exponent, 0 < u → u < 1 →
      0 ≤ powf u exponent ∧ powf u exponent ≤ 1) :
    ((new items).intoShuffled powf draws).Perm (items.map Prod.fst) ∧
    ((new (withWeights items)).intoShuffled powf draws).Perm items ∧
    ((new (withWeights items)).intoShuffled powf draws).map Prod.fst =
      (new items).intoShuffled powf draws ∧
    (PositiveFirst ((new (withWeights items)).intoShuffled powf draws) ↔
      NoTieWithExcluded powf items draws) := by
  have weights : (withWeights items).map Prod.fst = items := by
    rw [withWeights, List.map_map]
    exact List.map_id' items
  have entries := intoShuffled_perm (withWeights items) powf draws
  rw [weights] at entries
  exact ⟨intoShuffled_perm items powf draws, entries,
    intoShuffled_withWeights items powf draws,
    positiveFirst_iff fun n exponent =>
      (unit (draws n) exponent (drawn n).1 (drawn n).2).1⟩

/-- Behind an excluded item, but with a key of its own. -/
theorem shuffled_excluded_last_healthy :
    let items : List (String × ℚ) := [("excluded", 0), ("healthy", 1)]
    let powf : ℚ → ℚ → ℚ := fun u exponent => if exponent = 1 then u else 0
    PositiveFirst ((new (withWeights items)).intoShuffled powf
      fun _ => 1 / 2) := by
  intro items powf
  have drawn : ∀ n : Nat, (0 : ℚ) < 1 / 2 ∧ (1 / 2 : ℚ) < 1 := by norm_num
  have unit : ∀ u exponent : ℚ, 0 < u → u < 1 →
      0 ≤ powf u exponent ∧ powf u exponent ≤ 1 := by
    intro u exponent positive proper
    by_cases whole : exponent = 1
    · simp [powf, whole, positive.le, proper.le]
    · simp [powf, whole]
  obtain ⟨_, _, _, last⟩ :=
    shuffled_excluded_last drawn unit
  refine last.mpr fun i j excluded item before first second none _ => ?_
  have inside : j < 2 := (List.getElem?_eq_some_iff.mp second).1
  have place : j = 1 := by omega
  subst place
  cases second
  simp [powf]

/-- A tenth of a thousandth is a weight whose power is too small for a float. -/
theorem light_item_behind_excluded :
    let items : List (String × ℚ) := [("excluded", 0), ("light", 1 / 10000)]
    let powf : ℚ → ℚ → ℚ := fun u exponent =>
      if 1074 < exponent then 0 else u
    let draws : Nat → ℚ := fun _ => 1 / 2
    (∀ n, 0 < draws n ∧ draws n < 1) ∧
    (∀ u exponent, 0 < u → u < 1 →
      0 ≤ powf u exponent ∧ powf u exponent ≤ 1) ∧
    (new items).intoShuffled powf draws = ["excluded", "light"] ∧
    ¬PositiveFirst ((new (withWeights items)).intoShuffled powf draws) := by
  intro items powf draws
  have tied : rekey powf items draws = [("excluded", 0), ("light", 0)] := by
    norm_num [rekey, items, powf, draws]
  have entries : rekey powf (withWeights items) draws =
      [(("excluded", 0), 0), (("light", 1 / 10000), 0)] := by
    norm_num [rekey, withWeights, items, powf, draws]
  refine ⟨by norm_num [draws], ?_, ?_, ?_⟩
  · intro u exponent positive proper
    by_cases light : 1074 < exponent
    · simp [powf, light]
    · simp [powf, light, positive.le, proper.le]
  · rw [intoShuffled, show (new items).items = items from rfl, tied,
      List.mergeSort_of_pairwise (by simp [byKey])]
    rfl
  · rw [intoShuffled,
      show (new (withWeights items)).items = withWeights items from rfl,
      entries, List.mergeSort_of_pairwise (by simp [byKey])]
    norm_num [PositiveFirst]

end WeightedCollection

end HoprUtilities.Statistics
