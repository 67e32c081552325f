import Mathlib.Algebra.BigOperators.Ring.List
import Mathlib.Algebra.Order.Field.Basic
import Mathlib.Tactic.Linarith
import Mathlib.Tactic.Ring

/-!
# Mixtures

A mixture is a list of non-negative weights that sum to one.  Its value at as
many samples is a convex combination of them.  A further sample that is
admitted with a share of its own scales the older weights down to what is left.
-/

namespace HoprUtilities.Lib

variable {F : Type} [Field F]

/-- The samples, each times its weight, added up. -/
def combine (weights samples : List F) : F :=
  (List.zipWith (fun weight sample => weight * sample) weights samples).sum

theorem combine_scale (factor : F) (weights samples : List F) :
    combine (weights.map fun weight => factor * weight) samples =
      factor * combine weights samples := by
  induction weights generalizing samples with
  | nil => simp [combine]
  | cons weight rest induction =>
      cases samples with
      | nil => simp [combine]
      | cons sample samples =>
          have later := induction samples
          simp only [combine] at later
          simp only [combine, List.map_cons, List.zipWith_cons_cons,
            List.sum_cons, later]
          ring

theorem combine_append_singleton {weights samples : List F}
    (lengths : weights.length = samples.length) (weight sample : F) :
    combine (weights ++ [weight]) (samples ++ [sample]) =
      combine weights samples + weight * sample := by
  simp [combine, List.zipWith_append lengths]

theorem combine_map_const {weights samples : List F}
    (lengths : weights.length = samples.length) (value : F) :
    combine weights (samples.map fun _ => value) = weights.sum * value := by
  induction weights generalizing samples with
  | nil => simp [combine]
  | cons weight rest induction =>
      cases samples with
      | nil => simp at lengths
      | cons sample samples =>
          have later := induction (Nat.succ.inj lengths)
          simp only [combine] at later
          simp only [combine, List.map_cons, List.zipWith_cons_cons,
            List.sum_cons, later]
          ring

section Order

variable [LinearOrder F] [IsStrictOrderedRing F]

theorem combine_le_combine {weights samples : List F} {lower upper : F → F}
    (nonneg : ∀ weight ∈ weights, 0 ≤ weight)
    (below : ∀ sample ∈ samples, lower sample ≤ upper sample) :
    combine weights (samples.map lower) ≤
      combine weights (samples.map upper) := by
  induction weights generalizing samples with
  | nil => simp [combine]
  | cons weight rest induction =>
      cases samples with
      | nil => simp [combine]
      | cons sample samples =>
          have later : combine rest (samples.map lower) ≤
              combine rest (samples.map upper) :=
            induction (fun weight member => nonneg weight (.tail _ member))
              (fun sample member => below sample (.tail _ member))
          have first : weight * lower sample ≤ weight * upper sample :=
            mul_le_mul_of_nonneg_left (below sample List.mem_cons_self)
              (nonneg weight List.mem_cons_self)
          exact add_le_add first later

end Order

/-- Non-negative weights that sum to one. -/
structure Mixture (F : Type) [Field F] [LinearOrder F] where
  weights : List F
  nonneg : ∀ weight ∈ weights, 0 ≤ weight
  total : weights.sum = 1

namespace Mixture

variable [LinearOrder F]

theorem combine_constant (self : Mixture F) {samples : List F}
    (lengths : self.weights.length = samples.length) (value : F) :
    combine self.weights (samples.map fun _ => value) = value := by
  rw [combine_map_const lengths, self.total, one_mul]

variable [IsStrictOrderedRing F]

def sole : Mixture F where
  weights := [1]
  nonneg := by simp
  total := by simp

/-- A further sample takes its share, the others keep their proportions. -/
def share (self : Mixture F) (part : F) (nonneg : 0 ≤ part)
    (proper : part ≤ 1) : Mixture F where
  weights := self.weights.map (fun weight => (1 - part) * weight) ++ [part]
  nonneg := by
    intro weight member
    rcases List.mem_append.mp member with older | newest
    · obtain ⟨before, listed, rfl⟩ := List.mem_map.mp older
      exact mul_nonneg (sub_nonneg.mpr proper) (self.nonneg before listed)
    · rw [List.mem_singleton.mp newest]
      exact nonneg
  total := by
    rw [List.sum_append, List.sum_map_mul_left, List.map_id', self.total,
      List.sum_singleton]
    ring

theorem length_share (self : Mixture F) {part : F} (nonneg : 0 ≤ part)
    (proper : part ≤ 1) :
    (self.share part nonneg proper).weights.length =
      self.weights.length + 1 := by
  simp [share]

/-- The value moves towards the new sample by its share of the distance. -/
theorem combine_share {self : Mixture F} {samples : List F}
    (lengths : self.weights.length = samples.length) {part : F}
    (nonneg : 0 ≤ part) (proper : part ≤ 1) (sample : F) :
    combine (self.share part nonneg proper).weights (samples ++ [sample]) =
      combine self.weights samples +
        part * (sample - combine self.weights samples) := by
  have scaled : (self.weights.map fun weight =>
      (1 - part) * weight).length = samples.length := by
    rw [List.length_map, lengths]
  rw [share, combine_append_singleton scaled, combine_scale]
  ring

variable (self : Mixture F) {samples : List F}

theorem le_value {low : F} (lengths : self.weights.length = samples.length)
    (bound : ∀ sample ∈ samples, low ≤ sample) :
    low ≤ combine self.weights samples := by
  have below : combine self.weights (samples.map fun _ => low) ≤
      combine self.weights (samples.map id) :=
    combine_le_combine self.nonneg bound
  rwa [self.combine_constant lengths, List.map_id] at below

theorem value_le {high : F} (lengths : self.weights.length = samples.length)
    (bound : ∀ sample ∈ samples, sample ≤ high) :
    combine self.weights samples ≤ high := by
  have above : combine self.weights (samples.map id) ≤
      combine self.weights (samples.map fun _ => high) :=
    combine_le_combine self.nonneg bound
  rwa [self.combine_constant lengths, List.map_id] at above

end Mixture

end HoprUtilities.Lib
