import Mathlib.Algebra.Order.Monoid.Defs
import Mathlib.Algebra.Order.Monoid.Unbundled.Basic
import Mathlib.Algebra.Group.Nat.Defs
import Mathlib.Algebra.Order.Group.Nat
import Mathlib.Data.List.Chain

/-!
# Times with gaps between them

A list of times, each at least a gap after the one before.  A window that is no
longer than the gap sees one of them at most.
-/

namespace HoprUtilities.Lib

def Spaced {τ : Type} [Add τ] [LE τ] (gap : τ) (times : List τ) : Prop :=
  times.IsChain fun earlier later => earlier + gap ≤ later

namespace Spaced

variable {τ : Type} [AddCommMonoid τ] [LinearOrder τ] [IsOrderedAddMonoid τ]
  {gap : τ} {times : List τ}

theorem pairwise (spaced : Spaced gap times) (forward : 0 ≤ gap) :
    times.Pairwise fun earlier later => earlier + gap ≤ later := by
  have steady : ∀ {first second third : τ}, first + gap ≤ second →
      second + gap ≤ third → first + gap ≤ third := by
    intro first second third near far
    calc
      first + gap ≤ second := near
      _ ≤ second + gap := le_add_of_nonneg_right forward
      _ ≤ third := far
  have : IsTrans τ fun earlier later => earlier + gap ≤ later :=
    ⟨fun _ _ _ => steady⟩
  exact List.isChain_iff_pairwise.mp spaced

theorem window_le_one (spaced : Spaced gap times) (forward : 0 ≤ gap)
    (opening : τ) :
    times.countP (fun time => opening ≤ time ∧ time < opening + gap) ≤ 1 := by
  have pairs := spaced.pairwise forward
  induction times with
  | nil => exact Nat.zero_le 1
  | cons time rest induction =>
      obtain ⟨later, tail⟩ := List.pairwise_cons.mp pairs
      rw [List.countP_cons]
      split_ifs with inside
      · -- the window closes before the next time
        have none : rest.countP
            (fun time => opening ≤ time ∧ time < opening + gap) = 0 := by
          rw [List.countP_eq_zero]
          intro next member within
          simp only [decide_eq_true_eq] at inside within
          have closing : opening + gap ≤ next :=
            (add_le_add_left inside.1 gap).trans (later next member)
          exact absurd within.2 (not_lt.mpr closing)
        rw [none]
      · exact induction spaced.tail tail

theorem nsmul_le {start last : τ} (spaced : Spaced gap (start :: times))
    (ending : (start :: times).getLast? = some last) :
    start + times.length • gap ≤ last := by
  induction times generalizing start with
  | nil =>
      cases ending
      simp
  | cons time rest induction =>
      obtain ⟨near, tail⟩ := List.isChain_cons_cons.mp spaced
      have further := induction tail (by simpa using ending)
      calc
        start + (rest.length + 1) • gap
            = start + gap + rest.length • gap := by
          rw [succ_nsmul', add_assoc]
        _ ≤ time + rest.length • gap := add_le_add_left near _
        _ ≤ last := further

end Spaced

end HoprUtilities.Lib
