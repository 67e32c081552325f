import Mathlib.Data.List.DropRight
import Mathlib.Algebra.BigOperators.Group.List.Basic
import Mathlib.Tactic.Abel
import Mathlib.Tactic.Common

/-!
# Sliding windows

A queue of bounded length that gives up its oldest element when it is full
holds the last elements of everything that was ever put into it.  The sum of
its elements follows from the element that enters and the one that leaves.
-/

namespace HoprUtilities.Lib

variable {α : Type}

/-- Put an element into a queue of at most `size` elements. -/
def slide (size : Nat) (window : List α) (sample : α) : List α :=
  if window.length = size then window.tail ++ [sample]
  else window ++ [sample]

theorem slide_full {size : Nat} {window : List α}
    (full : window.length = size) (sample : α) :
    slide size window sample = window.tail ++ [sample] := if_pos full

theorem slide_free {size : Nat} {window : List α}
    (free : window.length ≠ size) (sample : α) :
    slide size window sample = window ++ [sample] := if_neg free

theorem length_rtake (samples : List α) (size : Nat) :
    (samples.rtake size).length = min samples.length size := by
  rw [List.rtake, List.length_drop]
  omega

/-- The last `size` elements slide along as elements are appended. -/
theorem slide_rtake {size : Nat} (positive : 0 < size)
    (samples : List α) (sample : α) :
    slide size (samples.rtake size) sample =
      (samples ++ [sample]).rtake size := by
  have grown : (samples ++ [sample]).length = samples.length + 1 := by simp
  by_cases full : samples.length < size
  · have free : (samples.rtake size).length ≠ size := by
      rw [length_rtake]
      omega
    have whole : samples.rtake size = samples := by
      rw [List.rtake, Nat.sub_eq_zero_of_le (Nat.le_of_lt full),
        List.drop_zero]
    have grownWhole :
        (samples ++ [sample]).rtake size = samples ++ [sample] := by
      rw [List.rtake, grown, Nat.sub_eq_zero_of_le full, List.drop_zero]
    rw [slide_free free, whole, grownWhole]
  · have taken : (samples.rtake size).length = size := by
      rw [length_rtake]
      omega
    have split : samples.length + 1 - size = samples.length - size + 1 := by
      omega
    have inside : samples.length - size + 1 ≤ samples.length := by
      omega
    rw [slide_full taken, List.rtake, List.rtake, grown, split,
      List.drop_append_of_le_length inside, List.tail_drop]

section Sum

variable [AddCommGroup α]

theorem sum_slide_full {size : Nat} {oldest : α} {rest : List α}
    (full : (oldest :: rest).length = size) (sample : α) :
    (slide size (oldest :: rest) sample).sum =
      (oldest :: rest).sum + sample - oldest := by
  rw [slide_full full, List.tail_cons, List.sum_append, List.sum_singleton,
    List.sum_cons]
  abel

theorem sum_slide_free {size : Nat} {window : List α}
    (free : window.length ≠ size) (sample : α) :
    (slide size window sample).sum = window.sum + sample := by
  rw [slide_free free, List.sum_append, List.sum_singleton]

end Sum

end HoprUtilities.Lib
