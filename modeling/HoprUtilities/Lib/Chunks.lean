import Mathlib.Data.List.Basic
import Mathlib.Tactic.Common

/-!
# Cutting a list into chunks

Pieces are taken off the front of a list, all of the same size but for the last
one, which may be shorter.  Pieces and rest give the list back, and their number
follows from its length.
-/

namespace HoprUtilities.Lib

variable {α : Type}

/-- What is true of the pieces while `rest` is still to be cut. -/
structure Chunks (size : Nat) (pieces : List (List α)) (rest : List α) :
    Prop where
  bounded : ∀ piece ∈ pieces, 0 < piece.length ∧ piece.length ≤ size
  full : ∀ piece ∈ pieces.dropLast, piece.length = size
  cutting : rest ≠ [] → ∀ piece ∈ pieces, piece.length = size

namespace Chunks

variable {size : Nat} {pieces : List (List α)} {rest : List α}

theorem nil (size : Nat) (rest : List α) : Chunks size [] rest where
  bounded := fun _ member => nomatch member
  full := fun _ member => nomatch member
  cutting := fun _ _ member => nomatch member

theorem take (positive : 0 < size) (chunks : Chunks size pieces rest)
    (nonempty : rest ≠ []) :
    Chunks size (pieces ++ [rest.take size]) (rest.drop size) where
  bounded := by
    intro piece member
    rcases List.mem_append.mp member with before | last
    · exact chunks.bounded piece before
    · have some : 0 < rest.length := List.length_pos_iff.mpr nonempty
      rw [List.mem_singleton.mp last, List.length_take]
      omega
  full := by
    intro piece member
    rw [List.dropLast_concat] at member
    exact chunks.cutting nonempty piece member
  cutting := by
    intro more piece member
    rcases List.mem_append.mp member with before | last
    · exact chunks.cutting nonempty piece before
    · have long : 0 < (rest.drop size).length := List.length_pos_iff.mpr more
      rw [List.length_drop] at long
      rw [List.mem_singleton.mp last, List.length_take]
      omega

theorem length_flatten {pieces : List (List α)}
    (full : ∀ piece ∈ pieces, piece.length = size) :
    pieces.flatten.length = pieces.length * size := by
  induction pieces with
  | nil => simp
  | cons piece pieces induction =>
      have later := induction fun piece member => full piece (.tail _ member)
      rw [List.flatten_cons, List.length_append, later,
        full piece List.mem_cons_self, List.length_cons, Nat.succ_mul,
        Nat.add_comm]

/-- There are as many pieces as the size goes into the length, rounded up. -/
theorem length_eq (positive : 0 < size) (chunks : Chunks size pieces []) :
    pieces.length = (pieces.flatten.length + size - 1) / size := by
  rcases List.eq_nil_or_concat pieces with rfl | ⟨before, last, rfl⟩
  · have small : ([] : List (List α)).flatten.length + size - 1 < size := by
      simp only [List.flatten_nil, List.length_nil]
      omega
    rw [Nat.div_eq_of_lt small, List.length_nil]
  · rw [List.concat_eq_append] at chunks ⊢
    have bounds := chunks.bounded last (by simp)
    have full : ∀ piece ∈ before, piece.length = size := by
      intro piece member
      exact chunks.full piece (by simpa using member)
    have total : (before ++ [last]).flatten.length + size - 1 =
        last.length - 1 + (before.length + 1) * size := by
      rw [List.flatten_append, List.length_append, length_flatten full,
        Nat.add_mul, Nat.one_mul, List.flatten_singleton]
      omega
    have short : (last.length - 1) / size = 0 :=
      Nat.div_eq_of_lt (by omega)
    rw [total, Nat.add_mul_div_right _ _ positive, short, List.length_append,
      List.length_singleton, Nat.zero_add]

end Chunks

end HoprUtilities.Lib
