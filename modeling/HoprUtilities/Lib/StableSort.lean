import Mathlib.Data.List.Basic
import Mathlib.Tactic.Common

/-!
# Stable sorts

A merge sort by a total preorder permutes a list without a change to the order
within any class of elements that the preorder does not tell apart.
-/

namespace HoprUtilities.Lib

variable {α : Type} {le : α → α → Bool}

theorem pairwise_iff_lookup {R : α → α → Prop} {list : List α} :
    list.Pairwise R ↔ ∀ (i j : Nat) (a b : α), i < j → list[i]? = some a →
      list[j]? = some b → R a b := by
  rw [List.pairwise_iff_getElem]
  constructor
  · intro holds i j a b before first second
    obtain ⟨left, rfl⟩ := List.getElem?_eq_some_iff.mp first
    obtain ⟨right, rfl⟩ := List.getElem?_eq_some_iff.mp second
    exact holds i j left right before
  · intro holds i j left right before
    exact holds i j _ _ before (List.getElem?_eq_getElem left)
      (List.getElem?_eq_getElem right)

theorem filter_mergeSort (trans : ∀ a b c, le a b → le b c → le a c)
    (total : ∀ a b, le a b || le b a) {p : α → Bool}
    (tied : ∀ a b, p a = true → p b = true → le a b = true)
    (list : List α) : (list.mergeSort le).filter p = list.filter p := by
  have sorted : (list.filter p).Pairwise fun a b => le a b = true :=
    List.pairwise_of_forall_mem_list fun a first b second =>
      tied a b (List.mem_filter.mp first).2 (List.mem_filter.mp second).2
  have kept : (list.filter p).Sublist (list.mergeSort le) :=
    List.sublist_mergeSort trans total sorted List.filter_sublist
  have inside : (list.filter p).Sublist ((list.mergeSort le).filter p) := by
    simpa [List.filter_filter] using kept.filter p
  have same : ((list.mergeSort le).filter p).length =
      (list.filter p).length :=
    ((List.mergeSort_perm list le).filter p).length_eq
  exact (inside.eq_of_length same.symm).symm

/-- A relation that can only fail between elements that compare equal holds of
the sorted list if it held between those of the original one. -/
theorem pairwise_mergeSort_iff (trans : ∀ a b c, le a b → le b c → le a c)
    (total : ∀ a b, le a b || le b a) {p : α → Bool}
    (tied : ∀ a b, p a = true → p b = true → le a b = true)
    {R : α → α → Prop}
    {list : List α}
    (settled : ∀ a ∈ list, ∀ b ∈ list, le a b = true → ¬R a b →
      p a = true ∧ p b = true) :
    (list.mergeSort le).Pairwise R ↔ (list.filter p).Pairwise R := by
  rw [← filter_mergeSort trans total tied list]
  constructor
  · intro holds
    exact holds.sublist List.filter_sublist
  · intro among
    have sorted := List.pairwise_mergeSort trans total list
    rw [List.pairwise_iff_forall_sublist] at sorted among ⊢
    intro a b pair
    by_contra fails
    have first : a ∈ list :=
      List.mem_mergeSort.mp (pair.subset List.mem_cons_self)
    have second : b ∈ list :=
      List.mem_mergeSort.mp (pair.subset (.tail _ List.mem_cons_self))
    obtain ⟨left, right⟩ := settled a first b second (sorted pair) fails
    have filtered := pair.filter p
    rw [List.filter_cons_of_pos left, List.filter_cons_of_pos right,
      List.filter_nil] at filtered
    exact fails (among filtered)

end HoprUtilities.Lib
