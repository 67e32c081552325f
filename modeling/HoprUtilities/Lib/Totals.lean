import HoprUtilities.Lib.Threads

/-!
# Totals over lists

Sums of natural numbers over a list, beyond what the threads of a system need:
how they behave under maps and filters, how two of them are exchanged, and how
they saturate.
-/

namespace HoprUtilities.Lib

variable {τ υ : Type}

theorem total_congr {weight other : τ → Nat} {list : List τ}
    (same : ∀ entry ∈ list, weight entry = other entry) :
    total weight list = total other list := by
  induction list with
  | nil => rfl
  | cons head tail induction =>
      rw [total_cons, total_cons, same head List.mem_cons_self,
        induction (fun entry member =>
          same entry (List.mem_cons_of_mem _ member))]

theorem total_le_of_mem {weight bound : τ → Nat} {list : List τ}
    (each : ∀ entry ∈ list, weight entry ≤ bound entry) :
    total weight list ≤ total bound list := by
  induction list with
  | nil => exact Nat.le_refl 0
  | cons head tail induction =>
      rw [total_cons, total_cons]
      exact Nat.add_le_add (each head List.mem_cons_self)
        (induction (fun entry member =>
          each entry (List.mem_cons_of_mem _ member)))

theorem total_map (weight : υ → Nat) (function : τ → υ) (list : List τ) :
    total weight (list.map function) =
      total (fun entry => weight (function entry)) list := by
  induction list with
  | nil => rfl
  | cons head tail induction =>
      rw [List.map_cons, total_cons, total_cons, induction]

theorem total_filter (weight : τ → Nat) (kept : τ → Bool) (list : List τ) :
    total weight (list.filter kept) =
      total (fun entry => if kept entry then weight entry else 0) list := by
  induction list with
  | nil => rfl
  | cons head tail induction =>
      cases keeps : kept head <;> simp [keeps, induction]

theorem total_add (left right : τ → Nat) (list : List τ) :
    total (fun entry => left entry + right entry) list =
      total left list + total right list := by
  induction list with
  | nil => rfl
  | cons head tail induction =>
      rw [total_cons, total_cons, total_cons, induction]
      omega

theorem total_comm (weight : τ → υ → Nat) (first : List τ)
    (second : List υ) :
    total (fun left => total (weight left) second) first =
      total (fun right => total (fun left => weight left right) first)
        second := by
  induction first with
  | nil => exact (total_eq_zero (fun _ _ => rfl)).symm
  | cons head tail induction =>
      rw [total_cons, induction, ← total_add]
      rfl

theorem total_eq_single {weight : τ → Nat} {chosen : τ} {list : List τ}
    (distinct : list.Nodup) (member : chosen ∈ list)
    (others : ∀ entry, entry ≠ chosen → weight entry = 0) :
    total weight list = weight chosen := by
  induction list with
  | nil => cases member
  | cons head tail induction =>
      obtain ⟨absent, distinctTail⟩ := List.nodup_cons.mp distinct
      rw [total_cons]
      rcases List.mem_cons.mp member with rfl | later
      · have none : total weight tail = 0 := by
          apply total_eq_zero
          intro entry present
          apply others
          intro same
          subst same
          exact absent present
        omega
      · have apart : head ≠ chosen := by
          intro same
          subst same
          exact absent later
        rw [others head apart, induction distinctTail later, Nat.zero_add]

/-- Entries that are cut off at the bound of the total do not change what the
total is cut off to. -/
theorem min_total_min (weight : τ → Nat) (bound : Nat) (list : List τ) :
    min (total (fun entry => min (weight entry) bound) list) bound =
      min (total weight list) bound := by
  induction list with
  | nil => rfl
  | cons head tail induction =>
      rw [total_cons, total_cons]
      omega

theorem total_perm {weight : τ → Nat} {left right : List τ}
    (permuted : left.Perm right) :
    total weight left = total weight right := by
  induction permuted with
  | nil => rfl
  | cons head _ induction => rw [total_cons, total_cons, induction]
  | swap first second rest =>
      simp only [total_cons]
      omega
  | trans _ _ first second => exact first.trans second

end HoprUtilities.Lib
