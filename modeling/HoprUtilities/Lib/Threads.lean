import Mathlib.Tactic.Common

/-!
# A list of threads, one of which moves

The threads of a system are a list, and a step replaces the one that moves.
These lemmas say how the properties of the list follow.
-/

namespace HoprUtilities.Lib

variable {τ : Type} {threads : List τ} {index : Nat} {old new : τ}

theorem forall_set {holds : τ → Prop}
    (all : ∀ thread ∈ threads, holds thread) (moved : holds new) :
    ∀ thread ∈ threads.set index new, holds thread := by
  intro thread member
  rcases List.mem_or_eq_of_mem_set member with stays | rfl
  · exact all thread stays
  · exact moved

theorem forall_concat {holds : τ → Prop}
    (all : ∀ thread ∈ threads, holds thread) (added : holds new) :
    ∀ thread ∈ threads ++ [new], holds thread := by
  intro thread member
  rcases List.mem_append.mp member with stays | single
  · exact all thread stays
  · rw [List.mem_singleton.mp single]
    exact added

theorem mem_set_of_ne {thread : τ} (member : thread ∈ threads)
    (current : threads[index]? = some old) (other : thread ≠ old) :
    thread ∈ threads.set index new := by
  obtain ⟨place, here⟩ := List.getElem?_of_mem member
  have apart : index ≠ place := by
    intro same
    subst same
    rw [current] at here
    cases here
    exact other rfl
  exact List.mem_of_getElem? ((List.getElem?_set_ne apart).trans here)

theorem mem_set_self (current : threads[index]? = some old) :
    new ∈ threads.set index new :=
  List.mem_set (List.getElem?_eq_some_iff.mp current).1 new

/-- A thread of the new list is the one that moved, or stood elsewhere. -/
theorem getElem?_set_cases {place : Nat} {thread : τ}
    (here : (threads.set index new)[place]? = some thread) :
    (place = index ∧ thread = new) ∨
      (place ≠ index ∧ threads[place]? = some thread) := by
  by_cases same : index = place
  · subst same
    rw [List.getElem?_set_self'] at here
    obtain ⟨_, _, same⟩ := Option.map_eq_some_iff.mp here
    exact .inl ⟨rfl, same.symm⟩
  · rw [List.getElem?_set_ne same] at here
    exact .inr ⟨Ne.symm same, here⟩

theorem getElem?_concat_cases {place : Nat} {thread : τ}
    (here : (threads ++ [new])[place]? = some thread) :
    threads[place]? = some thread ∨
      (place = threads.length ∧ thread = new) := by
  by_cases inside : place < threads.length
  · rw [List.getElem?_append_left inside] at here
    exact .inl here
  · have bound := (List.getElem?_eq_some_iff.mp here).1
    have last : place = threads.length := by
      simp only [List.length_append, List.length_singleton] at bound
      omega
    subst last
    exact .inr ⟨rfl, by simpa using here.symm⟩

theorem mem_set_cases {thread : τ}
    (member : thread ∈ threads.set index new) :
    thread = new ∨ ∃ place, place ≠ index ∧ threads[place]? = some thread := by
  obtain ⟨place, here⟩ := List.getElem?_of_mem member
  rcases getElem?_set_cases here with ⟨_, same⟩ | ⟨apart, there⟩
  · exact .inl same
  · exact .inr ⟨place, apart, there⟩

/-- What all threads contribute together. -/
def total (weight : τ → Nat) : List τ → Nat
  | [] => 0
  | head :: tail => weight head + total weight tail

@[simp] theorem total_nil (weight : τ → Nat) : total weight [] = 0 := rfl

@[simp] theorem total_cons (weight : τ → Nat) (head : τ) (tail : List τ) :
    total weight (head :: tail) = weight head + total weight tail := rfl

@[simp] theorem total_append (weight : τ → Nat) (left right : List τ) :
    total weight (left ++ right) = total weight left + total weight right := by
  induction left with
  | nil => simp
  | cons head tail induction =>
      rw [List.cons_append, total_cons, total_cons, induction]
      omega

theorem total_set (weight : τ → Nat) (new : τ) :
    ∀ {threads : List τ} {index : Nat}, threads[index]? = some old →
      total weight (threads.set index new) + weight old =
        total weight threads + weight new := by
  intro threads
  induction threads with
  | nil =>
      intro index current
      simp at current
  | cons head tail induction =>
      intro index current
      cases index with
      | zero =>
          obtain rfl : head = old := by simpa using current
          simp only [List.set_cons_zero, total_cons]
          omega
      | succ index =>
          have rest := @induction index (by simpa using current)
          simp only [List.set_cons_succ, total_cons]
          omega

theorem total_count {β : Type} [BEq β] (parts : τ → List β) (value : β) :
    total (fun thread => (parts thread).count value) threads =
      (threads.flatMap parts).count value := by
  induction threads with
  | nil => rfl
  | cons head tail induction =>
      rw [total_cons, List.flatMap_cons, List.count_append, induction]

/-- What all threads hold together changes by what the moving one holds. -/
theorem count_flatMap_set {β : Type} [BEq β] (parts : τ → List β)
    (value : β) (new : τ) (current : threads[index]? = some old) :
    ((threads.set index new).flatMap parts).count value +
        (parts old).count value =
      (threads.flatMap parts).count value + (parts new).count value := by
  rw [← total_count, ← total_count]
  exact total_set (fun thread => (parts thread).count value) new current

theorem weight_le_total (weight : τ → Nat) {thread : τ} :
    ∀ {threads : List τ}, thread ∈ threads →
      weight thread ≤ total weight threads := by
  intro threads
  induction threads with
  | nil =>
      intro member
      cases member
  | cons head tail induction =>
      intro member
      rw [total_cons]
      rcases List.mem_cons.mp member with rfl | later
      · exact Nat.le_add_right _ _
      · exact Nat.le_trans (induction later) (Nat.le_add_left _ _)

theorem exists_of_total_pos {weight : τ → Nat} :
    ∀ {threads : List τ}, 0 < total weight threads →
      ∃ thread ∈ threads, 0 < weight thread := by
  intro threads
  induction threads with
  | nil =>
      intro positive
      cases positive
  | cons head tail induction =>
      intro positive
      rw [total_cons] at positive
      by_cases first : 0 < weight head
      · exact ⟨head, List.mem_cons_self, first⟩
      · obtain ⟨thread, member, holds⟩ := induction (by omega)
        exact ⟨thread, List.mem_cons_of_mem _ member, holds⟩

theorem total_le_length {weight : τ → Nat} {threads : List τ}
    (single : ∀ thread ∈ threads, weight thread ≤ 1) :
    total weight threads ≤ threads.length := by
  induction threads with
  | nil => exact Nat.le_refl _
  | cons head tail induction =>
      have first := single head List.mem_cons_self
      have rest := induction fun thread member =>
        single thread (List.mem_cons_of_mem _ member)
      rw [total_cons, List.length_cons]
      omega

theorem exists_of_total_lt {weight : τ → Nat} :
    ∀ {threads : List τ}, total weight threads < threads.length →
      ∃ thread ∈ threads, weight thread = 0 := by
  intro threads
  induction threads with
  | nil =>
      intro fewer
      cases fewer
  | cons head tail induction =>
      intro fewer
      rw [total_cons, List.length_cons] at fewer
      by_cases first : weight head = 0
      · exact ⟨head, List.mem_cons_self, first⟩
      · obtain ⟨thread, member, idle⟩ := induction (by omega)
        exact ⟨thread, List.mem_cons_of_mem _ member, idle⟩

theorem index_eq_of_total_le_one {weight : τ → Nat} {first second : τ} :
    ∀ {threads : List τ} {left right : Nat}, total weight threads ≤ 1 →
      threads[left]? = some first → 0 < weight first →
      threads[right]? = some second → 0 < weight second → left = right := by
  intro threads
  induction threads with
  | nil =>
      intro left right _ here
      simp at here
  | cons head tail induction =>
      intro left right bounded here positive there other
      rw [total_cons] at bounded
      -- a thread of the tail and the head would contribute two
      have alone : ∀ {index : Nat} {thread : τ}, tail[index]? = some thread →
          0 < weight thread → weight head = 0 := by
        intro index thread present counts
        have below := weight_le_total weight (List.mem_of_getElem? present)
        omega
      cases left with
      | zero =>
          obtain rfl : head = first := by simpa using here
          cases right with
          | zero => rfl
          | succ right =>
              have zero := alone (by simpa using there) other
              omega
      | succ left =>
          have zero := alone (by simpa using here) positive
          cases right with
          | zero =>
              obtain rfl : head = second := by simpa using there
              omega
          | succ right =>
              have same := induction (by omega) (by simpa using here) positive
                (by simpa using there) other
              rw [same]

theorem total_eq_zero {weight : τ → Nat}
    (idle : ∀ thread ∈ threads, weight thread = 0) :
    total weight threads = 0 := by
  by_contra nonzero
  obtain ⟨thread, member, positive⟩ :=
    exists_of_total_pos (Nat.pos_of_ne_zero nonzero)
  have zero := idle thread member
  omega

theorem total_le_total {weight bound : τ → Nat}
    (each : ∀ thread, weight thread ≤ bound thread) :
    total weight threads ≤ total bound threads := by
  induction threads with
  | nil => exact Nat.le_refl 0
  | cons head tail induction =>
      rw [total_cons, total_cons]
      exact Nat.add_le_add (each head) induction

/-! Some threads may also be changed from outside; `change` says how. -/

theorem forall_of_forall₂ {change : τ → τ → Prop} {holds : τ → Prop}
    {before after : List τ} (changed : List.Forall₂ change before after)
    (kept : ∀ old new, change old new → holds old → holds new)
    (all : ∀ thread ∈ before, holds thread) :
    ∀ thread ∈ after, holds thread := by
  induction changed with
  | nil => exact all
  | @cons old new _ _ first _ induction =>
      intro thread member
      rcases List.mem_cons.mp member with rfl | later
      · exact kept old _ first (all old List.mem_cons_self)
      · exact induction
          (fun thread member => all thread (List.mem_cons_of_mem _ member))
          thread later

theorem getElem?_of_forall₂ {change : τ → τ → Prop} {before after : List τ}
    (changed : List.Forall₂ change before after) :
    ∀ {index : Nat} {old : τ}, before[index]? = some old →
      ∃ new, after[index]? = some new ∧ change old new := by
  induction changed with
  | nil =>
      intro index old current
      simp at current
  | @cons head next _ _ first _ induction =>
      intro index old current
      cases index with
      | zero =>
          obtain rfl : head = old := by simpa using current
          exact ⟨next, by simp, first⟩
      | succ index =>
          obtain ⟨new, here, related⟩ := @induction index old
            (by simpa using current)
          exact ⟨new, by simpa using here, related⟩

theorem total_of_forall₂ {change : τ → τ → Prop} {weight : τ → Nat}
    {before after : List τ} (changed : List.Forall₂ change before after)
    (kept : ∀ old new, change old new → weight new = weight old) :
    total weight after = total weight before := by
  induction changed with
  | nil => rfl
  | cons first _ induction =>
      rw [total_cons, total_cons, kept _ _ first, induction]

end HoprUtilities.Lib
