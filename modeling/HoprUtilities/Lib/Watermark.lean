import HoprUtilities.Lib.Totals

/-!
# A counter with a high-water mark

Threads raise a counter when they enter and lower it when they leave.  A thread
that raises it learns the new count, its rank, and reports it to a high-water
mark later.  Other threads enter and leave in between, so the ranks of those
that are inside need not be 1, 2, 3 and so on.  But at most `bound` of them have
a rank up to `bound`, and so there are never more reported ones than the mark.
-/

namespace HoprUtilities.Lib

variable {τ : Type} {rank : τ → Option Nat} {threads : List τ}

def inside (rank : τ → Option Nat) (thread : τ) : Nat :=
  match rank thread with
  | some _ => 1
  | none => 0

/-- The thread counts, and its rank is up to the bound. -/
def ranked (rank : τ → Option Nat) (bound : Nat) (thread : τ) : Nat :=
  match rank thread with
  | some number => if number ≤ bound then 1 else 0
  | none => 0

theorem ranked_le_inside (bound : Nat) (thread : τ) :
    ranked rank bound thread ≤ inside rank thread := by
  unfold ranked inside
  split
  · split <;> omega
  · omega

/-- The counter is the number of the threads inside, and the ranks are spread
out. -/
structure Gauged (rank : τ → Option Nat) (threads : List τ) (count : Nat) :
    Prop where
  counted : count = total (inside rank) threads
  spread : ∀ bound, total (ranked rank bound) threads ≤ bound

namespace Gauged

variable {count index : Nat} {old new : τ}

theorem nil : Gauged rank [] 0 where
  counted := rfl
  spread := fun bound => Nat.zero_le bound

theorem concat (gauged : Gauged rank threads count)
    (outside : rank new = none) : Gauged rank (threads ++ [new]) count where
  counted := by simp [gauged.counted, inside, outside]
  spread := by
    intro bound
    simpa [ranked, outside] using gauged.spread bound

theorem keep (gauged : Gauged rank threads count)
    (current : threads[index]? = some old) (same : rank new = rank old) :
    Gauged rank (threads.set index new) count where
  counted := by
    have moved := total_set (inside rank) new current
    have unmoved : inside rank new = inside rank old := by
      rw [inside, inside, same]
    have counted := gauged.counted
    omega
  spread := by
    intro bound
    have moved := total_set (ranked rank bound) new current
    have unmoved : ranked rank bound new = ranked rank bound old := by
      rw [ranked, ranked, same]
    have spread := gauged.spread bound
    omega

theorem enter (gauged : Gauged rank threads count)
    (current : threads[index]? = some old) (outside : rank old = none)
    (entered : rank new = some (count + 1)) :
    Gauged rank (threads.set index new) (count + 1) where
  counted := by
    have moved := total_set (inside rank) new current
    have before : inside rank old = 0 := by simp [inside, outside]
    have after : inside rank new = 1 := by simp [inside, entered]
    have counted := gauged.counted
    omega
  spread := by
    intro bound
    have moved := total_set (ranked rank bound) new current
    have before : ranked rank bound old = 0 := by simp [ranked, outside]
    have spread := gauged.spread bound
    by_cases high : count + 1 ≤ bound
    · -- all threads together are not more than the bound
      have after : ranked rank bound new = 1 := by
        simp [ranked, entered, high]
      have below : total (ranked rank bound) threads ≤
          total (inside rank) threads :=
        total_le_total (ranked_le_inside bound)
      have counted := gauged.counted
      omega
    · have after : ranked rank bound new = 0 := by
        simp [ranked, entered, high]
      omega

theorem positive (gauged : Gauged rank threads count) {number : Nat}
    (current : threads[index]? = some old)
    (present : rank old = some number) : 0 < count := by
  have counts : inside rank old = 1 := by simp [inside, present]
  have below := weight_le_total (inside rank) (List.mem_of_getElem? current)
  have counted := gauged.counted
  omega

theorem leave (gauged : Gauged rank threads count) {number : Nat}
    (current : threads[index]? = some old)
    (present : rank old = some number) (left : rank new = none) :
    Gauged rank (threads.set index new) (count - 1) where
  counted := by
    have moved := total_set (inside rank) new current
    have before : inside rank old = 1 := by simp [inside, present]
    have after : inside rank new = 0 := by simp [inside, left]
    have counted := gauged.counted
    omega
  spread := by
    intro bound
    have moved := total_set (ranked rank bound) new current
    have after : ranked rank bound new = 0 := by simp [ranked, left]
    have spread := gauged.spread bound
    omega

end Gauged

/-- What one thread is to a counter: its rank while it is inside, and whether
the mark knows of it. -/
structure ThreadView (τ : Type) where
  rank : τ → Option Nat
  reported : τ → Bool

/-- What the move of one thread is to a counter and its mark. -/
inductive ThreadMoves (view : ThreadView τ) (old new : τ) :
    (count peak count' peak' : Nat) → Prop where
  | enter {count peak : Nat} : view.rank old = none →
      view.rank new = some (count + 1) → view.reported new = false →
      ThreadMoves view old new count peak (count + 1) peak
  | report {count peak number : Nat} : view.rank old = some number →
      view.rank new = some number →
      ThreadMoves view old new count peak count (max peak number)
  | leave {count peak number : Nat} : view.rank old = some number →
      view.rank new = none → view.reported new = false →
      ThreadMoves view old new count peak (count - 1) peak
  | keep {count peak : Nat} : view.rank new = view.rank old →
      (view.reported new = true → view.reported old = true) →
      ThreadMoves view old new count peak count peak

theorem ThreadMoves.peak_le {view : ThreadView τ} {old new : τ}
    {count peak count' peak' : Nat}
    (moves : ThreadMoves view old new count peak count' peak') :
    peak ≤ peak' := by
  cases moves with
  | enter _ _ _ => exact Nat.le_refl _
  | report _ _ => exact Nat.le_max_left _ _
  | leave _ _ _ => exact Nat.le_refl _
  | keep _ _ => exact Nat.le_refl _

/-- The mark is up to the ranks that have been reported, and every rank and the
mark itself are explained by a number of threads that were once inside. -/
structure Marked (view : ThreadView τ) (past : List Nat) (threads : List τ)
    (count peak : Nat) : Prop where
  gauged : Gauged view.rank threads count
  reported : ∀ thread ∈ threads, view.reported thread = true →
    ∃ number, view.rank thread = some number ∧ number ≤ peak
  ranks : ∀ thread ∈ threads, ∀ number, view.rank thread = some number →
    ∃ once ∈ past, number ≤ once
  peak : ∃ once ∈ past, peak ≤ once

namespace Marked

variable {view : ThreadView τ} {past : List Nat}
  {count peak count' peak' index : Nat} {old new : τ}

theorem remembered {number : Nat} (now : Nat)
    (explained : ∃ once ∈ past, number ≤ once) :
    ∃ once ∈ past ++ [now], number ≤ once := by
  obtain ⟨once, before, bound⟩ := explained
  exact ⟨once, List.mem_append_left _ before, bound⟩

theorem start (view : ThreadView τ) : Marked view [0] [] 0 0 where
  gauged := .nil
  reported := fun _ member => nomatch member
  ranks := fun _ member => nomatch member
  peak := ⟨0, List.mem_singleton_self 0, Nat.le_refl 0⟩

theorem concat (marked : Marked view past threads count peak)
    (outside : view.rank new = none) (unreported : view.reported new = false)
    (now : Nat) : Marked view (past ++ [now]) (threads ++ [new]) count peak where
  gauged := marked.gauged.concat outside
  reported := forall_concat marked.reported (by simp [unreported])
  ranks := by
    apply forall_concat
    · intro thread member number present
      exact remembered now (marked.ranks thread member number present)
    · simp [outside]
  peak := remembered now marked.peak

theorem move (marked : Marked view past threads count peak)
    (current : threads[index]? = some old)
    (moves : ThreadMoves view old new count peak count' peak') :
    Marked view
      (past ++ [total (inside view.rank) (threads.set index new)])
      (threads.set index new) count' peak' := by
  have member := List.mem_of_getElem? current
  have others : ∀ thread ∈ threads, ∀ number,
      view.rank thread = some number →
      ∃ once ∈ past ++ [total (inside view.rank) (threads.set index new)],
        number ≤ once :=
    fun thread member number present =>
      remembered _ (marked.ranks thread member number present)
  cases moves with
  | enter outside entered unreported =>
      have gauged := marked.gauged.enter current outside entered
      refine
        { gauged := gauged
          reported := forall_set marked.reported (by simp [unreported])
          ranks := forall_set others ?_
          peak := remembered _ marked.peak }
      intro number present
      rw [entered] at present
      cases present
      exact ⟨_, List.mem_append_right _ (List.mem_singleton_self _),
        Nat.le_of_eq gauged.counted⟩
  | @report number before after =>
      refine
        { gauged := marked.gauged.keep current (after.trans before.symm)
          reported := forall_set ?_ ?_
          ranks := forall_set others ?_
          peak := ?_ }
      · intro thread member told
        obtain ⟨number, present, bound⟩ := marked.reported thread member told
        exact ⟨number, present, Nat.le_trans bound (Nat.le_max_left _ _)⟩
      · exact fun _ => ⟨number, after, Nat.le_max_right _ _⟩
      · intro other present
        rw [after, ← before] at present
        exact others old member other present
      · rcases Nat.le_total peak number with higher | lower
        · rw [Nat.max_eq_right higher]
          exact others old member number before
        · rw [Nat.max_eq_left lower]
          exact remembered _ marked.peak
  | leave present left unreported =>
      exact
        { gauged := marked.gauged.leave current present left
          reported := forall_set marked.reported (by simp [unreported])
          ranks := forall_set others (by simp [left])
          peak := remembered _ marked.peak }
  | keep same told =>
      refine
        { gauged := marked.gauged.keep current same
          reported := forall_set marked.reported ?_
          ranks := forall_set others ?_
          peak := remembered _ marked.peak }
      · intro now
        rw [same]
        exact marked.reported old member (told now)
      · intro number present
        rw [same] at present
        exact others old member number present

/-- The threads whose rank has been reported are never more than the mark. -/
theorem reported_le (marked : Marked view past threads count peak)
    {live : τ → Nat}
    (known : ∀ thread, live thread ≤ if view.reported thread then 1 else 0) :
    total live threads ≤ peak := by
  refine Nat.le_trans (total_le_of_mem fun thread member => ?_)
    (marked.gauged.spread peak)
  cases told : view.reported thread with
  | false =>
      have none := known thread
      rw [told, if_neg Bool.false_ne_true] at none
      omega
  | true =>
      obtain ⟨number, present, bound⟩ := marked.reported thread member told
      have one := known thread
      rw [told, if_pos rfl] at one
      simpa [ranked, present, bound] using one

end Marked

end HoprUtilities.Lib
