import Mathlib.Tactic.Common

/-!
# Append-only histories

A log that only grows at its end is judged event by event: `rule` relates
each event to the log as it stood just before it.  Appending an event then
asks for one new instance of the rule and leaves the old ones alone.
-/

namespace HoprUtilities.Lib

variable {ε : Type}

/-- A split of a log that has just grown lies at its new event or before. -/
theorem snoc_split {log before after : List ε} {event current : ε}
    (equality : log ++ [event] = before ++ current :: after) :
    (log = before ∧ event = current ∧ after = []) ∨
      ∃ rest, after = rest ++ [event] ∧ log = before ++ current :: rest := by
  rcases List.eq_nil_or_concat after with rfl | ⟨rest, last, rfl⟩
  · have parts := List.append_inj' equality rfl
    exact .inl ⟨parts.1, by simpa using parts.2, rfl⟩
  · have shifted : log ++ [event] = (before ++ current :: rest) ++ [last] := by
      simpa using equality
    have parts := List.append_inj' shifted rfl
    obtain rfl : event = last := by simpa using parts.2
    exact .inr ⟨rest, by simp, parts.1⟩

/-- Every event of the log obeys `rule` with respect to the events before
it. -/
def Chronicle (rule : List ε → ε → Prop) (log : List ε) : Prop :=
  ∀ before event after, log = before ++ event :: after → rule before event

namespace Chronicle

variable {rule : List ε → ε → Prop} {log : List ε}

theorem nil : Chronicle rule [] := by
  intro before event after equality
  simp at equality

theorem snoc (old : Chronicle rule log) (event : ε) (new : rule log event) :
    Chronicle rule (log ++ [event]) := by
  intro before current after equality
  rcases snoc_split equality with ⟨rfl, rfl, _⟩ | ⟨rest, _, older⟩
  · exact new
  · exact old before current rest older

theorem earlier {before after : List ε} (obeyed : Chronicle rule log)
    (equality : log = before ++ after) : Chronicle rule before := by
  intro first event rest split
  subst split
  exact obeyed first event (rest ++ after) (by simp [equality])

theorem append (old : Chronicle rule log) :
    ∀ {more : List ε}, (∀ event ∈ more, ∀ before, rule before event) →
      Chronicle rule (log ++ more) := by
  intro more
  induction more generalizing log with
  | nil =>
      intro free
      rw [List.append_nil]
      exact old
  | cons event rest induction =>
      intro free
      have next := induction (old.snoc event (free event List.mem_cons_self log))
        (fun other member => free other (List.mem_cons_of_mem _ member))
      rw [List.append_assoc] at next
      exact next

end Chronicle

/-- The first history, as it grew, is an interleaving of the other two: every
new element went to the end of one of them. -/
inductive Interleaving : List ε → List ε → List ε → Prop where
  | nil : Interleaving [] [] []
  | left {whole left right : List ε} (old : Interleaving whole left right)
      (last : ε) : Interleaving (whole ++ [last]) (left ++ [last]) right
  | right {whole left right : List ε} (old : Interleaving whole left right)
      (last : ε) : Interleaving (whole ++ [last]) left (right ++ [last])

end HoprUtilities.Lib
