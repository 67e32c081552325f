import HoprUtilities.Lib.Transition
import Mathlib.Algebra.BigOperators.Group.List.Basic
import Mathlib.Algebra.Order.Sub.Basic

/-!
# Journals and accounts

A system keeps an account, and every step posts entries to it.  The journal of
a run is what its steps post, in their order.  If every step changes the
account as its entries say, then so does every run, and the account can be
computed from the journal alone.

Two kinds of accounts are considered: one that adds up what is posted, and an
allowance, which can be set to an amount at any time and is spent in between.
-/

namespace HoprUtilities.Lib

variable {σ ℓ ε α : Type}

/-- The entries that the steps of a run post. -/
def journal (step : σ → ℓ → Option σ) (posts : σ → ℓ → List ε) :
    List ℓ → σ → List ε
  | [], _ => []
  | label :: rest, state =>
      posts state label ++
        ((step state label).map (journal step posts rest)).getD []

theorem journal_cons {step : σ → ℓ → Option σ} {posts : σ → ℓ → List ε}
    {label : ℓ} {rest : List ℓ} {state next : σ}
    (taken : step state label = some next) :
    journal step posts (label :: rest) state =
      posts state label ++ journal step posts rest next := by
  rw [journal, taken, Option.map_some, Option.getD_some]

theorem run_journal {step : σ → ℓ → Option σ} {posts : σ → ℓ → List ε}
    {account : σ → α} {post : α → ε → Option α}
    (books : ∀ state label next, step state label = some next →
      run post (posts state label) (account state) = some (account next)) :
    ∀ {labels : List ℓ} {start final : σ},
      run step labels start = some final →
      run post (journal step posts labels start) (account start) =
        some (account final) := by
  intro labels
  induction labels with
  | nil =>
      intro start final ended
      cases ended
      rfl
  | cons label rest induction =>
      intro start final ended
      obtain ⟨next, taken, ended⟩ := Option.bind_eq_some_iff.mp ended
      rw [journal_cons taken, run_append, books start label next taken]
      exact induction ended

theorem run_adds [AddMonoid α] {step : σ → ℓ → Option σ}
    {posts : σ → ℓ → List ε} {account : σ → α} {measure : List ε → α}
    (empty : measure [] = 0)
    (joins : ∀ left right, measure (left ++ right) =
      measure left + measure right)
    (books : ∀ state label next, step state label = some next →
      account next = account state + measure (posts state label)) :
    ∀ {labels : List ℓ} {start final : σ},
      run step labels start = some final →
      account final =
        account start + measure (journal step posts labels start) := by
  intro labels
  induction labels with
  | nil =>
      intro start final ended
      cases ended
      rw [journal, empty, add_zero]
  | cons label rest induction =>
      intro start final ended
      obtain ⟨next, taken, ended⟩ := Option.bind_eq_some_iff.mp ended
      rw [journal_cons taken, joins, induction ended,
        books start label next taken, add_assoc]

inductive AllowanceEntry (α : Type) where
  | approved (amount : α)
  | spent (amount : α)
  deriving DecidableEq

namespace AllowanceEntry

/-- An approval sets the allowance, known or not; only a known allowance can be
spent. -/
def post [Sub α] [LE α] [DecidableLE α] :
    Option α → AllowanceEntry α → Option (Option α)
  | _, .approved amount => some (some amount)
  | some left, .spent amount =>
      if amount ≤ left then some (some (left - amount)) else none
  | none, .spent _ => none

def spending : AllowanceEntry α → Option α
  | .approved _ => none
  | .spent amount => some amount

def spendings (entries : List (AllowanceEntry α)) : List α :=
  entries.filterMap spending

variable [AddCommMonoid α] [PartialOrder α] [CanonicallyOrderedAdd α] [Sub α]
  [OrderedSub α] [DecidableLE α]

/-- Without an approval, what is left and what has been spent are what was
there. -/
theorem run_spent {entries : List (AllowanceEntry α)} {allowed : α}
    {after : Option α}
    (spends : ∀ entry ∈ entries, ∃ amount, entry = .spent amount)
    (ended : run post entries (some allowed) = some after) :
    ∃ left, after = some left ∧ left + (spendings entries).sum = allowed := by
  induction entries generalizing allowed with
  | nil =>
      cases ended
      exact ⟨allowed, rfl, by simp [spendings]⟩
  | cons entry rest induction =>
      obtain ⟨amount, rfl⟩ := spends entry List.mem_cons_self
      obtain ⟨next, taken, ended⟩ := Option.bind_eq_some_iff.mp ended
      simp only [post] at taken
      split_ifs at taken with enough
      cases taken
      obtain ⟨left, rfl, sum⟩ := induction
        (fun other member => spends other (List.mem_cons_of_mem _ member))
        ended
      refine ⟨left, rfl, ?_⟩
      have head : spendings (.spent amount :: rest) =
          amount :: spendings rest := rfl
      rw [head, List.sum_cons, add_left_comm, sum]
      exact add_tsub_cancel_of_le enough

/-- What is left and what has been spent since an approval are what was
approved. -/
theorem run_since_approval {before since : List (AllowanceEntry α)}
    {start after : Option α} {amount : α}
    (spends : ∀ entry ∈ since, ∃ amount, entry = .spent amount)
    (ended : run post (before ++ .approved amount :: since) start =
      some after) :
    ∃ left, after = some left ∧ left + (spendings since).sum = amount := by
  rw [run_append] at ended
  obtain ⟨middle, _, ended⟩ := Option.bind_eq_some_iff.mp ended
  cases middle with
  | none => exact run_spent spends ended
  | some held => exact run_spent spends ended

end AllowanceEntry

end HoprUtilities.Lib
