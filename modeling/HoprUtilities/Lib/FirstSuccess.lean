import Mathlib.Tactic.Common

/-!
# Attempts after a first success

A loop makes one attempt after the other.  The first attempt that comes to
something settles a value that all later ones have to keep to, and every
attempt may append to an output that depends on this value.  Since an attempt
that comes to nothing does not look at the value, the whole output is that of
the attempts taken one by one with the value that is settled in the end.

Loops of this kind nest: a run of the inner loop is an attempt of the outer
one.
-/

namespace HoprUtilities.Lib

variable {σ ι α β : Type}

/-- A step of such a loop.  `held` is the settled value, `out` the output,
`result` what an attempt comes to by itself and `emit` what it appends when
the given value is settled. -/
structure Adopting (held : σ → Option α) (out : σ → List β)
    (result : ι → Option α) (emit : Option α → ι → List β)
    (step : σ → ι → σ) : Prop where
  held_step : ∀ state item,
    held (step state item) = (held state).or (result item)
  out_step : ∀ state item,
    out (step state item) = out state ++ emit (held (step state item)) item
  unmoved : ∀ item value other,
    result item = none → emit value item = emit other item

namespace Adopting

variable {held : σ → Option α} {out : σ → List β} {result : ι → Option α}
  {emit : Option α → ι → List β} {step : σ → ι → σ}

theorem held_foldl (adopting : Adopting held out result emit step)
    (items : List ι) (state : σ) :
    held (items.foldl step state) =
      (held state).or (items.findSome? result) := by
  induction items generalizing state with
  | nil => simp
  | cons item items induction =>
      rw [List.foldl_cons, induction, adopting.held_step, Option.or_assoc,
        List.findSome?_cons]
      cases result item <;> simp

/-- An attempt appends the same now as if the value were settled that will be
in the end. -/
theorem emit_settled (adopting : Adopting held out result emit step)
    (item : ι) (before later : Option α) :
    emit (before.or (result item)) item =
      emit ((before.or (result item)).or later) item := by
  cases own : result item with
  | none => exact adopting.unmoved item _ _ own
  | some value => cases before <;> simp

theorem out_foldl (adopting : Adopting held out result emit step)
    (items : List ι) (state : σ) :
    out (items.foldl step state) = out state ++
      items.flatMap (emit (held (items.foldl step state))) := by
  induction items generalizing state with
  | nil => simp
  | cons item items induction =>
      have now : emit (held (step state item)) item =
          emit (held (items.foldl step (step state item))) item := by
        rw [adopting.held_foldl, adopting.held_step]
        exact adopting.emit_settled item _ _
      rw [List.foldl_cons, induction, adopting.out_step, now,
        List.flatMap_cons, List.append_assoc]

theorem foldl (adopting : Adopting held out result emit step) :
    Adopting held out (List.findSome? result)
      (fun value => List.flatMap (emit value)) (List.foldl step) := by
  constructor
  · intro state items
    exact adopting.held_foldl items state
  · intro state items
    exact adopting.out_foldl items state
  · intro items value other none
    induction items with
    | nil => rfl
    | cons item items induction =>
        rw [List.findSome?_cons] at none
        cases own : result item with
        | some settled => rw [own] at none; cases none
        | none =>
            rw [own] at none
            rw [List.flatMap_cons, List.flatMap_cons,
              adopting.unmoved item value other own, induction none]

end Adopting

end HoprUtilities.Lib
