import Mathlib.Data.List.Basic
import Mathlib.Logic.Function.Basic

/-!
# Copies that lag behind

A store is a partial map, and a copy of it takes the writes of the store late:
those that it has not taken yet wait in a list.  The copy mirrors the store if
taking all that waits would make them equal.

The store says what it has changed by a list of writes.  The list may name a
key twice, or one that has not changed, and it may come in any order, as long
as it is accurate: whatever it says is what the store holds now, and nothing
that has changed is missing.
-/

namespace HoprUtilities.Lib

variable {κ ν : Type} [DecidableEq κ]

/-- A map after writes, taken in their order. -/
def applied : List (κ × ν) → (κ → Option ν) → κ → Option ν
  | [], map => map
  | write :: rest, map =>
      applied rest (Function.update map write.1 (some write.2))

theorem applied_append (writes more : List (κ × ν)) (map : κ → Option ν) :
    applied (writes ++ more) map = applied more (applied writes map) := by
  induction writes generalizing map with
  | nil => rfl
  | cons write rest induction => exact induction _

theorem applied_of_unnamed {writes : List (κ × ν)} {key : κ}
    (unnamed : ∀ write ∈ writes, write.1 ≠ key) (map : κ → Option ν) :
    applied writes map key = map key := by
  induction writes generalizing map with
  | nil => rfl
  | cons write rest induction =>
      have apart : key ≠ write.1 := fun same =>
        unnamed write List.mem_cons_self same.symm
      rw [applied, induction fun other member =>
        unnamed other (List.mem_cons_of_mem _ member)]
      exact Function.update_of_ne apart _ _

theorem applied_of_named {writes : List (κ × ν)} {key : κ}
    (named : ∃ write ∈ writes, write.1 = key) (map : κ → Option ν) :
    ∃ write ∈ writes, write.1 = key ∧
      applied writes map key = some write.2 := by
  induction writes generalizing map with
  | nil =>
      obtain ⟨write, member, _⟩ := named
      cases member
  | cons write rest induction =>
      by_cases later : ∃ other ∈ rest, other.1 = key
      · obtain ⟨other, member, same, value⟩ := induction later
          (Function.update map write.1 (some write.2))
        exact ⟨other, List.mem_cons_of_mem _ member, same, value⟩
      · obtain ⟨first, member, same⟩ := named
        have isFirst : first = write := by
          rcases List.mem_cons.mp member with here | there
          · exact here
          · exact (later ⟨first, there, same⟩).elim
        subst isFirst
        refine ⟨first, List.mem_cons_self, same, ?_⟩
        rw [applied, applied_of_unnamed fun other member named =>
          later ⟨other, member, named⟩, same, Function.update_self]

/-- What a store says about a change. -/
structure Accurate (before after : κ → Option ν) (writes : List (κ × ν)) :
    Prop where
  current : ∀ write ∈ writes, after write.1 = some write.2
  complete : ∀ key, after key ≠ before key → ∃ write ∈ writes, write.1 = key

theorem Accurate.applied {before after : κ → Option ν}
    {writes : List (κ × ν)} (accurate : Accurate before after writes) :
    applied writes before = after := by
  funext key
  by_cases named : ∃ write ∈ writes, write.1 = key
  · obtain ⟨write, member, same, value⟩ := applied_of_named named before
    rw [value, ← accurate.current write member, same]
  · have unnamed : ∀ write ∈ writes, write.1 ≠ key := fun write member same =>
      named ⟨write, member, same⟩
    rw [applied_of_unnamed unnamed]
    by_contra changed
    exact named (accurate.complete key (Ne.symm changed))

/-- Taking what waits would make the copy equal to the store. -/
def Mirrors (store copy : κ → Option ν) (waiting : List (κ × ν)) : Prop :=
  applied waiting copy = store

namespace Mirrors

variable {store after copy : κ → Option ν} {waiting : List (κ × ν)}

theorem report (mirrors : Mirrors store copy waiting)
    {writes : List (κ × ν)} (accurate : Accurate store after writes) :
    Mirrors after copy (waiting ++ writes) := by
  rw [Mirrors, applied_append, mirrors]
  exact accurate.applied

theorem take {write : κ × ν}
    (mirrors : Mirrors store copy (write :: waiting)) :
    Mirrors store (Function.update copy write.1 (some write.2)) waiting :=
  mirrors

/-- Whatever the copy holds, everything that the store holds makes up for it,
if the copy has no keys of its own. -/
theorem of_snapshot (covered : ∀ key, store key = none → copy key = none)
    {writes : List (κ × ν)}
    (listed : ∀ key value, (key, value) ∈ writes ↔ store key = some value) :
    Mirrors store copy writes := by
  apply Accurate.applied
  constructor
  · intro write member
    exact (listed write.1 write.2).mp member
  · intro key changed
    cases held : store key with
    | none =>
        rw [held, covered key held] at changed
        exact (changed rfl).elim
    | some value => exact ⟨(key, value), (listed key value).mpr held, rfl⟩

end Mirrors

end HoprUtilities.Lib
