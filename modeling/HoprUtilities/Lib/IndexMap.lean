import Mathlib.Data.List.Dedup
import Mathlib.Data.List.Nodup
import Mathlib.Tactic.Common

/-!
# Maps that keep an order

A map with unique keys whose entries stand in a fixed order.  Inserting a new
key appends it; inserting a key that is present replaces the value and leaves
the entry where it is.  `moveLast` is the other way to insert, which brings the
entry to the end: the two agree exactly on a key that is absent or last.
-/

namespace HoprUtilities.Lib

variable {κ ν : Type}

structure IndexMap (κ ν : Type) where
  entries : List (κ × ν)
  nodup : (entries.map Prod.fst).Nodup

namespace IndexMap

section Entries

variable [DecidableEq κ]

def find? (key : κ) : List (κ × ν) → Option ν
  | [] => none
  | entry :: rest => if entry.1 = key then some entry.2 else find? key rest

/-- Replace the value under the key in its place, or append a new entry. -/
def place (key : κ) (value : ν) : List (κ × ν) → List (κ × ν)
  | [] => [(key, value)]
  | entry :: rest =>
      if entry.1 = key then (key, value) :: rest
      else entry :: place key value rest

def without (key : κ) (entries : List (κ × ν)) : List (κ × ν) :=
  entries.filter fun entry => entry.1 ≠ key

/-- The entry goes to the end, wherever the key was. -/
def moveLast (key : κ) (value : ν) (entries : List (κ × ν)) : List (κ × ν) :=
  without key entries ++ [(key, value)]

theorem find?_eq_some {key : κ} {value : ν} {entries : List (κ × ν)}
    (nodup : (entries.map Prod.fst).Nodup) :
    find? key entries = some value ↔ (key, value) ∈ entries := by
  induction entries with
  | nil => simp [find?]
  | cons entry rest induction =>
      obtain ⟨first, content⟩ := entry
      obtain ⟨absent, nodup⟩ := List.nodup_cons.mp nodup
      by_cases same : first = key
      · subst same
        have unique : (first, value) ∉ rest := by
          intro member
          exact absent (List.mem_map.mpr ⟨_, member, rfl⟩)
        simp [find?, unique, eq_comm]
      · simp [find?, same, induction nodup, Ne.symm same]

theorem mem_place {key other : κ} {value content : ν}
    {entries : List (κ × ν)} (nodup : (entries.map Prod.fst).Nodup) :
    (other, content) ∈ place key value entries ↔
      (other = key ∧ content = value) ∨
        (other ≠ key ∧ (other, content) ∈ entries) := by
  induction entries with
  | nil => simp [place]
  | cons entry rest induction =>
      obtain ⟨first, held⟩ := entry
      obtain ⟨absent, nodup⟩ := List.nodup_cons.mp nodup
      by_cases same : first = key
      · subst same
        have unique : other = first → (other, content) ∉ rest := by
          intro equal member
          exact absent (List.mem_map.mpr ⟨_, member, equal⟩)
        by_cases equal : other = first
        · simp [place, equal, equal ▸ unique equal]
        · simp [place, equal]
      · by_cases equal : other = key
        · subst equal
          simp [place, same, induction nodup, Ne.symm same]
        · simp [place, same, induction nodup, equal]

theorem keys_place (key : κ) (value : ν) (entries : List (κ × ν)) :
    (place key value entries).map Prod.fst =
      if key ∈ entries.map Prod.fst then entries.map Prod.fst
      else entries.map Prod.fst ++ [key] := by
  induction entries with
  | nil => rfl
  | cons entry rest induction =>
      by_cases same : entry.1 = key
      · simp [place, same]
      · rw [place, if_neg same, List.map_cons, List.map_cons, induction]
        by_cases present : key ∈ rest.map Prod.fst
        · rw [if_pos present, if_pos (List.mem_cons_of_mem _ present)]
        · have absent : key ∉ entry.1 :: rest.map Prod.fst := by
            simp only [List.mem_cons, not_or]
            exact ⟨Ne.symm same, present⟩
          rw [if_neg present, if_neg absent, List.cons_append]

theorem nodup_place (key : κ) (value : ν) {entries : List (κ × ν)}
    (nodup : (entries.map Prod.fst).Nodup) :
    ((place key value entries).map Prod.fst).Nodup := by
  rw [keys_place]
  split
  · exact nodup
  · next absent =>
      rw [← List.concat_eq_append]
      exact nodup.concat absent

theorem nodup_without (key : κ) {entries : List (κ × ν)}
    (nodup : (entries.map Prod.fst).Nodup) :
    ((without key entries).map Prod.fst).Nodup :=
  nodup.sublist (List.filter_sublist.map _)

theorem mem_without {key other : κ} {content : ν} {entries : List (κ × ν)} :
    (other, content) ∈ without key entries ↔
      (other, content) ∈ entries ∧ other ≠ key := by
  simp [without]

/-- The values that are replaced when the entries are inserted one after the
other: those whose key comes again. -/
def overwritten : List (κ × ν) → List ν
  | [] => []
  | entry :: rest =>
      if entry.1 ∈ rest.map Prod.fst then entry.2 :: overwritten rest
      else overwritten rest

theorem mem_overwritten_cons {entry : κ × ν} {rest : List (κ × ν)}
    {value : ν} : value ∈ overwritten (entry :: rest) ↔
      (entry.1 ∈ rest.map Prod.fst ∧ value = entry.2) ∨
        value ∈ overwritten rest := by
  by_cases again : entry.1 ∈ rest.map Prod.fst
  · rw [overwritten, if_pos again, List.mem_cons, and_iff_right again]
  · rw [overwritten, if_neg again]
    constructor
    · exact .inr
    · rintro (⟨absurdly, _⟩ | later)
      · exact (again absurdly).elim
      · exact later

theorem mem_overwritten_append {entries added : List (κ × ν)} {value : ν}
    (nodup : (entries.map Prod.fst).Nodup) :
    value ∈ overwritten (entries ++ added) ↔
      (∃ key, (key, value) ∈ entries ∧ key ∈ added.map Prod.fst) ∨
        value ∈ overwritten added := by
  induction entries with
  | nil => simp
  | cons entry rest induction =>
      obtain ⟨absent, nodup⟩ := List.nodup_cons.mp nodup
      have again : entry.1 ∈ (rest ++ added).map Prod.fst ↔
          entry.1 ∈ added.map Prod.fst := by
        rw [List.map_append, List.mem_append]
        exact or_iff_right absent
      rw [List.cons_append, mem_overwritten_cons, again, induction nodup,
        ← or_assoc]
      apply or_congr_left
      constructor
      · rintro (⟨present, rfl⟩ | ⟨key, member, present⟩)
        · exact ⟨entry.1, List.mem_cons_self, present⟩
        · exact ⟨key, List.mem_cons_of_mem _ member, present⟩
      · rintro ⟨key, member, present⟩
        rcases List.mem_cons.mp member with same | later
        · cases same
          exact .inl ⟨present, rfl⟩
        · exact .inr ⟨key, later, present⟩

theorem mem_overwritten_place {entries added : List (κ × ν)} {key : κ}
    {value content : ν} (nodup : (entries.map Prod.fst).Nodup) :
    content ∈ overwritten (entries ++ (key, value) :: added) ↔
      find? key entries = some content ∨
        content ∈ overwritten (place key value entries ++ added) := by
  rw [mem_overwritten_append nodup, mem_overwritten_cons,
    mem_overwritten_append (nodup_place key value nodup), find?_eq_some nodup]
  constructor
  · rintro (⟨other, member, present⟩ | ⟨again, same⟩ | later)
    · by_cases equal : other = key
      · exact .inl (equal ▸ member)
      · have later : other ∈ added.map Prod.fst := by
          simpa [equal] using present
        exact .inr (.inl ⟨other, (mem_place nodup).mpr
          (.inr ⟨equal, member⟩), later⟩)
    · exact .inr (.inl ⟨key, (mem_place nodup).mpr (.inl ⟨rfl, same⟩), again⟩)
    · exact .inr (.inr later)
  · rintro (member | ⟨other, member, present⟩ | later)
    · exact .inl ⟨key, member, List.mem_cons_self⟩
    · rcases (mem_place nodup).mp member with ⟨equal, same⟩ | ⟨apart, old⟩
      · exact .inr (.inl ⟨equal ▸ present, same⟩)
      · exact .inl ⟨other, old, List.mem_cons_of_mem _ present⟩
    · exact .inr (.inr later)

theorem place_eq_moveLast (key : κ) (value : ν) {entries : List (κ × ν)}
    (nodup : (entries.map Prod.fst).Nodup)
    (fits : key ∉ entries.map Prod.fst ∨
      (entries.map Prod.fst).getLast? = some key) :
    place key value entries = moveLast key value entries := by
  induction entries with
  | nil => rfl
  | cons entry rest induction =>
      obtain ⟨absent, nodup⟩ := List.nodup_cons.mp nodup
      by_cases same : entry.1 = key
      · -- the first entry has the key, so it is the only one
        have single : rest = [] := by
          by_contra more
          have last : (rest.map Prod.fst).getLast? = some key := by
            rcases fits with missing | last
            · simp [same] at missing
            · rw [List.map_cons, List.getLast?_cons_of_ne_nil] at last
              · exact last
              · simpa using more
          rw [same] at absent
          exact absent (List.mem_of_getLast? last)
        subst single
        simp [place, moveLast, without, same]
      · have shorter : key ∉ rest.map Prod.fst ∨
            (rest.map Prod.fst).getLast? = some key := by
          rcases fits with missing | last
          · simp only [List.map_cons, List.mem_cons, not_or] at missing
            exact .inl missing.2
          · cases rest with
            | nil => simp [same] at last
            | cons next rest =>
                rw [List.map_cons, List.getLast?_cons_of_ne_nil (by simp)]
                  at last
                exact .inr last
        rw [place, if_neg same, induction nodup shorter]
        simp [moveLast, without, same]

end Entries

def empty : IndexMap κ ν := ⟨[], List.nodup_nil⟩

def keys (map : IndexMap κ ν) : List κ := map.entries.map Prod.fst

def values (map : IndexMap κ ν) : List ν := map.entries.map Prod.snd

theorem mem_values {map : IndexMap κ ν} {value : ν} :
    value ∈ map.values ↔ ∃ key, (key, value) ∈ map.entries := by
  simp [values]

variable [DecidableEq κ]

/-- The old value under the key, and the map with the new one. -/
def insert (map : IndexMap κ ν) (key : κ) (value : ν) :
    Option ν × IndexMap κ ν :=
  (find? key map.entries,
    ⟨place key value map.entries, nodup_place key value map.nodup⟩)

/-- The value under the key, and the map without it. -/
def shiftRemove (map : IndexMap κ ν) (key : κ) : Option ν × IndexMap κ ν :=
  (find? key map.entries,
    ⟨without key map.entries, nodup_without key map.nodup⟩)

theorem insert_mem_values (map : IndexMap κ ν) (key : κ) (value : ν) :
    value ∈ (map.insert key value).2.values :=
  mem_values.mpr ⟨key, (mem_place map.nodup).mpr (.inl ⟨rfl, rfl⟩)⟩

theorem insert_keeps (map : IndexMap κ ν) (key : κ) (value : ν) {held : ν}
    (member : held ∈ map.values) :
    held ∈ (map.insert key value).2.values ∨
      (map.insert key value).1 = some held := by
  obtain ⟨place, present⟩ := mem_values.mp member
  by_cases same : place = key
  · subst same
    exact .inr ((find?_eq_some map.nodup).mpr present)
  · exact .inl (mem_values.mpr
      ⟨place, (mem_place map.nodup).mpr (.inr ⟨same, present⟩)⟩)

theorem shiftRemove_keeps (map : IndexMap κ ν) (key : κ) {held : ν}
    (member : held ∈ map.values) :
    held ∈ (map.shiftRemove key).2.values ∨
      (map.shiftRemove key).1 = some held := by
  obtain ⟨place, present⟩ := mem_values.mp member
  by_cases same : place = key
  · subst same
    exact .inr ((find?_eq_some map.nodup).mpr present)
  · exact .inl (mem_values.mpr ⟨place, mem_without.mpr ⟨present, same⟩⟩)

theorem keys_moveLast (key : κ) (value : ν) (entries : List (κ × ν)) :
    (moveLast key value entries).map Prod.fst =
      (entries.map Prod.fst).filter (· ≠ key) ++ [key] := by
  rw [moveLast, without, List.map_append, List.filter_map]
  rfl

theorem filterMap_find?_keys (map : IndexMap κ ν) :
    map.keys.filterMap (find? · map.entries) = map.values := by
  have each : ∀ entry ∈ map.entries,
      find? entry.1 map.entries = some entry.2 :=
    fun entry member => (find?_eq_some map.nodup).mpr member
  unfold keys values
  rw [List.filterMap_map, ← List.filterMap_eq_map]
  exact List.filterMap_congr each

end IndexMap

section Arranged

variable [DecidableEq κ]

theorem dedup_concat (list : List κ) (last : κ) :
    (list ++ [last]).dedup = (list.filter (· ≠ last)).dedup ++ [last] := by
  induction list with
  | nil => simp
  | cons first rest induction =>
      rw [List.cons_append]
      by_cases same : first = last
      · rw [List.dedup_cons_of_mem (by simp [same]), induction]
        simp [same]
      · by_cases later : first ∈ rest
        · rw [List.dedup_cons_of_mem (by simp [later]), induction]
          rw [List.filter_cons_of_pos (by simpa using same),
            List.dedup_cons_of_mem (by simp [later, same])]
        · rw [List.dedup_cons_of_notMem (by simp [later, same]), induction]
          rw [List.filter_cons_of_pos (by simpa using same),
            List.dedup_cons_of_notMem (by simp [later]), List.cons_append]

theorem dedup_filter (keep : κ → Bool) (list : List κ) :
    (list.filter keep).dedup = list.dedup.filter keep := by
  induction list with
  | nil => rfl
  | cons first rest induction =>
      by_cases kept : keep first = true
      · by_cases later : first ∈ rest
        · rw [List.filter_cons_of_pos kept,
            List.dedup_cons_of_mem (by simp [later, kept]),
            List.dedup_cons_of_mem later, induction]
        · rw [List.filter_cons_of_pos kept,
            List.dedup_cons_of_notMem (by simp [later]),
            List.dedup_cons_of_notMem later, induction,
            List.filter_cons_of_pos kept]
      · rw [List.filter_cons_of_neg kept, induction]
        by_cases later : first ∈ rest
        · rw [List.dedup_cons_of_mem later]
        · rw [List.dedup_cons_of_notMem later, List.filter_cons_of_neg kept]

/-- The keys stand in the order in which each of them was last inserted. -/
def Arranged (keys history : List κ) : Prop :=
  keys = (history.filter (· ∈ keys)).dedup

namespace Arranged

variable {keys history : List κ}

theorem nil : Arranged ([] : List κ) [] := by
  simp [Arranged]

theorem remove (arranged : Arranged keys history) (key : κ) :
    Arranged (keys.filter (· ≠ key)) history := by
  have split : history.filter (· ∈ keys.filter (· ≠ key)) =
      (history.filter (· ∈ keys)).filter (· ≠ key) := by
    rw [List.filter_filter]
    apply List.filter_congr
    intro other _
    simp [and_comm]
  unfold Arranged at arranged ⊢
  rw [split, dedup_filter, ← arranged]

theorem moveLast (arranged : Arranged keys history) (key : κ) :
    Arranged (keys.filter (· ≠ key) ++ [key]) (history ++ [key]) := by
  have removed := arranged.remove key
  have split : (history.filter
      (· ∈ keys.filter (· ≠ key) ++ [key])).filter (· ≠ key) =
        history.filter (· ∈ keys.filter (· ≠ key)) := by
    rw [List.filter_filter]
    apply List.filter_congr
    intro other _
    by_cases same : other = key <;> simp [same]
  unfold Arranged at removed ⊢
  rw [List.filter_append, List.filter_cons_of_pos (by simp), List.filter_nil,
    dedup_concat, split, ← removed]

end Arranged

end Arranged

end HoprUtilities.Lib
