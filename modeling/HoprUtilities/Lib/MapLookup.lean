import HoprUtilities.Lib.IndexMap
import HoprUtilities.Lib.Totals

/-!
# Reading and writing a map

The interface of a map as a store: the value under a key, the first value that
passes a test, and the total of a weight over all values.  The lemmas say what
each of the three is after a write.
-/

namespace HoprUtilities.Lib.IndexMap

variable {κ ν : Type}

theorem ext_entries {left right : IndexMap κ ν}
    (same : left.entries = right.entries) : left = right := by
  cases left
  cases right
  cases same
  rfl

/-- The first entry whose value passes the test. -/
def first? (map : IndexMap κ ν) (test : ν → Bool) : Option (κ × ν) :=
  map.entries.find? fun entry => test entry.2

theorem test_of_first? {map : IndexMap κ ν} {test : ν → Bool} {key : κ}
    {value : ν} (found : map.first? test = some (key, value)) :
    test value = true :=
  List.find?_some (p := fun entry : κ × ν => test entry.2) found

def totalOf (map : IndexMap κ ν) (weight : ν → Nat) : Nat :=
  total (fun entry => weight entry.2) map.entries

variable [DecidableEq κ]

def get? (map : IndexMap κ ν) (key : κ) : Option ν :=
  find? key map.entries

/-- Write the value, over the old one if the key is present. -/
def put (map : IndexMap κ ν) (key : κ) (value : ν) : IndexMap κ ν :=
  (map.insert key value).2

section Lookup

variable {map : IndexMap κ ν} {key other : κ} {value old new : ν}

theorem get?_eq_some : map.get? key = some value ↔ (key, value) ∈ map.entries :=
  find?_eq_some map.nodup

theorem mem_keys : key ∈ map.keys ↔ ∃ value, map.get? key = some value := by
  simp [keys, get?_eq_some]

theorem get?_eq_none : map.get? key = none ↔ key ∉ map.keys := by
  rw [mem_keys, not_exists]
  constructor
  · intro absent value present
    rw [absent] at present
    cases present
  · intro absent
    cases here : map.get? key with
    | none => rfl
    | some value => exact (absent value here).elim

theorem mem_values_of_get? (here : map.get? key = some value) :
    value ∈ map.values :=
  mem_values.mpr ⟨key, get?_eq_some.mp here⟩

theorem get?_of_mem_values (member : value ∈ map.values) :
    ∃ key, map.get? key = some value := by
  obtain ⟨key, present⟩ := mem_values.mp member
  exact ⟨key, get?_eq_some.mpr present⟩

@[simp] theorem get?_put_self : (map.put key value).get? key = some value :=
  get?_eq_some.mpr ((mem_place map.nodup).mpr (.inl ⟨rfl, rfl⟩))

theorem get?_put_of_ne (apart : other ≠ key) :
    (map.put key value).get? other = map.get? other := by
  apply Option.ext
  intro content
  rw [get?_eq_some, get?_eq_some]
  exact (mem_place map.nodup).trans (by simp [apart])

theorem get?_put : (map.put key value).get? other =
    if other = key then some value else map.get? other := by
  split
  · next same => rw [same, get?_put_self]
  · next apart => exact get?_put_of_ne apart

theorem place_of_find? {entries : List (κ × ν)}
    (here : find? key entries = some value) :
    place key value entries = entries := by
  induction entries with
  | nil => cases here
  | cons entry rest induction =>
      by_cases same : entry.1 = key
      · rw [find?, if_pos same] at here
        cases here
        rw [place, if_pos same, ← same]
      · rw [find?, if_neg same] at here
        rw [place, if_neg same, induction here]

theorem place_place {entries : List (κ × ν)} :
    place key new (place key old entries) = place key new entries := by
  induction entries with
  | nil => simp [place]
  | cons entry rest induction =>
      by_cases same : entry.1 = key
      · simp [place, same]
      · simp [place, same, induction]

theorem put_put : (map.put key old).put key new = map.put key new :=
  ext_entries place_place

theorem put_of_get? (here : map.get? key = some value) :
    map.put key value = map :=
  ext_entries (place_of_find? here)

theorem get?_of_put_eq (same : map.put key value = map) :
    map.get? key = some value := by
  rw [← same]
  exact get?_put_self

end Lookup

section Search

variable {map : IndexMap κ ν} {key : κ} {value old new : ν} {test : ν → Bool}

theorem get?_of_first? (found : map.first? test = some (key, value)) :
    map.get? key = some value :=
  get?_eq_some.mpr (List.mem_of_find?_eq_some found)

theorem not_test_of_first?_none (missing : map.first? test = none)
    (here : map.get? key = some value) : test value = false := by
  have refused := List.find?_eq_none.mp missing _ (get?_eq_some.mp here)
  simpa using refused

/-- A write that does not change the outcome of the test does not change which
entry is found. -/
theorem first?_put (here : map.get? key = some old)
    (same : test new = test old) :
    (map.put key new).first? test = (map.first? test).map fun entry =>
      if entry.1 = key then (key, new) else entry := by
  obtain ⟨entries, nodup⟩ := map
  change find? key entries = some old at here
  change (place key new entries).find? (fun entry => test entry.2) =
    (entries.find? fun entry => test entry.2).map _
  induction entries with
  | nil => cases here
  | cons entry rest induction =>
      obtain ⟨first, content⟩ := entry
      obtain ⟨absent, nodup⟩ := List.nodup_cons.mp nodup
      by_cases equal : first = key
      · rw [find?, if_pos equal] at here
        cases here
        subst equal
        rw [place, if_pos rfl]
        cases passed : test content with
        | true => simp [same, passed]
        | false =>
            -- the rest has no entry under the key
            rw [List.find?_cons_of_neg (by simp [same, passed]),
              List.find?_cons_of_neg (by simp [passed])]
            cases found : rest.find? fun entry => test entry.2 with
            | none => rfl
            | some entry =>
                have apart : entry.1 ≠ first := by
                  intro equal
                  have member := List.mem_of_find?_eq_some found
                  exact absent (List.mem_map.mpr ⟨entry, member, equal⟩)
                simp [apart]
      · rw [find?, if_neg equal] at here
        rw [place, if_neg equal]
        cases passed : test content with
        | true => simp [equal, passed]
        | false =>
            rw [List.find?_cons_of_neg (by simp [passed]),
              List.find?_cons_of_neg (by simp [passed])]
            exact induction nodup here

/-- If at most one entry passes the test, every order of the entries gives the
same answer. -/
theorem find?_perm {entries : List (κ × ν)}
    (permuted : entries.Perm map.entries)
    (unique : ∀ {key value other content}, map.get? key = some value →
      map.get? other = some content → test value = true →
      test content = true → key = other) :
    entries.find? (fun entry => test entry.2) = map.first? test := by
  cases found : map.first? test with
  | none =>
      rw [List.find?_eq_none]
      intro entry member
      have here := get?_eq_some.mpr (permuted.mem_iff.mp member)
      simp [not_test_of_first?_none found here]
  | some entry =>
      have here := get?_of_first? found
      have passed := test_of_first? found
      cases again : entries.find? fun entry => test entry.2 with
      | none =>
          have member := permuted.mem_iff.mpr (get?_eq_some.mp here)
          have refused := List.find?_eq_none.mp again _ member
          simp [passed] at refused
      | some other =>
          have member := List.mem_of_find?_eq_some again
          have there := get?_eq_some.mpr (permuted.mem_iff.mp member)
          have passes := List.find?_some again
          have same := unique there here passes passed
          rw [same, here, Option.some.injEq] at there
          exact congrArg some (Prod.ext same there.symm)

end Search

section Total

variable {map : IndexMap κ ν} {key : κ} {old new : ν}

theorem totalOf_put (map : IndexMap κ ν) (key : κ) (new : ν)
    (weight : ν → Nat) : (map.put key new).totalOf weight +
      ((map.get? key).map weight).getD 0 =
        map.totalOf weight + weight new := by
  obtain ⟨entries, nodup⟩ := map
  change total (fun entry => weight entry.2) (place key new entries) +
      ((find? key entries).map weight).getD 0 =
    total (fun entry => weight entry.2) entries + weight new
  clear nodup
  induction entries with
  | nil => simp [place, find?]
  | cons entry rest induction =>
      by_cases same : entry.1 = key
      · rw [place, if_pos same, find?, if_pos same, total_cons, total_cons,
          Option.map_some, Option.getD_some]
        dsimp only
        omega
      · rw [place, if_neg same, find?, if_neg same, total_cons, total_cons]
        omega

end Total

end HoprUtilities.Lib.IndexMap
