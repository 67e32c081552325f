import HoprUtilities.Lib.MapLookup
import Mathlib.Data.List.Perm.Basic
import Mathlib.Logic.Embedding.Basic

/-!
# Translated maps

A map is extended by a list of entries, written one after the other: the last
entry under a key counts.  A map is translated by renaming its keys one to one
and rewriting its values.  The two commute, so that a map that is built from
encoded values is the translation of the map of the values themselves, and a
map is rebuilt from its own values.
-/

namespace HoprUtilities.Lib.IndexMap

variable {κ κ' ν ν' : Type}

def translate (map : IndexMap κ ν) (rename : κ ↪ κ') (rewrite : ν → ν') :
    IndexMap κ' ν' where
  entries := map.entries.map fun entry => (rename entry.1, rewrite entry.2)
  nodup := by
    have renamed : (map.entries.map fun entry =>
        (rename entry.1, rewrite entry.2)).map Prod.fst =
          (map.entries.map Prod.fst).map rename := by
      simp [Function.comp_def]
    rw [renamed]
    exact map.nodup.map rename.injective

@[simp] theorem values_translate (map : IndexMap κ ν) (rename : κ ↪ κ')
    (rewrite : ν → ν') :
    (map.translate rename rewrite).values = map.values.map rewrite := by
  simp [translate, values, Function.comp_def]

@[simp] theorem translate_empty (rename : κ ↪ κ') (rewrite : ν → ν') :
    (empty : IndexMap κ ν).translate rename rewrite = empty := rfl

variable [DecidableEq κ] [DecidableEq κ']

theorem find?_translate (rename : κ ↪ κ') (rewrite : ν → ν') (key : κ)
    (entries : List (κ × ν)) :
    find? (rename key) (entries.map fun entry =>
        (rename entry.1, rewrite entry.2)) =
      (find? key entries).map rewrite := by
  induction entries with
  | nil => rfl
  | cons entry rest induction =>
      by_cases same : entry.1 = key
      · simp [find?, same]
      · simp [find?, same, induction]

theorem get?_translate (map : IndexMap κ ν) (rename : κ ↪ κ')
    (rewrite : ν → ν') (key : κ) :
    (map.translate rename rewrite).get? (rename key) =
      (map.get? key).map rewrite :=
  find?_translate rename rewrite key map.entries

theorem place_translate (rename : κ ↪ κ') (rewrite : ν → ν') (key : κ)
    (value : ν) (entries : List (κ × ν)) :
    (place key value entries).map (fun entry =>
        (rename entry.1, rewrite entry.2)) =
      place (rename key) (rewrite value) (entries.map fun entry =>
        (rename entry.1, rewrite entry.2)) := by
  induction entries with
  | nil => rfl
  | cons entry rest induction =>
      by_cases same : entry.1 = key
      · simp [place, same]
      · simp [place, same, induction]

theorem translate_put (map : IndexMap κ ν) (rename : κ ↪ κ')
    (rewrite : ν → ν') (key : κ) (value : ν) :
    (map.put key value).translate rename rewrite =
      (map.translate rename rewrite).put (rename key) (rewrite value) :=
  ext_entries (place_translate rename rewrite key value map.entries)

def extend (map : IndexMap κ ν) : List (κ × ν) → IndexMap κ ν
  | [] => map
  | entry :: rest => (map.put entry.1 entry.2).extend rest

theorem translate_extend (map : IndexMap κ ν) (rename : κ ↪ κ')
    (rewrite : ν → ν') (entries : List (κ × ν)) :
    (map.extend entries).translate rename rewrite =
      (map.translate rename rewrite).extend (entries.map fun entry =>
        (rename entry.1, rewrite entry.2)) := by
  induction entries generalizing map with
  | nil => rfl
  | cons entry rest induction =>
      rw [extend, induction, translate_put]
      rfl

theorem get?_extend (map : IndexMap κ ν) (entries : List (κ × ν)) (key : κ) :
    (map.extend entries).get? key =
      ((entries.reverse.find? fun entry => entry.1 = key).map Prod.snd).or
        (map.get? key) := by
  induction entries generalizing map with
  | nil => rfl
  | cons entry rest induction =>
      rw [extend, induction, get?_put, List.reverse_cons, List.find?_append,
        Option.map_or, Option.or_assoc]
      by_cases same : key = entry.1
      · simp [same]
      · simp [same, Ne.symm same]

theorem mem_or_of_get?_extend {entries : List (κ × ν)} {key : κ} {value : ν}
    {map : IndexMap κ ν} (here : (map.extend entries).get? key = some value) :
    (key, value) ∈ entries ∨ map.get? key = some value := by
  rw [get?_extend] at here
  cases first : entries.reverse.find? (fun entry => entry.1 = key) with
  | none =>
      rw [first] at here
      exact .inr here
  | some entry =>
      rw [first] at here
      cases here
      have same : entry.1 = key := by
        simpa using List.find?_some first
      rw [← same]
      exact .inl (List.mem_reverse.mp (List.mem_of_find?_eq_some first))

theorem get?_extend_of_alone {entries : List (κ × ν)} {key : κ} {value : ν}
    (member : (key, value) ∈ entries)
    (alone : ∀ other, (key, other) ∈ entries → other = value)
    (map : IndexMap κ ν) : (map.extend entries).get? key = some value := by
  have passes : (entries.reverse.find? fun entry =>
      entry.1 = key).isSome = true := by
    rw [List.find?_isSome]
    exact ⟨(key, value), List.mem_reverse.mpr member, by simp⟩
  obtain ⟨⟨place, content⟩, found⟩ := Option.isSome_iff_exists.mp passes
  have same : place = key := by
    simpa using List.find?_some found
  have listed := List.mem_reverse.mp (List.mem_of_find?_eq_some found)
  rw [same] at listed
  rw [get?_extend, found, Option.map_some, Option.some_or,
    alone content listed]

theorem get?_extend_of_absent {entries : List (κ × ν)} {key : κ}
    (absent : ∀ value, (key, value) ∉ entries) (map : IndexMap κ ν) :
    (map.extend entries).get? key = map.get? key := by
  have unfound : (entries.reverse.find? fun entry =>
      entry.1 = key) = none := by
    rw [List.find?_eq_none]
    rintro ⟨place, content⟩ member same
    rw [decide_eq_true_eq] at same
    cases same
    exact absent content (List.mem_reverse.mp member)
  rw [get?_extend, unfound, Option.map_none, Option.none_or]

def collect (keyOf : ν → κ) (values : List ν) : IndexMap κ ν :=
  empty.extend (values.map fun value => (keyOf value, value))

section Collect

variable {keyOf : ν → κ} {values : List ν} {value : ν} {key : κ}

theorem get?_collect (keyOf : ν → κ) (values : List ν) (key : κ) :
    (collect keyOf values).get? key =
      values.reverse.find? fun value => keyOf value = key := by
  have empty : (IndexMap.empty : IndexMap κ ν).get? key = none := rfl
  rw [collect, get?_extend, empty, Option.or_none, ← List.map_reverse,
    List.find?_map, Option.map_map]
  simp [Function.comp_def]

theorem keyOf_of_get?_collect
    (here : (collect keyOf values).get? key = some value) :
    keyOf value = key := by
  rw [get?_collect] at here
  simpa using List.find?_some here

theorem mem_of_mem_values_collect
    (member : value ∈ (collect keyOf values).values) : value ∈ values := by
  obtain ⟨key, here⟩ := get?_of_mem_values member
  rw [get?_collect] at here
  exact List.mem_reverse.mp (List.mem_of_find?_eq_some here)

theorem extend_encoded (rename : κ ↪ κ') (rewrite : ν → ν')
    (keyOf : ν → κ) (values : List ν) :
    empty.extend (values.map fun value =>
        (rename (keyOf value), rewrite value)) =
      (collect keyOf values).translate rename rewrite := by
  rw [collect, translate_extend, translate_empty, List.map_map]
  rfl

theorem place_of_not_mem {entries : List (κ × ν)}
    (absent : key ∉ entries.map Prod.fst) :
    place key value entries = entries ++ [(key, value)] := by
  induction entries with
  | nil => rfl
  | cons entry rest induction =>
      rw [List.map_cons, List.mem_cons, not_or] at absent
      rw [place, if_neg (Ne.symm absent.1), induction absent.2,
        List.cons_append]

theorem entries_extend (map : IndexMap κ ν) (entries : List (κ × ν))
    (nodup : ((map.entries ++ entries).map Prod.fst).Nodup) :
    (map.extend entries).entries = map.entries ++ entries := by
  induction entries generalizing map with
  | nil => rw [extend, List.append_nil]
  | cons entry rest induction =>
      have absent : entry.1 ∉ map.entries.map Prod.fst := by
        rw [List.map_append, List.nodup_append] at nodup
        intro member
        exact nodup.2.2 _ member _ (by simp) rfl
      have appended : (map.put entry.1 entry.2).entries =
          map.entries ++ [entry] := place_of_not_mem absent
      rw [extend, induction, appended, List.append_assoc]
      · rfl
      · rw [appended, List.append_assoc]
        exact nodup

theorem entries_collect (nodup : (values.map keyOf).Nodup) :
    (collect keyOf values).entries =
      values.map fun value => (keyOf value, value) := by
  rw [collect, entries_extend]
  · rfl
  · simpa [empty, Function.comp_def] using nodup

theorem values_collect (nodup : (values.map keyOf).Nodup) :
    (collect keyOf values).values = values := by
  simp [IndexMap.values, entries_collect nodup, Function.comp_def]

theorem entries_collect_keyed (keyOf : ν → κ) (values : List ν) :
    (collect keyOf values).entries =
      (collect keyOf values).values.map fun value => (keyOf value, value) := by
  rw [IndexMap.values, List.map_map]
  refine (List.map_id _).symm.trans (List.map_congr_left ?_)
  intro entry member
  have here := get?_eq_some.mpr member
  exact Prod.ext (keyOf_of_get?_collect here).symm rfl

theorem nodup_keys_collect (keyOf : ν → κ) (values : List ν) :
    ((collect keyOf values).values.map keyOf).Nodup := by
  have unique := (collect keyOf values).nodup
  rw [entries_collect_keyed, List.map_map] at unique
  exact unique

theorem collect_values (keyOf : ν → κ) (values : List ν) :
    collect keyOf (collect keyOf values).values = collect keyOf values := by
  have again := entries_collect (nodup_keys_collect keyOf values)
  exact ext_entries (again.trans (entries_collect_keyed keyOf values).symm)

theorem get?_collect_of_nodup (nodup : (values.map keyOf).Nodup) (key : κ) :
    (collect keyOf values).get? key =
      values.find? fun value => keyOf value = key := by
  rw [get?, entries_collect nodup]
  clear nodup
  induction values with
  | nil => rfl
  | cons value rest induction =>
      by_cases same : keyOf value = key
      · simp [find?, same]
      · simp [find?, same, induction]

theorem get?_collect_eq_some (nodup : (values.map keyOf).Nodup) :
    (collect keyOf values).get? key = some value ↔
      value ∈ values ∧ keyOf value = key := by
  rw [get?_eq_some, entries_collect nodup, List.mem_map]
  constructor
  · rintro ⟨_, member, same⟩
    cases same
    exact ⟨member, rfl⟩
  · rintro ⟨member, rfl⟩
    exact ⟨value, member, rfl⟩

theorem get?_collect_perm {others : List ν} (permuted : others.Perm values)
    (nodup : (values.map keyOf).Nodup) (key : κ) :
    (collect keyOf others).get? key = (collect keyOf values).get? key := by
  have unique : (others.map keyOf).Nodup :=
    (permuted.map keyOf).nodup_iff.mpr nodup
  apply Option.ext
  intro value
  rw [get?_collect_eq_some nodup, get?_collect_eq_some unique,
    permuted.mem_iff]

end Collect

theorem exists_perm_of_map {list : List ν} {encoded : List ν'}
    {encode : ν → ν'} (permuted : encoded.Perm (list.map encode)) :
    ∃ others : List ν, encoded = others.map encode ∧ others.Perm list := by
  have pairs : List.Forall₂ (fun code value => code = encode value)
      (list.map encode) list := by
    rw [List.forall₂_map_left_iff]
    exact List.forall₂_same.mpr fun _ _ => rfl
  obtain ⟨others, codes, again⟩ := List.perm_comp_forall₂ permuted pairs
  rw [← List.forall₂_map_right_iff, List.forall₂_eq_eq_eq] at codes
  exact ⟨others, codes, again⟩

end HoprUtilities.Lib.IndexMap
