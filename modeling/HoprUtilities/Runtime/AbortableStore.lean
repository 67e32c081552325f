import HoprUtilities.Lib.Transition
import HoprUtilities.Runtime.AbortableList

/-!
# Runs over many lists

A program creates lists, inserts tasks into them, moves whole lists into one
another, merges and drops them, in any order.  No task is ever lost on the way:
it is held by a list that is alive, or it was aborted.

All lists have keys of the same type, which may be the union of several.
-/

namespace HoprUtilities.Runtime

open HoprUtilities.Lib

/-- A list that is alive.  `history` are the keys of the tasks that were
inserted into it, in the order of insertion. -/
structure Slot (κ τ : Type) where
  list : AbortableList κ τ
  history : List κ

/-- The lists of the program, `none` for those that are gone, and every task
that was ever inserted. -/
structure Store (κ τ : Type) where
  slots : List (Option (Slot κ τ))
  world : World τ
  inserted : List (Task τ)

/-- What the program does next.  Lists are numbered in the order of their
creation. -/
inductive Op (κ τ : Type) where
  | create
  | insert (list : Nat) (process : κ) (id : τ)
  | nest (list : Nat) (process : κ) (inner : Nat)
  | abortOne (list : Nat) (process : κ)
  | extendFrom (list other : Nat)
  | flatMapExtendFrom (list other : Nat) (keyMap : κ → κ)
  | abortAll (list : Nat)
  | drop (list : Nat)
  | finish (id : τ)

/-- The merges, with the map for the keys. -/
def Op.merge? {κ τ : Type} : Op κ τ → Option (Nat × Nat × (κ → κ))
  | .extendFrom index other => some (index, other, id)
  | .flatMapExtendFrom index other keyMap => some (index, other, keyMap)
  | _ => none

namespace Store

variable {κ τ : Type}

def new (world : World τ) : Store κ τ :=
  { slots := [], world := world, inserted := [] }

def slot? (store : Store κ τ) (index : Nat) : Option (Slot κ τ) :=
  store.slots[index]?.join

/-- The outcome of an operation on a list that inserts tasks under the given
keys. -/
def put (store : Store κ τ) (index : Nat) (slot : Slot κ τ)
    (keys : List κ) (result : AbortableList κ τ × World τ) : Store κ τ :=
  { store with
    slots := store.slots.set index
      (some { list := result.1, history := slot.history ++ keys })
    world := result.2 }

def take (store : Store κ τ) (index : Nat) : Store κ τ :=
  { store with slots := store.slots.set index none }

def note (store : Store κ τ) (task : Task τ) : Store κ τ :=
  { store with inserted := store.inserted ++ [task] }

variable [DecidableEq κ] [DecidableEq τ]

def step (store : Store κ τ) : Op κ τ → Option (Store κ τ)
  | .create =>
      some { store with
        slots := store.slots ++ [some { list := .default, history := [] }] }
  | .insert index process id => do
      let slot ← store.slot? index
      return (store.put index slot [process]
        (slot.list.insert process (.handle id) store.world)).note (.handle id)
  | .nest index process inner =>
      if index = inner then none
      else do
        let slot ← store.slot? index
        let moved ← store.slot? inner
        return ((store.take inner).put index slot [process]
          (slot.list.insert process moved.list.toTask store.world)).note
            moved.list.toTask
  | .abortOne index process => do
      let slot ← store.slot? index
      return store.put index slot [] (slot.list.abortOne process store.world).2
  | .extendFrom index other =>
      if index = other then none
      else do
        let slot ← store.slot? index
        let moved ← store.slot? other
        return (store.take other).put index slot moved.list.iterNames
          (slot.list.extendFrom moved.list store.world)
  | .flatMapExtendFrom index other keyMap =>
      if index = other then none
      else do
        let slot ← store.slot? index
        let moved ← store.slot? other
        return (store.take other).put index slot
          (moved.list.iterNames.map keyMap)
          (slot.list.flatMapExtendFrom moved.list keyMap store.world)
  | .abortAll index => do
      let slot ← store.slot? index
      return { store with world := slot.list.abortAll store.world }
  | .drop index => do
      let slot ← store.slot? index
      return { store.take index with world := slot.list.drop store.world }
  | .finish id => some { store with world := store.world.finish id }

/-- The steps, by what they do to the lists. -/
inductive Stepped (store : Store κ τ) : Op κ τ → Store κ τ → Prop where
  | create :
      Stepped store .create { store with
        slots := store.slots ++ [some { list := .default, history := [] }] }
  | insert {index : Nat} {slot : Slot κ τ} (process : κ) (id : τ)
      (found : store.slot? index = some slot) :
      Stepped store (.insert index process id)
        ((store.put index slot [process] (slot.list.insert process (.handle id)
          store.world)).note (.handle id))
  | nest {index inner : Nat} {slot moved : Slot κ τ} (process : κ)
      (apart : index ≠ inner) (found : store.slot? index = some slot)
      (other : store.slot? inner = some moved) :
      Stepped store (.nest index process inner)
        (((store.take inner).put index slot [process]
          (slot.list.insert process moved.list.toTask store.world)).note
            moved.list.toTask)
  | abortOne {index : Nat} {slot : Slot κ τ} (process : κ)
      (found : store.slot? index = some slot) :
      Stepped store (.abortOne index process)
        (store.put index slot [] (slot.list.abortOne process store.world).2)
  | merge {op : Op κ τ} {index other : Nat} {slot moved : Slot κ τ}
      {keyMap : κ → κ} (merges : op.merge? = some (index, other, keyMap))
      (apart : index ≠ other) (found : store.slot? index = some slot)
      (source : store.slot? other = some moved) :
      Stepped store op
        ((store.take other).put index slot (moved.list.iterNames.map keyMap)
          (slot.list.flatMapExtendFrom moved.list keyMap store.world))
  | abortAll {index : Nat} {slot : Slot κ τ}
      (found : store.slot? index = some slot) :
      Stepped store (.abortAll index)
        { store with world := slot.list.abortAll store.world }
  | drop {index : Nat} {slot : Slot κ τ}
      (found : store.slot? index = some slot) :
      Stepped store (.drop index)
        { store.take index with world := slot.list.drop store.world }
  | finish (id : τ) :
      Stepped store (.finish id) { store with world := store.world.finish id }

theorem stepped_of_step {store next : Store κ τ} {op : Op κ τ}
    (taken : store.step op = some next) : Stepped store op next := by
  cases op with
  | create =>
      cases taken
      exact .create
  | insert index process id =>
      obtain ⟨slot, found, equality⟩ := Option.bind_eq_some_iff.mp taken
      cases equality
      exact .insert process id found
  | nest index process inner =>
      rw [step] at taken
      split at taken
      · cases taken
      · next apart =>
          obtain ⟨slot, found, taken⟩ := Option.bind_eq_some_iff.mp taken
          obtain ⟨moved, other, equality⟩ := Option.bind_eq_some_iff.mp taken
          cases equality
          exact .nest process apart found other
  | abortOne index process =>
      obtain ⟨slot, found, equality⟩ := Option.bind_eq_some_iff.mp taken
      cases equality
      exact .abortOne process found
  | extendFrom index other =>
      rw [step] at taken
      split at taken
      · cases taken
      · next apart =>
          obtain ⟨slot, found, taken⟩ := Option.bind_eq_some_iff.mp taken
          obtain ⟨moved, source, equality⟩ := Option.bind_eq_some_iff.mp taken
          cases equality
          have merged := Stepped.merge
            (rfl : (Op.extendFrom index other : Op κ τ).merge? = _)
            apart found source
          rw [List.map_id, ← AbortableList.extendFrom_eq] at merged
          exact merged
  | flatMapExtendFrom index other keyMap =>
      rw [step] at taken
      split at taken
      · cases taken
      · next apart =>
          obtain ⟨slot, found, taken⟩ := Option.bind_eq_some_iff.mp taken
          obtain ⟨moved, source, equality⟩ := Option.bind_eq_some_iff.mp taken
          cases equality
          exact .merge rfl apart found source
  | abortAll index =>
      obtain ⟨slot, found, equality⟩ := Option.bind_eq_some_iff.mp taken
      cases equality
      exact .abortAll found
  | drop index =>
      obtain ⟨slot, found, equality⟩ := Option.bind_eq_some_iff.mp taken
      cases equality
      exact .drop found
  | finish id =>
      cases taken
      exact .finish id

section Slots

variable {store : Store κ τ} {index place : Nat} {slot : Slot κ τ}
  {keys : List κ} {result : AbortableList κ τ × World τ}

omit [DecidableEq κ] [DecidableEq τ]

theorem slot?_put_self (found : store.slot? index = some slot) :
    (store.put index slot keys result).slot? index =
      some { list := result.1, history := slot.history ++ keys } := by
  obtain ⟨inside, _⟩ :=
    List.getElem?_eq_some_iff.mp (Option.join_eq_some_iff.mp found)
  rw [slot?, put, List.getElem?_set_self inside]
  rfl

theorem slot?_put_of_ne (apart : place ≠ index) :
    (store.put index slot keys result).slot? place = store.slot? place := by
  unfold slot? put
  rw [List.getElem?_set_ne (Ne.symm apart)]

theorem slot?_take_self : (store.take index).slot? index = none := by
  unfold slot? take
  by_cases inside : index < store.slots.length
  · rw [List.getElem?_set_self inside]
    rfl
  · rw [List.getElem?_eq_none (by simpa using inside)]
    rfl

theorem slot?_take_of_ne (apart : place ≠ index) :
    (store.take index).slot? place = store.slot? place := by
  unfold slot? take
  rw [List.getElem?_set_ne (Ne.symm apart)]

theorem slot?_put_cases {held : Slot κ τ}
    (live : (store.put index slot keys result).slot? place = some held) :
    held = { list := result.1, history := slot.history ++ keys } ∨
      store.slot? place = some held := by
  by_cases same : place = index
  · subst same
    have here := Option.join_eq_some_iff.mp live
    rw [put, List.getElem?_set_self'] at here
    obtain ⟨_, _, same⟩ := Option.map_eq_some_iff.mp here
    exact .inl (Option.some.inj same).symm
  · exact .inr ((slot?_put_of_ne same).symm.trans live)

theorem slot?_of_take
    (live : (store.take index).slot? place = some slot) :
    store.slot? place = some slot := by
  by_cases same : place = index
  · subst same
    cases slot?_take_self.symm.trans live
  · exact (slot?_take_of_ne same).symm.trans live

theorem slot?_create_cases {new : Slot κ τ}
    (live : slot? { store with slots := store.slots ++ [some new] } place =
      some slot) : slot = new ∨ store.slot? place = some slot := by
  have here := Option.join_eq_some_iff.mp live
  by_cases inside : place < store.slots.length
  · rw [List.getElem?_append_left inside] at here
    exact .inr (Option.join_eq_some_iff.mpr here)
  · rw [List.getElem?_append_right (Nat.le_of_not_lt inside)] at here
    have member := List.mem_of_getElem? here
    exact .inl (Option.some.inj (List.mem_singleton.mp member))

theorem slot?_create {new : Option (Slot κ τ)}
    (live : store.slot? place = some slot) :
    slot? { store with slots := store.slots ++ [new] } place = some slot := by
  have present := Option.join_eq_some_iff.mp live
  obtain ⟨inside, _⟩ := List.getElem?_eq_some_iff.mp present
  unfold slot?
  rw [List.getElem?_append_left inside, present]
  rfl

end Slots

omit [DecidableEq κ] in
/-- The task is in a list that is alive, also inside another task. -/
def Holds (store : Store κ τ) (part : Task τ) : Prop :=
  ∃ index slot, store.slot? index = some slot ∧ part ∈ slot.list.held

/-- The task is held or was aborted. -/
def Safe (store : Store κ τ) (part : Task τ) : Prop :=
  part.wasAborted store.world = true ∨ store.Holds part

namespace Safe

variable {store : Store κ τ} {index other : Nat} {slot moved : Slot κ τ}
  {keys : List κ} {result : AbortableList κ τ × World τ} {part : Task τ}

omit [DecidableEq κ] in
theorem of_result (found : store.slot? index = some slot)
    (safe : AbortableList.Safe part result) :
    (store.put index slot keys result).Safe part := by
  rcases safe with member | done
  · exact .inr ⟨index, _, slot?_put_self found, member⟩
  · exact .inl done

omit [DecidableEq κ] in
theorem put (safe : store.Safe part) (found : store.slot? index = some slot)
    (kept : AbortableList.Safe part (slot.list, store.world) →
      AbortableList.Safe part result) :
    (store.put index slot keys result).Safe part := by
  rcases safe with done | ⟨place, held, live, member⟩
  · exact of_result found (kept (.inr done))
  · by_cases same : place = index
    · subst same
      cases found.symm.trans live
      exact of_result found (kept (.inl member))
    · exact .inr ⟨place, held, (slot?_put_of_ne same).trans live, member⟩

omit [DecidableEq κ] in
theorem take (safe : store.Safe part) (source : store.slot? other = some moved) :
    (store.take other).Safe part ∨ part ∈ moved.list.held := by
  rcases safe with done | ⟨place, held, live, member⟩
  · exact .inl (.inl done)
  · by_cases same : place = other
    · subst same
      cases source.symm.trans live
      exact .inr member
    · exact .inl (.inr
        ⟨place, held, (slot?_take_of_ne same).trans live, member⟩)

omit [DecidableEq κ] in
theorem merge (safe : store.Safe part) (apart : index ≠ other)
    (found : store.slot? index = some slot)
    (source : store.slot? other = some moved)
    (kept : AbortableList.Safe part (slot.list, store.world) →
      AbortableList.Safe part result)
    (moves : part ∈ moved.list.held → AbortableList.Safe part result) :
    ((store.take other).put index slot keys result).Safe part := by
  have stays := (slot?_take_of_ne apart).trans found
  rcases safe.take source with elsewhere | member
  · exact elsewhere.put stays kept
  · exact of_result stays (moves member)

omit [DecidableEq κ] in
theorem aborting (safe : store.Safe part) {world : World τ}
    (grows : ∀ id ∈ store.world.aborted, id ∈ world.aborted) :
    Safe { store with world := world } part := by
  rcases safe with done | held
  · exact .inl (Task.wasAborted_mono grows done)
  · exact .inr held

theorem extend (safe : store.Safe part) (apart : index ≠ other)
    (found : store.slot? index = some slot)
    (source : store.slot? other = some moved) (keyMap : κ → κ) :
    ((store.take other).put index slot keys
      (slot.list.flatMapExtendFrom moved.list keyMap store.world)).Safe
        part := by
  apply safe.merge apart found source (AbortableList.insertAll_safe _)
  intro member
  obtain ⟨whole, present, within⟩ := AbortableList.mem_held.mp member
  obtain ⟨key, entry⟩ := IndexMap.mem_values.mp present
  have moving : (keyMap key, whole) ∈ moved.list.map.entries.map
      fun entry => (keyMap entry.1, entry.2) :=
    List.mem_map.mpr ⟨_, entry, rfl⟩
  exact AbortableList.insertAll_held _ moving within _ _

end Safe

theorem Stepped.safe {store next : Store κ τ} {op : Op κ τ}
    (stepped : Stepped store op next) {part : Task τ}
    (safe : store.Safe part) : next.Safe part := by
  cases stepped with
  | create =>
      rcases safe with done | ⟨place, slot, live, member⟩
      · exact .inl done
      · exact .inr ⟨place, slot, slot?_create live, member⟩
  | insert process id found =>
      exact safe.put found (AbortableList.insert_safe process _)
  | nest process apart found other =>
      apply safe.merge apart found other (AbortableList.insert_safe process _)
      intro member
      exact .inl (AbortableList.insert_held _ process _ _
        (List.mem_cons_of_mem _ member))
  | abortOne process found =>
      exact safe.put found (AbortableList.abortOne_safe process)
  | merge merges apart found source => exact safe.extend apart found source _
  | abortAll found =>
      apply safe.aborting
      intro id old
      rw [AbortableList.abortAll, abortAll_eq]
      exact mem_aborted_abortHandles.mpr (.inl old)
  | drop found =>
      rcases safe.take found with elsewhere | member
      · apply elsewhere.aborting
        intro id old
        rw [AbortableList.drop, dropAll_eq]
        exact mem_aborted_abortHandles.mpr (.inl old)
      · exact .inl (AbortableList.drop_aborts _ _ member)
  | finish id =>
      apply safe.aborting
      intro other old
      exact List.mem_cons_of_mem _ old

theorem Stepped.inserted {store next : Store κ τ} {op : Op κ τ}
    (stepped : Stepped store op next) {part : Task τ}
    (member : part ∈ next.inserted) :
    part ∈ store.inserted ∨ next.Safe part := by
  cases stepped with
  | insert process id found =>
      rcases List.mem_append.mp member with old | new
      · exact .inl old
      · cases List.mem_singleton.mp new
        exact .inr (Safe.of_result found (.inl
          (AbortableList.insert_held _ process _ _ (Task.mem_parts_self _))))
  | nest process apart found other =>
      rcases List.mem_append.mp member with old | new
      · exact .inl old
      · cases List.mem_singleton.mp new
        exact .inr (Safe.of_result ((slot?_take_of_ne apart).trans found) (.inl
          (AbortableList.insert_held _ process _ _ (Task.mem_parts_self _))))
  | create => exact .inl member
  | abortOne process found => exact .inl member
  | merge merges apart found source => exact .inl member
  | abortAll found => exact .inl member
  | drop found => exact .inl member
  | finish id => exact .inl member

theorem safe_of_inserted {world : World τ} {store : Store κ τ}
    (reachable : Reachable step (.new world) store) :
    ∀ task ∈ store.inserted, store.Safe task := by
  apply reachable.invariant
  · intro before op after taken safe task member
    have stepped := stepped_of_step taken
    rcases stepped.inserted member with old | new
    · exact stepped.safe (safe task old)
    · exact new
  · intro task member
    cases member

end Store

/-- In every run, every task that was ever inserted into a list was aborted or
is held by a list that is alive, so that once the last list is dropped, all of
them were aborted.  A merge aborts exactly the tasks that are replaced because
their key comes again. -/
theorem abortableLists_never_leak {κ τ : Type} [DecidableEq κ]
    [DecidableEq τ] (world : World τ) {store : Store κ τ}
    (reachable : Reachable Store.step (.new world) store) :
    (∀ task ∈ store.inserted,
      task.wasAborted store.world = true ∨ store.Holds task) ∧
    ((∀ index, store.slot? index = none) →
      ∀ task ∈ store.inserted, task.wasAborted store.world = true) ∧
    (∀ op index other keyMap next,
      op.merge? = some (index, other, keyMap) → store.step op = some next →
      ∃ slot moved, store.slot? index = some slot ∧
        store.slot? other = some moved ∧
        ∀ id, id ∈ next.world.aborted ↔ id ∈ store.world.aborted ∨
          ∃ task ∈ IndexMap.overwritten (slot.list.map.entries ++
            moved.list.map.entries.map fun entry =>
              (keyMap entry.1, entry.2)),
            id ∈ task.handles) := by
  have safe := Store.safe_of_inserted reachable
  refine ⟨safe, ?_, ?_⟩
  · intro gone task member
    rcases safe task member with done | ⟨index, slot, live, _⟩
    · exact done
    · cases (gone index).symm.trans live
  · intro op index other keyMap next merges taken
    cases Store.stepped_of_step taken with
    | merge same apart found source =>
        cases merges.symm.trans same
        exact ⟨_, _, found, source, fun id =>
          AbortableList.insertAll_aborted _⟩
    | create => cases merges
    | insert process id found => cases merges
    | nest process apart found other => cases merges
    | abortOne process found => cases merges
    | abortAll found => cases merges
    | drop found => cases merges
    | finish id => cases merges

/-- A list moves into another one, the keys of a third one are all mapped to
one key, and what is left is dropped. -/
def mergedAndDropped : List (Op Nat Nat) :=
  [.create, .create, .create, .insert 0 1 10, .insert 1 1 20, .insert 1 2 21,
    .insert 2 7 30, .nest 0 9 2, .flatMapExtendFrom 0 1 (fun _ => 1), .drop 0]

theorem abortableLists_never_leak_mergedAndDropped :
    ∃ store, run Store.step mergedAndDropped (.new ⟨[], []⟩) = some store ∧
      store.inserted.length = 5 ∧ store.world.calls = [10, 20, 30, 21] ∧
      ∀ task ∈ store.inserted, task.wasAborted store.world = true := by
  have reached : (run Store.step mergedAndDropped (.new ⟨[], []⟩)).any
      (fun store => store.slots.all (·.isNone) &&
        store.inserted.length == 5 &&
        store.world.calls == [10, 20, 30, 21]) = true := by
    decide +kernel
  obtain ⟨store, ended, passed⟩ := exists_run _ reached
  simp only [Bool.and_eq_true, beq_iff_eq] at passed
  obtain ⟨⟨gone, count⟩, calls⟩ := passed
  have none : ∀ index, store.slot? index = none := by
    intro index
    unfold Store.slot?
    cases present : store.slots[index]? with
    | none => rfl
    | some entry =>
        have absent := List.all_eq_true.mp gone entry
          (List.mem_of_getElem? present)
        exact Option.isNone_iff_eq_none.mp absent
  have facts := abortableLists_never_leak ⟨[], []⟩ ⟨mergedAndDropped, ended⟩
  exact ⟨store, ended, count, calls, facts.2.1 none⟩

end HoprUtilities.Runtime
