import HoprUtilities.Runtime.AbortableStore

/-!
# The order of insertion

A list is documented to append a new task to its end and to abort its tasks in
the reverse order of insertion.  A task that is inserted under a key that is
present takes the place of the old one instead.  In the runs in which this does
not happen, except at the end of the list, the order is the one documented.
-/

namespace HoprUtilities.Runtime

open HoprUtilities.Lib

section Order

variable {κ τ : Type} [DecidableEq κ] [DecidableEq τ]

def AbortableList.task? (self : AbortableList κ τ) (process : κ) :
    Option (Task τ) :=
  IndexMap.find? process self.map.entries

namespace Slot

/-- The keys of the list in the order in which their current tasks were
inserted. -/
def insertionOrder (slot : Slot κ τ) : List κ :=
  (slot.history.filter (· ∈ slot.list.iterNames)).dedup

/-- The handles to abort: from the task inserted last to the first one, without
those that were aborted already. -/
def abortOrder (slot : Slot κ τ) (world : World τ) : List τ :=
  ((allHandles (slot.insertionOrder.filterMap slot.list.task?)).filter
    (· ∉ world.aborted)).dedup.reverse

end Slot

/-- The keys can be inserted one after the other such that each is absent or
last when its turn comes. -/
def fits (keys : List κ) : List κ → Bool
  | [] => true
  | key :: rest =>
      (key ∉ keys || keys.getLast? = some key) && fits (keys ++ [key]) rest

/-- Every key that the step inserts is absent from the list or last in it. -/
def appends (store : Store κ τ) : Op κ τ → Bool
  | .insert index process _ | .nest index process _ =>
      (store.slot? index).all fun slot => fits slot.list.iterNames [process]
  | .extendFrom index other =>
      (store.slot? index).all fun slot => (store.slot? other).all fun moved =>
        fits slot.list.iterNames moved.list.iterNames
  | .flatMapExtendFrom index other keyMap =>
      (store.slot? index).all fun slot => (store.slot? other).all fun moved =>
        fits slot.list.iterNames (moved.list.iterNames.map keyMap)
  | _ => true

theorem fits_congr {left right : List κ} (inserted : List κ)
    (members : ∀ key, key ∈ left ↔ key ∈ right)
    (last : left.getLast? = right.getLast?) :
    fits left inserted = fits right inserted := by
  induction inserted generalizing left right with
  | nil => rfl
  | cons key rest induction =>
      have longer : fits (left ++ [key]) rest = fits (right ++ [key]) rest := by
        apply induction
        · intro other
          simp [members other]
        · simp
      simp only [fits, members key, last, longer]

namespace AbortableList

theorem insert_keys {self : AbortableList κ τ} {process : κ}
    (fit : process ∉ self.iterNames ∨ self.iterNames.getLast? = some process)
    (task : Task τ) (world : World τ) :
    (self.insert process task world).1.iterNames =
      self.iterNames.filter (· ≠ process) ++ [process] := by
  change (IndexMap.place process task self.map.entries).map Prod.fst = _
  rw [IndexMap.place_eq_moveLast process task self.map.nodup fit,
    IndexMap.keys_moveLast]
  rfl

theorem insertAll_arranged (entries : List (κ × Task τ)) :
    ∀ {self : AbortableList κ τ} {history : List κ} (world : World τ),
      Arranged self.iterNames history →
      fits self.iterNames (entries.map Prod.fst) = true →
      Arranged (self.insertAll entries world).1.iterNames
        (history ++ entries.map Prod.fst) := by
  induction entries with
  | nil =>
      intro self history world arranged _
      rw [List.map_nil, List.append_nil]
      exact arranged
  | cons entry rest induction =>
      intro self history world arranged fit
      rw [List.map_cons, fits, Bool.and_eq_true, Bool.or_eq_true,
        decide_eq_true_eq, decide_eq_true_eq] at fit
      obtain ⟨first, others⟩ := fit
      have keys := insert_keys first entry.2 world
      have inserted : Arranged (self.insert entry.1 entry.2 world).1.iterNames
          (history ++ [entry.1]) := by
        rw [keys]
        exact arranged.moveLast entry.1
      have fit : fits (self.insert entry.1 entry.2 world).1.iterNames
          (rest.map Prod.fst) = true := by
        rw [← others, keys]
        apply fits_congr
        · intro other
          by_cases same : other = entry.1 <;> simp [same]
        · simp
      have done := induction (self.insert entry.1 entry.2 world).2 inserted fit
      rw [List.append_assoc] at done
      exact done

omit [DecidableEq τ] in
theorem arranged_default :
    Arranged (default : AbortableList κ τ).iterNames [] :=
  Arranged.nil

theorem abortOne_keys (self : AbortableList κ τ) (process : κ)
    (world : World τ) :
    (self.abortOne process world).2.1.iterNames =
      self.iterNames.filter (· ≠ process) := by
  change (self.abortOne process world).2.1.map.entries.map Prod.fst = _
  rw [abortOne_map]
  change (IndexMap.without process self.map.entries).map Prod.fst = _
  rw [IndexMap.without, iterNames, IndexMap.keys, List.filter_map]
  rfl

end AbortableList

/-- The keys of every list stand in the order of insertion. -/
def Ordered (store : Store κ τ) : Prop :=
  ∀ index slot, store.slot? index = some slot →
    Arranged slot.list.iterNames slot.history

namespace Ordered

variable {store : Store κ τ} {index : Nat} {slot : Slot κ τ} {keys : List κ}

omit [DecidableEq τ] in
theorem put (ordered : Ordered store)
    {result : AbortableList κ τ × World τ}
    (arranged : Arranged result.1.iterNames (slot.history ++ keys)) :
    Ordered (store.put index slot keys result) := by
  intro place held live
  rcases Store.slot?_put_cases live with rfl | old
  · exact arranged
  · exact ordered place held old

omit [DecidableEq τ] in
theorem take (ordered : Ordered store) : Ordered (store.take index) := by
  intro place held live
  exact ordered place held (Store.slot?_of_take live)

theorem insert (ordered : Ordered store)
    (found : store.slot? index = some slot) {process : κ}
    (fit : fits slot.list.iterNames [process] = true) (task : Task τ)
    (world : World τ) :
    Arranged (slot.list.insert process task world).1.iterNames
      (slot.history ++ [process]) :=
  AbortableList.insertAll_arranged [(process, task)] world
    (ordered index slot found) fit

end Ordered

omit [DecidableEq τ] in
theorem fits_of_merge {store : Store κ τ} {op : Op κ τ} {index other : Nat}
    {slot moved : Slot κ τ} {keyMap : κ → κ}
    (merges : op.merge? = some (index, other, keyMap))
    (allowed : appends store op = true)
    (found : store.slot? index = some slot)
    (source : store.slot? other = some moved) :
    fits slot.list.iterNames (moved.list.iterNames.map keyMap) = true := by
  cases op with
  | extendFrom list from_ =>
      cases merges
      rw [List.map_id]
      simpa [appends, found, source] using allowed
  | flatMapExtendFrom list from_ map =>
      cases merges
      simpa [appends, found, source] using allowed
  | _ => cases merges

theorem ordered_of_stepped {store next : Store κ τ} {op : Op κ τ}
    (allowed : appends store op = true) (stepped : store.Stepped op next)
    (ordered : Ordered store) : Ordered next := by
  cases stepped with
  | create =>
      intro place held live
      rcases Store.slot?_create_cases live with rfl | old
      · exact AbortableList.arranged_default
      · exact ordered place held old
  | insert process id found =>
      apply ordered.put
      apply ordered.insert found
      simpa [appends, found] using allowed
  | nest process apart found other =>
      apply ordered.take.put
      apply ordered.insert found
      simpa [appends, found] using allowed
  | abortOne process found =>
      apply ordered.put
      rw [AbortableList.abortOne_keys, List.append_nil]
      exact (ordered _ _ found).remove process
  | merge merges apart found source =>
      apply ordered.take.put
      have fit := fits_of_merge merges allowed found source
      have names : ∀ (entries : List (κ × Task τ)) (keyMap : κ → κ),
          (entries.map fun entry => (keyMap entry.1, entry.2)).map Prod.fst =
            (entries.map Prod.fst).map keyMap := by
        simp
      have merged := AbortableList.insertAll_arranged _ store.world
        (ordered _ _ found) (by rw [names]; exact fit)
      rw [names] at merged
      exact merged
  | abortAll found => exact ordered
  | drop found => exact ordered.take
  | finish id => exact ordered

theorem last_of_insert {store next : Store κ τ} {index : Nat} {process : κ}
    {id : τ} (taken : restrict appends Store.step store
      (.insert index process id) = some next) :
    ∃ slot, next.slot? index = some slot ∧
      slot.list.iterNames.getLast? = some process := by
  obtain ⟨allowed, taken⟩ := step_of_restrict taken
  cases Store.stepped_of_step taken with
  | insert process id found =>
      have fit := allowed
      simp only [appends, found, Option.all_some, fits, Bool.and_true,
        Bool.or_eq_true, decide_eq_true_eq] at fit
      refine ⟨_, Store.slot?_put_self found, ?_⟩
      rw [AbortableList.insert_keys fit]
      simp
  | merge merges apart found source => cases merges

/-- In every run in which each inserted key is absent from the list or last in
it, every list names its keys in the order in which their current tasks were
inserted, the new one last, and aborting or dropping it aborts the tasks that
were not yet aborted in exactly the reverse order. -/
theorem insertion_order_kept (world : World τ) {store : Store κ τ}
    (reachable : Reachable (restrict appends Store.step) (.new world) store)
    {index : Nat} {slot : Slot κ τ} (live : store.slot? index = some slot) :
    slot.list.iterNames = slot.insertionOrder ∧
    (slot.list.abortAll store.world).calls =
      store.world.calls ++ slot.abortOrder store.world ∧
    (slot.list.drop store.world).calls =
      store.world.calls ++ slot.abortOrder store.world ∧
    ∀ process id next, restrict appends Store.step store
        (.insert index process id) = some next →
      ∃ after, next.slot? index = some after ∧
        after.list.iterNames.getLast? = some process := by
  have ordered : Ordered store := by
    apply reachable.invariant
    · intro before op after taken ordered
      obtain ⟨allowed, taken⟩ := step_of_restrict taken
      exact ordered_of_stepped allowed (Store.stepped_of_step taken) ordered
    · intro place held live
      cases live
  have arranged : slot.list.iterNames = slot.insertionOrder :=
    ordered index slot live
  have tasks : slot.insertionOrder.filterMap slot.list.task? =
      slot.list.map.values := by
    rw [← arranged]
    exact slot.list.map.filterMap_find?_keys
  refine ⟨arranged, ?_, ?_, ?_⟩
  · rw [AbortableList.abortAll, abortAll_eq, calls_abortHandles,
      Slot.abortOrder, tasks]
  · rw [AbortableList.drop, dropAll_eq, calls_abortHandles, Slot.abortOrder,
      tasks]
  · intro process id next taken
    exact last_of_insert taken

end Order

/-- A key is replaced while it is last, and another one is removed and inserted
again. -/
def replacedLast : List (Op Nat Nat) :=
  [.create, .create, .insert 0 1 10, .insert 0 2 20, .insert 0 2 21,
    .insert 1 5 30, .abortOne 0 1, .insert 0 1 11, .extendFrom 0 1]

theorem insertion_order_kept_replacedLast :
    ∃ store slot, run (restrict appends Store.step) replacedLast
        (.new ⟨[], []⟩) = some store ∧ store.slot? 0 = some slot ∧
      slot.list.iterNames = [2, 1, 5] ∧
      (slot.list.abortAll store.world).calls =
        store.world.calls ++ [30, 11, 21] := by
  have reached : (run (restrict appends Store.step) replacedLast
      (.new ⟨[], []⟩)).any (fun store => (store.slot? 0).any fun slot =>
        slot.insertionOrder == [2, 1, 5] &&
          slot.abortOrder store.world == [30, 11, 21]) = true := by
    decide +kernel
  obtain ⟨store, ended, passed⟩ := exists_run _ reached
  obtain ⟨slot, live, passed⟩ := (Option.any_eq_true ..).mp passed
  simp only [Bool.and_eq_true, beq_iff_eq] at passed
  obtain ⟨order, aborts⟩ := passed
  obtain ⟨names, calls, _⟩ :=
    insertion_order_kept ⟨[], []⟩ ⟨replacedLast, ended⟩ live
  exact ⟨store, slot, ended, live, names.trans order, aborts ▸ calls⟩

/-- A key is replaced while another one is last. -/
def replacedFirst : List (Op Nat Nat) :=
  [.create, .insert 0 1 10, .insert 0 2 20, .insert 0 1 11]

/-- The new task under the first key is inserted last.  It is listed first and
aborted last. -/
theorem insertion_order_broken :
    ∃ store slot, run Store.step replacedFirst (.new ⟨[], []⟩) = some store ∧
      store.slot? 0 = some slot ∧
      slot.list.iterNames = [1, 2] ∧ slot.insertionOrder = [2, 1] ∧
      (slot.list.abortAll store.world).calls =
        store.world.calls ++ [20, 11] ∧
      slot.abortOrder store.world = [11, 20] := by
  have reached : (run Store.step replacedFirst (.new ⟨[], []⟩)).any
      (fun store => (store.slot? 0).any fun slot =>
        slot.list.iterNames == [1, 2] && slot.insertionOrder == [2, 1] &&
          (slot.list.abortAll store.world).calls ==
            store.world.calls ++ [20, 11] &&
          slot.abortOrder store.world == [11, 20]) = true := by
    decide +kernel
  obtain ⟨store, ended, passed⟩ := exists_run _ reached
  obtain ⟨slot, live, passed⟩ := (Option.any_eq_true ..).mp passed
  simp only [Bool.and_eq_true, beq_iff_eq] at passed
  obtain ⟨⟨⟨names, order⟩, calls⟩, aborts⟩ := passed
  exact ⟨store, slot, ended, live, names, order, calls, aborts⟩

end HoprUtilities.Runtime
