import Mathlib.Data.List.Dedup
import HoprUtilities.Lib.IndexMap

/-!
# Lists of abortable tasks

The embedding of `AbortableList` from `src/runtime.rs`.  A task is a handle or
a whole list that was moved into another one; the keys of a list inside another
one are out of reach and are left out.

A handle is modelled by what `Abortable` asks for: `abort_task` may be called
at any time and makes `was_aborted` true for good.  The world logs the calls.
Dropping a handle does nothing; dropping a list aborts what it holds.
-/

namespace HoprUtilities.Runtime

open HoprUtilities.Lib

inductive Task (τ : Type) where
  | handle (id : τ)
  | nested (tasks : List (Task τ))

/-- The handles for which `was_aborted` is true, and the calls of `abort_task`
on handles. -/
structure World (τ : Type) where
  aborted : List τ
  calls : List τ
  deriving DecidableEq, Repr

section Operations

variable {τ : Type} [DecidableEq τ]

namespace World

def abort (id : τ) (world : World τ) : World τ :=
  { aborted := id :: world.aborted, calls := world.calls ++ [id] }

/-- The task ends, or is aborted from elsewhere. -/
def finish (id : τ) (world : World τ) : World τ :=
  { world with aborted := id :: world.aborted }

end World

mutual

def Task.wasAborted (world : World τ) : Task τ → Bool
  | .handle id => id ∈ world.aborted
  | .nested tasks => allAborted world tasks

def allAborted (world : World τ) : List (Task τ) → Bool
  | [] => true
  | task :: rest => task.wasAborted world && allAborted world rest

end

mutual

def Task.abortTask : Task τ → World τ → World τ
  | .handle id, world => world.abort id
  | .nested tasks, world => abortAll tasks world

/-- `abort_all`: from the last task to the first. -/
def abortAll : List (Task τ) → World τ → World τ
  | [], world => world
  | task :: rest, world =>
      let world := abortAll rest world
      if task.wasAborted world then world else task.abortTask world

end

mutual

def Task.drop : Task τ → World τ → World τ
  | .handle _, world => world
  | .nested tasks, world => clear tasks (abortAll tasks world)

/-- Dropping the entries of a list, from the first to the last. -/
def clear : List (Task τ) → World τ → World τ
  | [], world => world
  | task :: rest, world => clear rest (task.drop world)

end

def dropAll (tasks : List (Task τ)) (world : World τ) : World τ :=
  clear tasks (abortAll tasks world)

/-- What happens to a task that was replaced: it is aborted and dropped. -/
def replace (old : Option (Task τ)) (world : World τ) : World τ :=
  match old with
  | some oldTask => oldTask.drop (oldTask.abortTask world)
  | none => world

end Operations

structure AbortableList (κ τ : Type) where
  map : IndexMap κ (Task τ)

namespace AbortableList

variable {κ υ τ : Type}

def default : AbortableList κ τ := ⟨.empty⟩

/-- The list as a task of another one. -/
def toTask (self : AbortableList κ τ) : Task τ := .nested self.map.values

def iterNames (self : AbortableList κ τ) : List κ := self.map.keys

section Operations

variable [DecidableEq τ]

def abortAll (self : AbortableList κ τ) (world : World τ) : World τ :=
  Runtime.abortAll self.map.values world

def drop (self : AbortableList κ τ) (world : World τ) : World τ :=
  dropAll self.map.values world

variable [DecidableEq κ]

def insert (self : AbortableList κ τ) (process : κ) (task : Task τ)
    (world : World τ) : AbortableList κ τ × World τ :=
  let (old, map) := self.map.insert process task
  (⟨map⟩, replace old world)

def abortOne (self : AbortableList κ τ) (process : κ) (world : World τ) :
    Bool × AbortableList κ τ × World τ :=
  let (found, map) := self.map.shiftRemove process
  match found with
  | some item =>
      if item.wasAborted world then (false, ⟨map⟩, item.drop world)
      else (true, ⟨map⟩, item.drop (item.abortTask world))
  | none => (false, ⟨map⟩, world)

/-- Insert the entries one after the other. -/
def insertAll (entries : List (κ × Task τ)) (self : AbortableList κ τ)
    (world : World τ) : AbortableList κ τ × World τ :=
  entries.foldl (fun (list, world) entry => list.insert entry.1 entry.2 world)
    (self, world)

/-- `other` is empty when it is dropped, so that nothing else happens. -/
def extendFrom (self other : AbortableList κ τ) (world : World τ) :
    AbortableList κ τ × World τ :=
  self.insertAll other.map.entries world

def flatMapExtendFrom (self : AbortableList κ τ) (other : AbortableList υ τ)
    (keyMap : υ → κ) (world : World τ) : AbortableList κ τ × World τ :=
  self.insertAll (other.map.entries.map fun entry => (keyMap entry.1, entry.2))
    world

end Operations

end AbortableList

section Handles

variable {τ : Type}

mutual

def Task.handles : Task τ → List τ
  | .handle id => [id]
  | .nested tasks => allHandles tasks

def allHandles : List (Task τ) → List τ
  | [] => []
  | task :: rest => task.handles ++ allHandles rest

end

mutual

def Task.parts : Task τ → List (Task τ)
  | .handle id => [.handle id]
  | .nested tasks => .nested tasks :: allParts tasks

def allParts : List (Task τ) → List (Task τ)
  | [] => []
  | task :: rest => task.parts ++ allParts rest

end

mutual

theorem Task.inductionOn {holds : Task τ → Prop}
    (handle : ∀ id, holds (.handle id))
    (nested : ∀ tasks : List (Task τ), (∀ task ∈ tasks, holds task) →
      holds (.nested tasks)) :
    ∀ task, holds task
  | .handle id => handle id
  | .nested tasks => nested tasks (allInductionOn handle nested tasks)

theorem allInductionOn {holds : Task τ → Prop}
    (handle : ∀ id, holds (.handle id))
    (nested : ∀ tasks : List (Task τ), (∀ task ∈ tasks, holds task) →
      holds (.nested tasks)) :
    ∀ tasks : List (Task τ), ∀ task ∈ tasks, holds task
  | [], _, member => absurd member List.not_mem_nil
  | first :: rest, task, member => by
      rcases List.mem_cons.mp member with same | later
      · rw [same]
        exact Task.inductionOn handle nested first
      · exact allInductionOn handle nested rest task later

end

theorem mem_allHandles {id : τ} {tasks : List (Task τ)} :
    id ∈ allHandles tasks ↔ ∃ task ∈ tasks, id ∈ task.handles := by
  induction tasks with
  | nil => simp [allHandles]
  | cons task rest induction => simp [allHandles, induction]

theorem mem_allParts {part : Task τ} {tasks : List (Task τ)} :
    part ∈ allParts tasks ↔ ∃ task ∈ tasks, part ∈ task.parts := by
  induction tasks with
  | nil => simp [allParts]
  | cons task rest induction => simp [allParts, induction]

theorem Task.mem_parts_self (task : Task τ) : task ∈ task.parts := by
  cases task <;> simp [Task.parts]

theorem Task.handles_of_parts {task part : Task τ} {id : τ}
    (within : part ∈ task.parts) (member : id ∈ part.handles) :
    id ∈ task.handles := by
  induction task using Task.inductionOn with
  | handle held =>
      rw [Task.parts, List.mem_singleton] at within
      rw [← within]
      exact member
  | nested tasks induction =>
      rw [Task.parts, List.mem_cons] at within
      rcases within with whole | inside
      · rw [← whole]
        exact member
      · obtain ⟨task, present, within⟩ := mem_allParts.mp inside
        exact mem_allHandles.mpr ⟨task, present, induction task present within⟩

end Handles

section Aborting

variable {τ : Type} [DecidableEq τ]

theorem Task.wasAborted_iff {world : World τ} {task : Task τ} :
    task.wasAborted world = true ↔ ∀ id ∈ task.handles, id ∈ world.aborted := by
  induction task using Task.inductionOn with
  | handle id => simp [Task.wasAborted, Task.handles]
  | nested tasks induction =>
      rw [Task.wasAborted, Task.handles]
      induction tasks with
      | nil => simp [allAborted, allHandles]
      | cons task rest each =>
          have first := induction task List.mem_cons_self
          have others := each
            (fun other member => induction other (List.mem_cons_of_mem _ member))
          simp only [allAborted, allHandles, Bool.and_eq_true, first, others,
            List.mem_append]
          constructor
          · rintro ⟨left, right⟩ id (inLeft | inRight)
            · exact left id inLeft
            · exact right id inRight
          · intro both
            exact ⟨fun id member => both id (.inl member),
              fun id member => both id (.inr member)⟩

theorem Task.wasAborted_mono {before after : World τ} {task : Task τ}
    (grows : ∀ id ∈ before.aborted, id ∈ after.aborted)
    (done : task.wasAborted before = true) :
    task.wasAborted after = true := by
  rw [Task.wasAborted_iff] at done ⊢
  intro id member
  exact grows id (done id member)

def World.abortFresh (id : τ) (world : World τ) : World τ :=
  if id ∈ world.aborted then world else world.abort id

def abortHandles (handles : List τ) (world : World τ) : World τ :=
  handles.foldr World.abortFresh world

@[simp] theorem abortHandles_append (left right : List τ) (world : World τ) :
    abortHandles (left ++ right) world =
      abortHandles left (abortHandles right world) :=
  List.foldr_append

theorem abortHandles_of_aborted {handles : List τ} {world : World τ}
    (done : ∀ id ∈ handles, id ∈ world.aborted) :
    abortHandles handles world = world := by
  induction handles with
  | nil => rfl
  | cons id rest induction =>
      have later := induction
        (fun other member => done other (List.mem_cons_of_mem _ member))
      change World.abortFresh id (abortHandles rest world) = world
      rw [later, World.abortFresh, if_pos (done id List.mem_cons_self)]

theorem mem_aborted_abortHandles {handles : List τ} {world : World τ}
    {id : τ} : id ∈ (abortHandles handles world).aborted ↔
      id ∈ world.aborted ∨ id ∈ handles := by
  induction handles with
  | nil => simp [abortHandles]
  | cons first rest induction =>
      change id ∈ (World.abortFresh first (abortHandles rest world)).aborted ↔ _
      unfold World.abortFresh
      split
      · next present =>
          rw [induction, List.mem_cons]
          constructor
          · rintro (old | later)
            · exact .inl old
            · exact .inr (.inr later)
          · rintro (old | same | later)
            · exact .inl old
            · subst same
              exact induction.mp present
            · exact .inr later
      · simp only [World.abort, List.mem_cons, induction]
        tauto

/-- The calls go to the handles that were not aborted, each once, from the last
to the first. -/
theorem calls_abortHandles (handles : List τ) (world : World τ) :
    (abortHandles handles world).calls = world.calls ++
      (handles.filter (· ∉ world.aborted)).dedup.reverse := by
  induction handles with
  | nil => simp [abortHandles]
  | cons id rest induction =>
      change (World.abortFresh id (abortHandles rest world)).calls = _
      unfold World.abortFresh
      by_cases old : id ∈ world.aborted
      · rw [if_pos (mem_aborted_abortHandles.mpr (.inl old)), induction]
        simp [old]
      · by_cases later : id ∈ rest
        · rw [if_pos (mem_aborted_abortHandles.mpr (.inr later)), induction]
          simp [old, later]
        · have fresh : id ∉ (abortHandles rest world).aborted := by
            rw [mem_aborted_abortHandles]
            exact not_or.mpr ⟨old, later⟩
          rw [if_neg fresh]
          change (abortHandles rest world).calls ++ [id] = _
          rw [induction]
          simp [old, later]

theorem abortAll_of_each {tasks : List (Task τ)}
    (each : ∀ task ∈ tasks, ∀ world, task.wasAborted world = false →
      task.abortTask world = abortHandles task.handles world)
    (world : World τ) :
    abortAll tasks world = abortHandles (allHandles tasks) world := by
  induction tasks with
  | nil => rfl
  | cons task rest induction =>
      have later := induction
        (fun other member => each other (List.mem_cons_of_mem _ member))
      rw [abortAll, later, allHandles, abortHandles_append]
      split
      · next done =>
          exact (abortHandles_of_aborted (Task.wasAborted_iff.mp done)).symm
      · next running =>
          exact each task List.mem_cons_self _ (Bool.eq_false_iff.mpr running)

theorem Task.abortTask_eq (task : Task τ) :
    ∀ world, task.wasAborted world = false →
      task.abortTask world = abortHandles task.handles world := by
  induction task using Task.inductionOn with
  | handle id =>
      intro world running
      simp only [Task.wasAborted, decide_eq_false_iff_not] at running
      change world.abort id = World.abortFresh id world
      rw [World.abortFresh, if_neg running]
  | nested tasks each =>
      intro world _
      exact abortAll_of_each each world

theorem abortAll_eq (tasks : List (Task τ)) (world : World τ) :
    abortAll tasks world = abortHandles (allHandles tasks) world :=
  abortAll_of_each (fun task _ => task.abortTask_eq) world

theorem Task.mem_aborted_abortTask {task : Task τ} {world : World τ} {id : τ} :
    id ∈ (task.abortTask world).aborted ↔
      id ∈ world.aborted ∨ id ∈ task.handles := by
  cases task with
  | handle held =>
      rw [Task.handles, List.mem_singleton]
      exact List.mem_cons.trans or_comm
  | nested tasks =>
      rw [Task.abortTask, abortAll_eq, mem_aborted_abortHandles, Task.handles]

theorem clear_of_each {tasks : List (Task τ)} {world : World τ}
    (each : ∀ task ∈ tasks, task.drop world = world) :
    clear tasks world = world := by
  induction tasks with
  | nil => rfl
  | cons task rest induction =>
      rw [clear, each task List.mem_cons_self]
      exact induction (fun other member =>
        each other (List.mem_cons_of_mem _ member))

theorem Task.drop_of_aborted {task : Task τ} :
    ∀ {world : World τ}, (∀ id ∈ task.handles, id ∈ world.aborted) →
      task.drop world = world := by
  induction task using Task.inductionOn with
  | handle id =>
      intro world _
      rfl
  | nested tasks induction =>
      intro world done
      rw [Task.handles] at done
      rw [Task.drop, abortAll_eq, abortHandles_of_aborted done]
      apply clear_of_each
      intro task member
      apply induction task member
      intro id held
      exact done id (mem_allHandles.mpr ⟨task, member, held⟩)

theorem dropAll_eq (tasks : List (Task τ)) (world : World τ) :
    dropAll tasks world = abortHandles (allHandles tasks) world := by
  rw [dropAll, abortAll_eq]
  apply clear_of_each
  intro task member
  apply Task.drop_of_aborted
  intro id held
  exact mem_aborted_abortHandles.mpr
    (.inr (mem_allHandles.mpr ⟨task, member, held⟩))

theorem mem_aborted_replace {old : Option (Task τ)} {world : World τ}
    {id : τ} : id ∈ (replace old world).aborted ↔
      id ∈ world.aborted ∨ ∃ task, old = some task ∧ id ∈ task.handles := by
  cases old with
  | none => simp [replace]
  | some task =>
      have dropped : task.drop (task.abortTask world) =
          task.abortTask world := by
        apply Task.drop_of_aborted
        intro held member
        exact Task.mem_aborted_abortTask.mpr (.inr member)
      simp [replace, dropped, Task.mem_aborted_abortTask]

end Aborting

namespace AbortableList

variable {κ τ : Type}

/-- The tasks in the list, also those inside of others. -/
def held (self : AbortableList κ τ) : List (Task τ) := allParts self.map.values

theorem mem_held {self : AbortableList κ τ} {part : Task τ} :
    part ∈ self.held ↔ ∃ task ∈ self.map.values, part ∈ task.parts :=
  mem_allParts

variable [DecidableEq κ] [DecidableEq τ]

theorem extendFrom_eq (self other : AbortableList κ τ) (world : World τ) :
    self.extendFrom other world = self.flatMapExtendFrom other id world := by
  unfold extendFrom flatMapExtendFrom
  simp

/-- The task is in the list or was aborted. -/
def Safe (part : Task τ) (state : AbortableList κ τ × World τ) : Prop :=
  part ∈ state.1.held ∨ part.wasAborted state.2 = true

theorem insert_safe (process : κ) (task : Task τ) {part : Task τ}
    {self : AbortableList κ τ} {world : World τ}
    (safe : Safe part (self, world)) :
    Safe part (self.insert process task world) := by
  rcases safe with member | done
  · obtain ⟨whole, present, within⟩ := mem_held.mp member
    rcases self.map.insert_keeps process task present with kept | replaced
    · exact .inl (mem_held.mpr ⟨whole, kept, within⟩)
    · apply Or.inr
      rw [Task.wasAborted_iff]
      intro id inPart
      exact mem_aborted_replace.mpr
        (.inr ⟨whole, replaced, Task.handles_of_parts within inPart⟩)
  · apply Or.inr
    apply Task.wasAborted_mono _ done
    intro id old
    exact mem_aborted_replace.mpr (.inl old)

theorem insert_held (self : AbortableList κ τ) (process : κ) (task : Task τ)
    (world : World τ) {part : Task τ} (within : part ∈ task.parts) :
    part ∈ (self.insert process task world).1.held :=
  mem_held.mpr ⟨task, self.map.insert_mem_values process task, within⟩

theorem insertAll_safe (entries : List (κ × Task τ)) {part : Task τ} :
    ∀ {self : AbortableList κ τ} {world : World τ},
      Safe part (self, world) → Safe part (self.insertAll entries world) := by
  induction entries with
  | nil =>
      intro self world safe
      exact safe
  | cons entry rest induction =>
      intro self world safe
      exact induction (insert_safe entry.1 entry.2 safe)

/-- The new tasks are in the list, or were replaced by later ones. -/
theorem insertAll_held (entries : List (κ × Task τ)) {entry : κ × Task τ}
    (member : entry ∈ entries) {part : Task τ} (within : part ∈ entry.2.parts) :
    ∀ (self : AbortableList κ τ) (world : World τ),
      Safe part (self.insertAll entries world) := by
  induction entries with
  | nil => cases member
  | cons first rest induction =>
      intro self world
      rcases List.mem_cons.mp member with same | later
      · subst same
        have first : Safe part (self.insert entry.1 entry.2 world) :=
          .inl (insert_held self entry.1 entry.2 world within)
        exact insertAll_safe rest first
      · exact induction later _ _

theorem insertAll_aborted (entries : List (κ × Task τ)) {id : τ} :
    ∀ {self : AbortableList κ τ} {world : World τ},
      id ∈ (self.insertAll entries world).2.aborted ↔
        id ∈ world.aborted ∨
          ∃ task ∈ IndexMap.overwritten (self.map.entries ++ entries),
            id ∈ task.handles := by
  induction entries with
  | nil =>
      intro self world
      have none : ∀ task,
          task ∉ IndexMap.overwritten (self.map.entries ++ []) := by
        intro task member
        have cases := (IndexMap.mem_overwritten_append self.map.nodup).mp member
        simp [IndexMap.overwritten] at cases
      constructor
      · exact .inl
      · rintro (old | ⟨task, member, _⟩)
        · exact old
        · exact (none task member).elim
  | cons entry rest induction =>
      intro self world
      change id ∈ (insertAll rest (self.insert entry.1 entry.2 world).1
        (self.insert entry.1 entry.2 world).2).2.aborted ↔ _
      rw [induction]
      constructor
      · rintro (inserted | ⟨task, member, inTask⟩)
        · rcases mem_aborted_replace.mp inserted with old | ⟨task, found, inTask⟩
          · exact .inl old
          · exact .inr ⟨task, (IndexMap.mem_overwritten_place
              self.map.nodup).mpr (.inl found), inTask⟩
        · exact .inr ⟨task, (IndexMap.mem_overwritten_place
            self.map.nodup).mpr (.inr member), inTask⟩
      · rintro (old | ⟨task, member, inTask⟩)
        · exact .inl (mem_aborted_replace.mpr (.inl old))
        · rcases (IndexMap.mem_overwritten_place self.map.nodup).mp member with
            found | later
          · exact .inl (mem_aborted_replace.mpr (.inr ⟨task, found, inTask⟩))
          · exact .inr ⟨task, later, inTask⟩

theorem abortOne_aborted (self : AbortableList κ τ) (process : κ)
    (world : World τ) {id : τ} :
    id ∈ (self.abortOne process world).2.2.aborted ↔
      id ∈ world.aborted ∨ ∃ task,
        (self.map.shiftRemove process).1 = some task ∧ id ∈ task.handles := by
  unfold abortOne
  rcases self.map.shiftRemove process with ⟨found, rest⟩
  cases found with
  | none => simp
  | some item =>
      dsimp only
      split
      · next done =>
          have handles := Task.wasAborted_iff.mp done
          rw [Task.drop_of_aborted handles]
          constructor
          · exact .inl
          · rintro (old | ⟨task, same, inTask⟩)
            · exact old
            · cases same
              exact handles id inTask
      · exact (mem_aborted_replace :
          id ∈ (replace (some item) world).aborted ↔ _)

theorem abortOne_map (self : AbortableList κ τ) (process : κ)
    (world : World τ) :
    (self.abortOne process world).2.1.map =
      (self.map.shiftRemove process).2 := by
  unfold abortOne
  rcases self.map.shiftRemove process with ⟨found, rest⟩
  cases found with
  | none => rfl
  | some item =>
      dsimp only
      split <;> rfl

theorem abortOne_safe (process : κ) {part : Task τ}
    {self : AbortableList κ τ} {world : World τ}
    (safe : Safe part (self, world)) :
    Safe part (self.abortOne process world).2 := by
  have same := self.abortOne_map process world
  rcases safe with member | done
  · obtain ⟨whole, present, within⟩ := mem_held.mp member
    rcases self.map.shiftRemove_keeps process present with kept | removed
    · exact .inl (mem_held.mpr ⟨whole, same ▸ kept, within⟩)
    · apply Or.inr
      rw [Task.wasAborted_iff]
      intro id inPart
      exact (self.abortOne_aborted process world).mpr
        (.inr ⟨whole, removed, Task.handles_of_parts within inPart⟩)
  · apply Or.inr
    apply Task.wasAborted_mono _ done
    intro id old
    exact (self.abortOne_aborted process world).mpr (.inl old)

omit [DecidableEq κ] in
theorem drop_aborts (self : AbortableList κ τ) (world : World τ)
    {part : Task τ} (member : part ∈ self.held) :
    part.wasAborted (self.drop world) = true := by
  obtain ⟨whole, present, within⟩ := mem_held.mp member
  rw [Task.wasAborted_iff]
  intro id inPart
  rw [drop, dropAll_eq, mem_aborted_abortHandles]
  exact .inr (mem_allHandles.mpr
    ⟨whole, present, Task.handles_of_parts within inPart⟩)

end AbortableList

end HoprUtilities.Runtime
