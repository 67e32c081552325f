import Mathlib.Data.List.Induction
import HoprUtilities.Lib.History
import HoprUtilities.Parallelize.Pool

/-!
# The recorded thread count

`init_thread_pool` records the number of threads before it asks rayon for the
pool.  Rayon builds its global pool once, and the pool starts the threads that
the successful call has asked for; every other call fails and leaves the pool
as it is.  A failed call still leaves its number in the record.
-/

namespace HoprUtilities.Parallelize

open HoprUtilities.Lib

/-- A call of `init_thread_pool`.  `spawned` tells whether the threads could be
started, had the call to do it. -/
structure InitCall where
  numThreads : Nat
  spawned : Bool
  deriving DecidableEq, Repr

inductive ThreadPoolBuildError where
  | globalPoolAlreadyInitialized
  | spawnFailed
  deriving DecidableEq, Repr

/-- The statics and the number of threads of rayon's global pool, if there is
one.  Asked for no threads, rayon takes as many as there are CPUs. -/
structure Host where
  statics : Statics
  globalPool : Option Nat
  cpus : Nat

namespace Host

def initial (parsed : Option Nat) (cpus : Nat) : Host :=
  { statics := Statics.initial parsed
    globalPool := none
    cpus := cpus }

def poolThreadCount (host : Host) : Nat := host.statics.poolThreadCount

/-- Rayon does not build the pool for this call. -/
def refuses (host : Host) (call : InitCall) : Bool :=
  host.globalPool.isSome || !call.spawned

def granted (host : Host) (call : InitCall) : Nat :=
  if call.numThreads = 0 then host.cpus else call.numThreads

def buildGlobal (host : Host) (call : InitCall) :
    Host × Except ThreadPoolBuildError Unit :=
  if host.globalPool.isSome then (host, .error .globalPoolAlreadyInitialized)
  else if call.spawned then
    ({ host with globalPool := some (host.granted call) }, .ok ())
  else (host, .error .spawnFailed)

def initThreadPool (host : Host) (call : InitCall) :
    Host × Except ThreadPoolBuildError Unit :=
  -- stored before the pool is built, and whether or not it is
  let stored :=
    { host with
      statics := { host.statics with poolThreadCount := call.numThreads } }
  stored.buildGlobal call

def initAll (host : Host) (calls : List InitCall) : Host :=
  calls.foldl (fun host call => (host.initThreadPool call).1) host

/-- What the calls ask for and what they return. -/
def results (host : Host) :
    List InitCall → List (Nat × Except ThreadPoolBuildError Unit)
  | [] => []
  | call :: rest =>
      (call.numThreads, (host.initThreadPool call).2) ::
        results (host.initThreadPool call).1 rest

def okThreads (host : Host) (calls : List InitCall) : Option Nat :=
  ((host.results calls).find? fun entry => entry.2.isOk).map fun entry =>
    entry.1

/-- A call either builds the pool or leaves it alone, and is recorded in both
cases. -/
theorem initThreadPool_cases (host : Host) (call : InitCall) :
    (host.initThreadPool call).1.poolThreadCount = call.numThreads ∧
      (host.refuses call = false ∧ host.globalPool = none ∧
          (host.initThreadPool call).2.isOk = true ∧
          (host.initThreadPool call).1.globalPool =
            some (host.granted call) ∨
        host.refuses call = true ∧
          (host.initThreadPool call).2.isOk = false ∧
          (host.initThreadPool call).1.globalPool = host.globalPool) := by
  unfold initThreadPool buildGlobal refuses
  cases built : host.globalPool with
  | some threads => simp [poolThreadCount, Except.isOk, Except.toBool]
  | none =>
      cases spawned : call.spawned <;>
        simp [poolThreadCount, granted, Except.isOk, Except.toBool]

theorem granted_of_pos (host : Host) {call : InitCall}
    (positive : 1 ≤ call.numThreads) :
    host.granted call = call.numThreads :=
  if_neg (Nat.ne_of_gt positive)

theorem initThreadPool_step {α π : Type} (state : State α π) (host : Host)
    (same : host.statics = state.statics) (call : InitCall) :
    ∃ next, state.step (.initThreadPool call.numThreads) = some next ∧
      next.statics = (host.initThreadPool call).1.statics := by
  refine ⟨_, rfl, ?_⟩
  cases built : host.globalPool <;> cases spawned : call.spawned <;>
    simp [initThreadPool, buildGlobal, built, spawned, same]

theorem initAll_concat (host : Host) (calls : List InitCall)
    (call : InitCall) :
    host.initAll (calls ++ [call]) =
      ((host.initAll calls).initThreadPool call).1 := by
  rw [initAll, List.foldl_append]
  rfl

theorem globalPool_initAll (host : Host) (calls : List InitCall)
    (positive : ∀ call ∈ calls, 1 ≤ call.numThreads) :
    (host.initAll calls).globalPool =
      (host.globalPool <|> host.okThreads calls) := by
  induction calls generalizing host with
  | nil => simp [initAll, okThreads, results]
  | cons call rest induction =>
      have later := induction (host.initThreadPool call).1
        (fun other member => positive other (List.mem_cons_of_mem _ member))
      obtain ⟨_, ⟨_, empty, ok, built⟩ | ⟨_, failed, kept⟩⟩ :=
        host.initThreadPool_cases call
      · rw [built, host.granted_of_pos (positive call List.mem_cons_self)]
          at later
        refine later.trans ?_
        simp [empty, okThreads, results, ok]
      · rw [kept] at later
        refine later.trans ?_
        simp [okThreads, results, failed]

end Host

section Sequences

variable (parsed : Option Nat) (cpus : Nat)

def hostAfter (calls : List InitCall) : Host :=
  (Host.initial parsed cpus).initAll calls

/-- A refused call leaves the record alone. -/
def KeepsRecord (before : List InitCall) (call : InitCall) : Prop :=
  (hostAfter parsed cpus before).refuses call = true →
    ((hostAfter parsed cpus before).initThreadPool call).1.poolThreadCount =
      (hostAfter parsed cpus before).poolThreadCount

/-- A refused call asks for what an earlier call has been granted. -/
def RepeatsPool (before : List InitCall) (call : InitCall) : Prop :=
  (hostAfter parsed cpus before).refuses call = true →
    (Host.initial parsed cpus).okThreads before = some call.numThreads

/-- The record describes the pool after these calls and no failed call has
changed it. -/
structure DescribesPool (calls : List InitCall) : Prop where
  count : (hostAfter parsed cpus calls).poolThreadCount =
    ((Host.initial parsed cpus).okThreads calls).getD 0
  unchanged : ∀ before call after, calls = before ++ call :: after →
    ((hostAfter parsed cpus before).initThreadPool call).2.isOk = false →
    ((hostAfter parsed cpus before).initThreadPool call).1.poolThreadCount =
      (hostAfter parsed cpus before).poolThreadCount
  threshold : ∀ threads pct,
    (hostAfter parsed cpus calls).globalPool = some threads →
    IsPercentage pct →
    occupancyThreshold (hostAfter parsed cpus calls).poolThreadCount pct ≤ threads

end Sequences

variable {parsed : Option Nat} {cpus : Nat} {calls : List InitCall}

theorem globalPool_hostAfter
    (positive : ∀ call ∈ calls, 1 ≤ call.numThreads) :
    (hostAfter parsed cpus calls).globalPool =
      (Host.initial parsed cpus).okThreads calls :=
  (Host.initial parsed cpus).globalPool_initAll calls positive

/-- If a refused call never changes the record, the record is the pool's. -/
theorem count_of_chronicle {rule : List InitCall → InitCall → Prop}
    (positive : ∀ call ∈ calls, 1 ≤ call.numThreads)
    (obeyed : Chronicle rule calls)
    (repeats : ∀ before call after, calls = before ++ call :: after →
      rule before call →
      (hostAfter parsed cpus before).poolThreadCount =
        ((hostAfter parsed cpus before).globalPool).getD 0 →
      (hostAfter parsed cpus before).refuses call = true →
      call.numThreads =
        ((hostAfter parsed cpus before).globalPool).getD 0) :
    (hostAfter parsed cpus calls).poolThreadCount =
      ((hostAfter parsed cpus calls).globalPool).getD 0 := by
  induction calls using List.reverseRecOn with
  | nil => rfl
  | append_singleton earlier call induction =>
      have before := induction
        (fun other member => positive other (List.mem_append_left _ member))
        (obeyed.earlier rfl)
        (fun first other rest split => repeats first other (rest ++ [call])
          (by rw [split, List.append_assoc, List.cons_append]))
      rw [hostAfter, Host.initAll_concat]
      obtain ⟨recorded, ⟨_, _, _, built⟩ | ⟨refused, _, kept⟩⟩ :=
        (hostAfter parsed cpus earlier).initThreadPool_cases call
      · rw [Host.granted_of_pos _ (positive call
          (List.mem_append_right _ List.mem_cons_self))] at built
        exact recorded.trans (congrArg (·.getD 0) built).symm
      · have same := repeats earlier call [] rfl
          (obeyed earlier call [] rfl) before refused
        exact recorded.trans (same.trans (congrArg (·.getD 0) kept).symm)

theorem count_of_repeats
    (positive : ∀ call ∈ calls, 1 ≤ call.numThreads)
    (repeated : Chronicle (RepeatsPool parsed cpus) calls) :
    (hostAfter parsed cpus calls).poolThreadCount =
      ((hostAfter parsed cpus calls).globalPool).getD 0 := by
  refine count_of_chronicle positive repeated ?_
  intro before call after equality repeats _ refused
  have earlier : ∀ other ∈ before, 1 ≤ other.numThreads := fun other member =>
    positive other (equality ▸ List.mem_append_left _ member)
  rw [globalPool_hostAfter earlier, repeats refused]
  rfl

theorem count_of_keeps
    (positive : ∀ call ∈ calls, 1 ≤ call.numThreads)
    (kept : Chronicle (KeepsRecord parsed cpus) calls) :
    (hostAfter parsed cpus calls).poolThreadCount =
      ((hostAfter parsed cpus calls).globalPool).getD 0 := by
  refine count_of_chronicle positive kept ?_
  intro before call after _ keeps same refused
  have recorded := ((hostAfter parsed cpus before).initThreadPool_cases call).1
  exact recorded.symm.trans ((keeps refused).trans same)

theorem occupancyThreshold_le {threads pct : Nat} (positive : 1 ≤ threads)
    (percentage : IsPercentage pct) : occupancyThreshold threads pct ≤ threads := by
  have share : threads * pct ≤ threads * 100 :=
    Nat.mul_le_mul_left threads percentage.2
  unfold occupancyThreshold
  omega

theorem isOk_initThreadPool (host : Host) (call : InitCall) :
    (host.initThreadPool call).2.isOk = !host.refuses call := by
  obtain ⟨_, ⟨accepted, _, ok, _⟩ | ⟨refused, failed, _⟩⟩ :=
    host.initThreadPool_cases call
  · rw [ok, accepted]
    rfl
  · rw [failed, refused]
    rfl

theorem mem_of_okThreads {host : Host} {threads : Nat}
    (ok : host.okThreads calls = some threads) :
    ∃ call ∈ calls, call.numThreads = threads := by
  induction calls generalizing host with
  | nil => cases ok
  | cons call rest induction =>
      cases isOk : (host.initThreadPool call).2.isOk with
      | true =>
          refine ⟨call, List.mem_cons_self, ?_⟩
          simpa [Host.okThreads, Host.results, isOk] using ok
      | false =>
          have later : (host.initThreadPool call).1.okThreads rest =
              some threads := by
            simpa [Host.okThreads, Host.results, isOk] using ok
          obtain ⟨other, member, same⟩ := induction later
          exact ⟨other, List.mem_cons_of_mem _ member, same⟩

/-- The record describes the pool if and only if every call that fails repeats
the number of threads of the pool that is already there. -/
theorem describesPool_iff (parsed : Option Nat) (cpus : Nat)
    (calls : List InitCall)
    (positive : ∀ call ∈ calls, 1 ≤ call.numThreads) :
    DescribesPool parsed cpus calls ↔
      ∀ before call after, calls = before ++ call :: after →
        (hostAfter parsed cpus before).refuses call = true →
        (Host.initial parsed cpus).okThreads before =
          some call.numThreads := by
  have earlier : ∀ {before call after}, calls = before ++ call :: after →
      ∀ other ∈ before, 1 ≤ other.numThreads := by
    intro before call after equality other member
    exact positive other (equality ▸ List.mem_append_left _ member)
  constructor
  · intro describes
    have kept : Chronicle (KeepsRecord parsed cpus) calls := by
      intro before call after equality refused
      refine describes.unchanged before call after equality ?_
      rw [isOk_initThreadPool, refused]
      rfl
    intro before call after equality refused
    have recorded := ((hostAfter parsed cpus before).initThreadPool_cases call).1
    have same := kept before call after equality refused
    have count := count_of_keeps (earlier equality) (kept.earlier equality)
    rw [recorded, count, globalPool_hostAfter (earlier equality)] at same
    have threads : 1 ≤ call.numThreads :=
      positive call (equality ▸ List.mem_append_right _ List.mem_cons_self)
    cases ok : (Host.initial parsed cpus).okThreads before with
    | none =>
        rw [ok] at same
        simp only [Option.getD_none] at same
        omega
    | some granted =>
        rw [ok] at same
        rw [same]
        rfl
  · intro repeated
    have obeyed : Chronicle (RepeatsPool parsed cpus) calls := repeated
    have count := count_of_repeats positive obeyed
    rw [globalPool_hostAfter positive] at count
    refine ⟨count, ?_, ?_⟩
    · intro before call after equality failed
      have refused : (hostAfter parsed cpus before).refuses call = true := by
        simpa [isOk_initThreadPool] using failed
      have recorded := ((hostAfter parsed cpus before).initThreadPool_cases call).1
      have before_count :=
        count_of_repeats (earlier equality) (obeyed.earlier equality)
      rw [globalPool_hostAfter (earlier equality),
        repeated before call after equality refused] at before_count
      rw [recorded, before_count]
      rfl
    · intro threads pct built percentage
      rw [globalPool_hostAfter positive] at built
      obtain ⟨call, member, rfl⟩ := mem_of_okThreads built
      rw [count, built]
      exact occupancyThreshold_le (positive call member) percentage

/-- Asking again for the same pool is harmless. -/
theorem describesPool_same :
    DescribesPool none 8 [⟨2, true⟩, ⟨2, true⟩] := by
  refine (describesPool_iff none 8 _ (by simp)).mpr ?_
  intro before call after equality refused
  match before, equality with
  | [], equality =>
      cases equality
      cases refused
  | [first], equality =>
      cases equality
      rfl
  | first :: second :: third, equality => simp at equality

/-- The second call of the process fails and asks for more threads.  The
arbiter then waits for 75 busy threads of a pool of one. -/
theorem failed_call_recorded :
    ¬ DescribesPool none 8 [⟨1, true⟩, ⟨100, true⟩] ∧
    (hostAfter none 8 [⟨1, true⟩, ⟨100, true⟩]).globalPool = some 1 ∧
    occupancyThreshold
      (hostAfter none 8 [⟨1, true⟩, ⟨100, true⟩]).poolThreadCount 75 = 75 := by
  refine ⟨fun describes => ?_, rfl, rfl⟩
  have count := describes.count
  cases count

end HoprUtilities.Parallelize
