import HoprUtilities.Network.UdpBuilder

/-!
# The sockets of a built stream

What `UdpStreamBuilder::build` makes of the addresses it is given: whether it
binds one of them with the requested parallelism, and whether the stream it
returns has a task for each direction.
-/

namespace HoprUtilities.Network.Udp

open HoprUtilities.Lib

section Build

variable {host : Host} {plan : Plan}
  {sockets : Nat → Nat → SocketAnswers} {addresses : List SocketAddr}

/-- The number of sockets for the tasks of a role. -/
def Plan.num (plan : Plan) : Role → Nat
  | .rx => plan.numRxSocks
  | .tx => plan.numTxSocks

/-- The number of tasks of a role. -/
def countOf (role : Role) (tasks : List UdpTask) : Nat :=
  tasks.countP (·.role == role)

/-- The sockets are bound to one address, with the requested parallelism. -/
structure BindsOne (plan : Plan) (comes : IoResult ConnectedUdpStream)
    (state : Building) : Prop where
  receivers : countOf .rx state.socketHandles ≤ plan.numRxSocks
  senders : countOf .tx state.socketHandles ≤ plan.numTxSocks
  boundTo : ∀ stream, comes = .ok stream →
    ∀ task ∈ state.socketHandles, task.sock = stream.boundTo
  stops : state.log.Pairwise fun earlier later =>
    earlier.isBound = true → later.isBound = true

/-- No socket gets bound for an address that has others after it. -/
def OnlyLast (plan : Plan) (sockets : Nat → Nat → SocketAnswers)
    (addresses : List SocketAddr) : Prop :=
  ∀ position bindingTo, addresses[position]? = some bindingTo →
    position + 1 < addresses.length →
    ∀ sockId < plan.numSocksToBind,
      plan.boundTo? bindingTo (sockets position sockId) = none

namespace Plan

theorem addressBoundTo?_eq_none_iff {address : SocketAddr × Nat} :
    plan.addressBoundTo? sockets address = none ↔
      ∀ sockId < plan.numSocksToBind,
        plan.boundTo? address.1 (sockets address.2 sockId) = none := by
  simp only [addressBoundTo?, List.findSome?_eq_none_iff, List.mem_range]

theorem pairwise_zipIdx_iff {holds : SocketAddr × Nat → Prop} :
    addresses.zipIdx.Pairwise (fun address _ => holds address) ↔
      ∀ position bindingTo, addresses[position]? = some bindingTo →
        position + 1 < addresses.length → holds (bindingTo, position) := by
  rw [List.pairwise_iff_getElem]
  constructor
  · intro pairwise position bindingTo found more
    have here : position < addresses.length := by omega
    have pair := pairwise position (position + 1) (by simpa using here)
      (by simpa using more) (Nat.lt_succ_self position)
    rw [List.getElem?_eq_getElem here] at found
    simpa [Option.some.inj found] using pair
  · intro each first second firstBound secondBound order
    rw [List.length_zipIdx] at firstBound secondBound
    have held := each first addresses[first]
      (List.getElem?_eq_getElem firstBound) (by omega)
    simpa using held

theorem onlyLast_iff : OnlyLast plan sockets addresses ↔
    addresses.zipIdx.Pairwise
      (fun address _ => plan.addressBoundTo? sockets address = none) := by
  rw [pairwise_zipIdx_iff]
  simp only [addressBoundTo?_eq_none_iff]
  rfl

/-- What the log of one address tells: nothing follows it unless nothing was
bound. -/
theorem addressLog_follows_iff {address other : SocketAddr × Nat} :
    (∀ earlier ∈ plan.addressLog sockets address,
      ∀ later ∈ plan.addressLog sockets other,
        earlier = true → later = true) ↔
      plan.addressBoundTo? sockets address = none := by
  rw [addressBoundTo?_eq_none_iff]
  constructor
  · intro follows sockId inRange
    by_contra bound
    have isBound : true ∈ plan.addressLog sockets address := by
      apply List.mem_cons_of_mem
      apply List.mem_flatMap.mpr
      refine ⟨sockId, List.mem_range.mpr inRange, ?_⟩
      rw [if_pos (Option.isSome_iff_ne_none.mpr bound)]
      exact List.mem_singleton_self true
    cases follows true isBound false List.mem_cons_self rfl
  · intro unbound earlier member later _ isBound
    subst isBound
    rcases List.mem_cons.mp member with wrong | inner
    · cases wrong
    · obtain ⟨sockId, inRange, shown⟩ := List.mem_flatMap.mp inner
      rw [unbound sockId (List.mem_range.mp inRange)] at shown
      cases shown

theorem addressLog_pairwise (address : SocketAddr × Nat) :
    (plan.addressLog sockets address).Pairwise
      (fun earlier later => earlier = true → later = true) := by
  refine List.pairwise_cons.mpr ⟨fun _ _ => Bool.noConfusion, ?_⟩
  apply List.Pairwise.imp_of_mem _ (List.pairwise_of_forall fun _ _ => trivial)
  intro earlier later _ member _ _
  obtain ⟨sockId, _, shown⟩ := List.mem_flatMap.mp member
  split at shown
  · exact List.mem_singleton.mp shown
  · cases shown

theorem stops_iff :
    ((plan.loops host sockets addresses).log.Pairwise fun earlier later =>
      earlier.isBound = true → later.isBound = true) ↔
      OnlyLast plan sockets addresses := by
  have mapped := List.pairwise_map (f := BuildEvent.isBound)
    (l := (plan.loops host sockets addresses).log)
    (R := fun earlier later => earlier = true → later = true)
  rw [← mapped, loops_log, List.pairwise_flatMap, onlyLast_iff]
  constructor
  · intro pairwise
    exact pairwise.2.imp addressLog_follows_iff.mp
  · intro unbound
    refine ⟨fun address _ => addressLog_pairwise address, ?_⟩
    exact unbound.imp addressLog_follows_iff.mpr

theorem countOf_tasks (role : Role) (sockId : Nat) (sock : SocketAddr) :
    countOf role (plan.tasks sockId sock) =
      if sockId < plan.num role then 1 else 0 := by
  cases role with
  | tx =>
      by_cases sends : sockId < plan.numTxSocks <;>
        by_cases receives : sockId < plan.numRxSocks <;>
          simp [countOf, tasks, num, sends, receives]
  | rx =>
      by_cases sends : sockId < plan.numTxSocks <;>
        by_cases receives : sockId < plan.numRxSocks <;>
          simp [countOf, tasks, num, sends, receives]

theorem countOf_spawned_le (role : Role) (bindingTo : SocketAddr)
    (answers : SocketAnswers) (settled : Option SocketAddr) (sockId : Nat) :
    countOf role (plan.spawned bindingTo answers settled sockId) ≤
      if sockId < plan.num role then 1 else 0 := by
  unfold spawned
  split
  · split
    · exact Nat.le_of_eq (countOf_tasks role sockId _)
    · exact Nat.zero_le _
  · exact Nat.zero_le _

theorem countOf_addressSpawned_le (role : Role) (address : SocketAddr × Nat)
    (settled : Option SocketAddr) :
    countOf role (plan.addressSpawned sockets address settled) ≤
      plan.num role := by
  have upTo (rounds : Nat) : countOf role ((List.range rounds).flatMap
      fun sockId => plan.spawned address.1 (sockets address.2 sockId)
        settled sockId) ≤ min rounds (plan.num role) := by
    induction rounds with
    | zero => exact Nat.zero_le _
    | succ rounds induction =>
        have last : countOf role (plan.spawned address.1
            (sockets address.2 rounds) settled rounds) ≤ _ :=
          countOf_spawned_le role _ _ _ _
        simp only [countOf, List.range_succ, List.flatMap_append,
          List.flatMap_singleton, List.countP_append] at induction last ⊢
        split at last <;> omega
  exact Nat.le_trans (upTo plan.numSocksToBind) (Nat.min_le_right _ _)

theorem addressSpawned_of_unbound {address : SocketAddr × Nat}
    (unbound : plan.addressBoundTo? sockets address = none)
    (settled : Option SocketAddr) :
    plan.addressSpawned sockets address settled = [] := by
  rw [addressBoundTo?_eq_none_iff] at unbound
  apply List.flatMap_eq_nil_iff.mpr
  intro sockId inRange
  exact spawned_of_unbound (unbound sockId (List.mem_range.mp inRange)) settled

theorem countOf_socketHandles_le (only : OnlyLast plan sockets addresses)
    (role : Role) :
    countOf role (plan.loops host sockets addresses).socketHandles ≤
      plan.num role := by
  rw [loops_socketHandles]
  generalize plan.settled? sockets addresses = settled
  have pairwise := onlyLast_iff.mp only
  generalize addresses.zipIdx = items at pairwise
  induction items with
  | nil => exact Nat.zero_le _
  | cons address rest induction =>
      obtain ⟨follows, pairwise⟩ := List.pairwise_cons.mp pairwise
      cases rest with
      | nil =>
          simpa using countOf_addressSpawned_le role address settled
      | cons other rest =>
          rw [List.flatMap_cons, addressSpawned_of_unbound
            (follows other List.mem_cons_self)]
          exact induction pairwise

theorem sock_of_spawned {bindingTo : SocketAddr} {answers : SocketAnswers}
    {settled : Option SocketAddr} {sockId : Nat} {task : UdpTask}
    (member : task ∈ plan.spawned bindingTo answers settled sockId) :
    settled = some task.sock := by
  unfold spawned at member
  split at member
  · next addr _ _ =>
      split at member
      · next same =>
          rcases List.mem_append.mp member with sends | receives
          · split at sends
            · rw [List.mem_singleton.mp sends]
              exact same
            · cases sends
          · split at receives
            · rw [List.mem_singleton.mp receives]
              exact same
            · cases receives
      · cases member
  · cases member

/-- Every task is on a socket that is bound to the settled address. -/
theorem sock_of_socketHandles {task : UdpTask}
    (member : task ∈ (plan.loops host sockets addresses).socketHandles) :
    plan.settled? sockets addresses = some task.sock := by
  rw [loops_socketHandles] at member
  obtain ⟨address, _, inAddress⟩ := List.mem_flatMap.mp member
  obtain ⟨sockId, _, spawned⟩ := List.mem_flatMap.mp inAddress
  exact sock_of_spawned spawned

end Plan

theorem bindsOne_start (plan : Plan) (error : IoError) :
    BindsOne plan (.error error) .start := by
  refine ⟨Nat.zero_le _, Nat.zero_le _, ?_, .nil⟩
  intro stream equality
  cases equality

theorem bindsOne_loops_iff {comes : IoResult ConnectedUdpStream}
    (returned : ∀ stream, comes = .ok stream →
      plan.settled? sockets addresses = some stream.boundTo) :
    BindsOne plan comes (plan.loops host sockets addresses) ↔
      OnlyLast plan sockets addresses := by
  constructor
  · intro binds
    exact Plan.stops_iff.mp binds.stops
  · intro only
    refine ⟨Plan.countOf_socketHandles_le only .rx,
      Plan.countOf_socketHandles_le only .tx, ?_, Plan.stops_iff.mpr only⟩
    intro stream equality task member
    have settled := Plan.sock_of_socketHandles member
    rw [returned stream equality] at settled
    exact (Option.some.inj settled).symm

/-- For every list of addresses, every parallelism and every outcome of the
operations on the sockets, `build` binds one address with the requested
parallelism exactly if no socket gets bound for an address before the last. -/
theorem binds_one_address_iff (host : Host)
    (builder : UdpStreamBuilder) (bindAddr : IoResult (List SocketAddr))
    (sockets : Nat → Nat → SocketAnswers) :
    BindsOne (builder.plan host)
      (outcome (builder.build host bindAddr sockets) .start)
      (halt (builder.build host bindAddr sockets) .start) ↔
    ∀ addresses, bindAddr = .ok addresses →
      OnlyLast (builder.plan host) sockets addresses := by
  have comes := built host builder bindAddr sockets
  generalize outcome (builder.build host bindAddr sockets) .start = result
    at comes ⊢
  generalize halt (builder.build host bindAddr sockets) .start = state
    at comes ⊢
  have found (addresses : List SocketAddr) :
      (∀ others, (.ok addresses : IoResult (List SocketAddr)) = .ok others →
        OnlyLast (builder.plan host) sockets others) ↔
      OnlyLast (builder.plan host) sockets addresses := by
    constructor
    · intro all
      exact all addresses rfl
    · intro only others equality
      cases equality
      exact only
  cases comes with
  | unresolved error =>
      refine iff_of_true (bindsOne_start _ error) ?_
      intro addresses equality
      cases equality
  | unbound settled =>
      rw [found]
      apply bindsOne_loops_iff
      intro stream equality
      cases equality
  | bound settled handles =>
      rw [found]
      apply bindsOne_loops_iff
      intro stream equality
      cases equality
      exact settled

/-- Four CPUs, and two sockets asked for in both directions. -/
def fourCpus : Host :=
  { linux := true
    available := .ok ⟨4, by decide⟩
    display := fun _ => "" }

def twoEach : UdpStreamBuilder :=
  { UdpStreamBuilder.default with
    receiverParallelism := .specific ⟨2, by decide⟩
    senderParallelism := .specific ⟨2, by decide⟩ }

def localAddress : SocketAddr := .v4 0x7f000001 4000

/-- A socket on which every operation succeeds. -/
def goodSocket : SocketAnswers :=
  { new := fun _ => .ok ()
    setReuseAddress := .ok ()
    setReusePort := .ok ()
    setNonblocking := .ok ()
    bind := .ok ()
    localAddr := .ok (some localAddress)
    fromStd := .ok () }

def twoAddresses : IoResult (List SocketAddr) :=
  .ok [.v4 0x7f000001 0, .v4 0x7f000002 0]

/-- The sockets for the second address are bound to the first one as well. -/
theorem second_address_doubles :
    countOf .rx (halt (twoEach.build fourCpus twoAddresses
      fun _ _ => goodSocket) .start).socketHandles = 4 ∧
    ¬ BindsOne (twoEach.plan fourCpus)
      (outcome (twoEach.build fourCpus twoAddresses fun _ _ => goodSocket)
        .start)
      (halt (twoEach.build fourCpus twoAddresses fun _ _ => goodSocket)
        .start) := by
  have four : countOf .rx (halt (twoEach.build fourCpus twoAddresses
      fun _ _ => goodSocket) .start).socketHandles = 4 := rfl
  refine ⟨four, ?_⟩
  intro binds
  have atMost := binds.receivers
  rw [four] at atMost
  exact absurd atMost (by decide)

/-- A stream that is returned has a task to receive and one to send. -/
def Usable (comes : IoResult ConnectedUdpStream) (state : Building) : Prop :=
  ∀ stream, comes = .ok stream →
    0 < countOf .rx state.socketHandles ∧ 0 < countOf .tx state.socketHandles

/-- One of the first sockets for some address is bound to the given address,
and no operation on it fails. -/
def Serves (plan : Plan) (sockets : Nat → Nat → SocketAnswers)
    (addresses : List SocketAddr) (boundTo : SocketAddr) (first : Nat) : Prop :=
  ∃ position bindingTo sockId, addresses[position]? = some bindingTo ∧
    sockId < first ∧
    plan.boundTo? bindingTo (sockets position sockId) = some boundTo ∧
    (sockets position sockId).fromStd = .ok ()

theorem Serves.mono {boundTo : SocketAddr} {first more : Nat}
    (serves : Serves plan sockets addresses boundTo first)
    (order : first ≤ more) : Serves plan sockets addresses boundTo more := by
  obtain ⟨position, bindingTo, sockId, found, inRange, bound⟩ := serves
  exact ⟨position, bindingTo, sockId, found,
    Nat.lt_of_lt_of_le inRange order, bound⟩

theorem serves_min_iff {boundTo : SocketAddr} {first other : Nat} :
    Serves plan sockets addresses boundTo (min first other) ↔
      Serves plan sockets addresses boundTo first ∧
        Serves plan sockets addresses boundTo other := by
  constructor
  · intro serves
    exact ⟨serves.mono (Nat.min_le_left _ _),
      serves.mono (Nat.min_le_right _ _)⟩
  · intro both
    rcases Nat.le_total first other with less | more
    · rw [Nat.min_eq_left less]
      exact both.1
    · rw [Nat.min_eq_right more]
      exact both.2

namespace Plan

theorem num_le (role : Role) : plan.num role ≤ plan.numSocksToBind := by
  cases role with
  | rx => exact Nat.le_max_left _ _
  | tx => exact Nat.le_max_right _ _

theorem countOf_flatMap_pos_iff {ι : Type} {role : Role} {items : List ι}
    {tasks : ι → List UdpTask} :
    0 < countOf role (items.flatMap tasks) ↔
      ∃ item ∈ items, 0 < countOf role (tasks item) := by
  simp only [countOf, List.countP_pos_iff, List.mem_flatMap]
  constructor
  · rintro ⟨task, ⟨item, member, spawned⟩, holds⟩
    exact ⟨item, member, task, spawned, holds⟩
  · rintro ⟨item, member, task, spawned, holds⟩
    exact ⟨task, ⟨item, member, spawned⟩, holds⟩

theorem countOf_spawned_pos_iff {role : Role} {bindingTo boundTo : SocketAddr}
    {answers : SocketAnswers} {sockId : Nat} :
    0 < countOf role (plan.spawned bindingTo answers (some boundTo) sockId) ↔
      sockId < plan.num role ∧
        plan.boundTo? bindingTo answers = some boundTo ∧
        answers.fromStd = .ok () := by
  unfold spawned
  cases bound : plan.boundTo? bindingTo answers with
  | none => simp [countOf]
  | some addr =>
      cases answers.fromStd with
      | error error => simp [countOf]
      | ok =>
          by_cases same : addr = boundTo
          · subst same
            dsimp only
            rw [if_pos rfl, countOf_tasks]
            split <;> simp [*]
          · simp [countOf, same, Ne.symm same]

theorem countOf_socketHandles_pos_iff {role : Role} {boundTo : SocketAddr}
    (settled : plan.settled? sockets addresses = some boundTo) :
    0 < countOf role (plan.loops host sockets addresses).socketHandles ↔
      Serves plan sockets addresses boundTo (plan.num role) := by
  rw [loops_socketHandles, settled]
  constructor
  · intro some
    obtain ⟨address, listed, some⟩ := countOf_flatMap_pos_iff.mp some
    obtain ⟨sockId, _, some⟩ := countOf_flatMap_pos_iff.mp some
    exact ⟨address.2, address.1, sockId,
      List.mk_mem_zipIdx_iff_getElem?.mp listed,
      countOf_spawned_pos_iff.mp some⟩
  · intro serves
    obtain ⟨position, bindingTo, sockId, found, inRange, complete⟩ := serves
    apply countOf_flatMap_pos_iff.mpr
    refine ⟨(bindingTo, position),
      List.mk_mem_zipIdx_iff_getElem?.mpr found, ?_⟩
    apply countOf_flatMap_pos_iff.mpr
    refine ⟨sockId, ?_, countOf_spawned_pos_iff.mpr ⟨inRange, complete⟩⟩
    exact List.mem_range.mpr (Nat.lt_of_lt_of_le inRange (num_le role))

theorem tasks_of_both_iff {boundTo : SocketAddr}
    (settled : plan.settled? sockets addresses = some boundTo) :
    (0 < countOf .rx (plan.loops host sockets addresses).socketHandles ∧
        0 < countOf .tx (plan.loops host sockets addresses).socketHandles) ↔
      Serves plan sockets addresses boundTo
        (min plan.numRxSocks plan.numTxSocks) := by
  rw [countOf_socketHandles_pos_iff settled,
    countOf_socketHandles_pos_iff settled]
  exact serves_min_iff.symm

end Plan

/-- For every list of addresses, every parallelism and every pattern of
failures, a stream that `build` returns has a task for each direction exactly
if, once a socket gets bound at all, one of the sockets that serve both
directions is bound to the same address and taken by the runtime. -/
theorem usable_iff (host : Host) (builder : UdpStreamBuilder)
    (bindAddr : IoResult (List SocketAddr))
    (sockets : Nat → Nat → SocketAnswers) :
    Usable (outcome (builder.build host bindAddr sockets) .start)
      (halt (builder.build host bindAddr sockets) .start) ↔
    ∀ addresses boundTo, bindAddr = .ok addresses →
      (builder.plan host).settled? sockets addresses = some boundTo →
      Serves (builder.plan host) sockets addresses boundTo
        (min (builder.plan host).numRxSocks
          (builder.plan host).numTxSocks) := by
  have comes := built host builder bindAddr sockets
  generalize outcome (builder.build host bindAddr sockets) .start = result
    at comes ⊢
  generalize halt (builder.build host bindAddr sockets) .start = state
    at comes ⊢
  cases comes with
  | unresolved error =>
      apply iff_of_true
      · intro stream equality
        cases equality
      · intro addresses boundTo equality
        cases equality
  | unbound unsettled =>
      apply iff_of_true
      · intro stream equality
        cases equality
      · intro addresses boundTo equality settled
        cases equality
        rw [unsettled] at settled
        cases settled
  | bound settled handles =>
      constructor
      · intro usable addresses boundTo equality found
        cases equality
        rw [settled] at found
        cases found
        exact (Plan.tasks_of_both_iff settled).mp (usable _ rfl)
      · intro serves stream equality
        cases equality
        exact (Plan.tasks_of_both_iff settled).mpr (serves _ _ rfl settled)

/-- The socket is bound, but the runtime does not take it. -/
def untaken : SocketAnswers :=
  { goodSocket with fromStd := .error (.simple (.other 24)) }

def oneAddress : IoResult (List SocketAddr) := .ok [localAddress]

theorem built_without_tasks :
    (∃ stream, outcome (UdpStreamBuilder.default.build fourCpus oneAddress
        fun _ _ => untaken) .start = .ok stream ∧ stream.socketHandles = []) ∧
    ¬ Usable
      (outcome (UdpStreamBuilder.default.build fourCpus oneAddress
        fun _ _ => untaken) .start)
      (halt (UdpStreamBuilder.default.build fourCpus oneAddress
        fun _ _ => untaken) .start) := by
  have returns : ∃ stream, outcome (UdpStreamBuilder.default.build fourCpus
      oneAddress fun _ _ => untaken) .start = .ok stream ∧
      stream.socketHandles = [] := ⟨_, rfl, rfl⟩
  refine ⟨returns, ?_⟩
  obtain ⟨stream, built, _⟩ := returns
  intro usable
  exact absurd (usable stream built).1 (by decide)

end Build

end HoprUtilities.Network.Udp
