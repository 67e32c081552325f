import HoprUtilities.Lib.FirstSuccess
import HoprUtilities.Network.UdpStream

/-!
# Building a connected UDP stream

The embedding of `UdpStreamBuilder::build` from `src/network_types/udp.rs`: how
many sockets are bound, to which addresses, and which tasks are spawned on
them.  What the operations on the sockets return is left open, one socket at a
time.  The addresses and sockets are logged as the loops come to them.
-/

namespace HoprUtilities.Network.Udp

open HoprUtilities.Lib

inductive SocketAddr where
  | v4 (ip : BitVec 32) (port : UInt16)
  | v6 (ip : BitVec 128) (port : UInt16) (flowinfo scopeId : UInt32)
  deriving DecidableEq

inductive Domain where
  | ipv4
  | ipv6
  deriving DecidableEq

def SocketAddr.domain : SocketAddr → Domain
  | .v4 .. => .ipv4
  | .v6 .. => .ipv6

abbrev NonZero := { n : Nat // 0 < n }

inductive UdpStreamParallelism where
  | auto
  | specific (n : NonZero)
  deriving DecidableEq

/-- What the build is for and what it runs on, as
`std::thread::available_parallelism` has it, and how an address is
displayed. -/
structure Host where
  linux : Bool
  available : IoResult NonZero
  display : SocketAddr → String

namespace UdpStreamParallelism

def availParallelism (host : Host) : Nat :=
  match host.available with
  | .ok n => if host.linux then n else 1
  | .error _ => 1

def splitEvenlyWith (host : Host) (receiver sender : UdpStreamParallelism) :
    Nat × Nat :=
  let cpuHalf := max (availParallelism host / 2) 1
  match receiver, sender with
  | .auto, .auto => (cpuHalf, cpuHalf)
  | .specific a, .auto =>
      let a := min cpuHalf a
      (a, cpuHalf * 2 - a)
  | .auto, .specific b =>
      let b := min cpuHalf b
      (cpuHalf * 2 - b, b)
  | .specific a, .specific b => (min cpuHalf a, min cpuHalf b)

end UdpStreamParallelism

structure UdpStreamBuilder where
  foreignDataMode : ForeignDataMode
  bufferSize : Nat
  queueSize : Option Nat
  receiverParallelism : UdpStreamParallelism
  senderParallelism : UdpStreamParallelism
  counterparty : Option SocketAddr
  deriving DecidableEq

def UdpStreamBuilder.default : UdpStreamBuilder :=
  { foreignDataMode := .error
    bufferSize := 2048
    queueSize := none
    receiverParallelism := .specific ⟨1, Nat.one_pos⟩
    senderParallelism := .specific ⟨1, Nat.one_pos⟩
    counterparty := none }

/-- What the operations on one socket return in a run, and so with whatever
arguments they are called in it.  `localAddr` is the address as `as_socket` has
it. -/
structure SocketAnswers where
  new : Domain → IoResult Unit
  setReuseAddress : IoResult Unit
  setReusePort : IoResult Unit
  setNonblocking : IoResult Unit
  bind : IoResult Unit
  localAddr : IoResult (Option SocketAddr)
  fromStd : IoResult Unit

inductive Role where
  | tx
  | rx
  deriving DecidableEq, Repr

/-- A spawned task, with the local address of its socket. -/
structure UdpTask where
  role : Role
  socketId : Nat
  sock : SocketAddr
  deriving DecidableEq

inductive BuildEvent where
  | trying (bindingTo : SocketAddr)
  | bound (sockId : Nat) (target addr : SocketAddr)
  deriving DecidableEq

/-- The variables of `build`, and what it has done. -/
structure Building where
  boundAddr : Option SocketAddr
  socketHandles : List UdpTask
  log : List BuildEvent
  deriving DecidableEq

def otherKind : ErrorKind := .other 0

def addrNotAvailable : ErrorKind := .other 99

def SocketAnswers.bindNew (answers : SocketAnswers) (shared : Bool)
    (domain : Domain) : IoResult SocketAddr := do
  answers.new domain
  if shared then
    answers.setReuseAddress
    answers.setReusePort
  answers.setNonblocking
  answers.bind
  match ← answers.localAddr with
  | some addr => return addr
  | none => throw (.message otherKind "invalid socket type")

def Building.start : Building :=
  { boundAddr := none
    socketHandles := []
    log := [] }

def Building.record (event : BuildEvent) (state : Building) : Building :=
  { state with log := state.log ++ [event] }

/-- What the builder has found out before the loops. -/
structure Plan where
  numRxSocks : Nat
  numTxSocks : Nat
  deriving DecidableEq, Repr

namespace Plan

def numSocksToBind (plan : Plan) : Nat :=
  max plan.numRxSocks plan.numTxSocks

/-- More than one socket is to be bound to an address. -/
def shared (plan : Plan) : Bool := 1 < plan.numSocksToBind

def inconsistent (host : Host) (addr socketBoundAddr : SocketAddr)
    (sockId : Nat) : IoError :=
  .message otherKind ("inconsistent binding address " ++ host.display addr ++
    " != " ++ host.display socketBoundAddr ++ " on socket id " ++
    toString sockId)

/-- Settle the address that all sockets are bound to, or compare with it. -/
def settle (host : Host) (sockId : Nat)
    (socketBoundAddr : SocketAddr) (boundAddr : Option SocketAddr) :
    EStateM IoError Building PUnit :=
  match boundAddr with
  | none =>
      modify fun state => { state with boundAddr := some socketBoundAddr }
  | some addr =>
      if addr ≠ socketBoundAddr then
        throw (inconsistent host addr socketBoundAddr sockId)
      else return ⟨⟩

/-- The closure that binds one socket.  The last operation on the socket comes
after the address has been settled. -/
def bindSocket (host : Host) (plan : Plan) (bindingTo : SocketAddr)
    (sockId : Nat) (answers : SocketAnswers) :
    EStateM IoError Building (Nat × SocketAddr) := do
  let state ← get
  let socketBoundAddr ← MonadExcept.ofExcept
    (answers.bindNew plan.shared bindingTo.domain)
  modify (Building.record
    (.bound sockId (state.boundAddr.getD bindingTo) socketBoundAddr))
  settle host sockId socketBoundAddr state.boundAddr
  MonadExcept.ofExcept answers.fromStd
  return (sockId, socketBoundAddr)

/-- The tasks that share the socket with the given number. -/
def tasks (plan : Plan) (sockId : Nat) (sock : SocketAddr) : List UdpTask :=
  (if sockId < plan.numTxSocks then [⟨.tx, sockId, sock⟩] else []) ++
    (if sockId < plan.numRxSocks then [⟨.rx, sockId, sock⟩] else [])

/-- One round of the inner loop.  A failure is reported and forgotten. -/
def bindNext (host : Host) (plan : Plan) (bindingTo : SocketAddr)
    (sockets : Nat → SocketAnswers) (state : Building) (sockId : Nat) :
    Building :=
  match plan.bindSocket host bindingTo sockId (sockets sockId) state with
  | .ok (sockId, sock) state =>
      { state with
        socketHandles := state.socketHandles ++ plan.tasks sockId sock }
  | .error _ state => state

/-- One round of the outer loop, for the address at the given position. -/
def bindAddress (host : Host) (plan : Plan)
    (sockets : Nat → Nat → SocketAnswers) (state : Building)
    (address : SocketAddr × Nat) : Building :=
  (List.range plan.numSocksToBind).foldl
    (plan.bindNext host address.1 (sockets address.2))
    (state.record (.trying address.1))

end Plan

/-- What `build` returns of the stream. -/
structure ConnectedUdpStream where
  socketHandles : List UdpTask
  setup : Setup SocketAddr
  queueSize : Option Nat
  boundTo : SocketAddr
  deriving DecidableEq

namespace UdpStreamBuilder

def plan (host : Host) (builder : UdpStreamBuilder) : Plan :=
  let numbers := builder.receiverParallelism.splitEvenlyWith host
    builder.senderParallelism
  { numRxSocks := numbers.1, numTxSocks := numbers.2 }

/-- `build`.  `bindAddr` is what `to_socket_addrs` returns, and `sockets` what
the operations do on the socket with a given number for the address at a given
position. -/
def build (host : Host) (builder : UdpStreamBuilder)
    (bindAddr : IoResult (List SocketAddr))
    (sockets : Nat → Nat → SocketAnswers) :
    EStateM IoError Building ConnectedUdpStream := do
  let addresses ← MonadExcept.ofExcept bindAddr
  modify (addresses.zipIdx.foldl ((builder.plan host).bindAddress host sockets))
  let state ← get
  match state.boundAddr with
  | some boundTo =>
      return {
        socketHandles := state.socketHandles
        setup :=
          { counterparty := builder.counterparty
            mode := builder.foreignDataMode
            bufSize := builder.bufferSize }
        queueSize := builder.queueSize
        boundTo := boundTo }
  | none => throw (.simple addrNotAvailable)

end UdpStreamBuilder

def BuildEvent.isBound : BuildEvent → Bool
  | .trying _ => false
  | .bound _ _ _ => true

namespace Plan

variable {host : Host} {plan : Plan} {bindingTo : SocketAddr}
  {sockets : Nat → SocketAnswers} {state : Building} {sockId : Nat}

/-- The address of the socket, if it gets bound to one. -/
def boundTo? (plan : Plan) (bindingTo : SocketAddr)
    (answers : SocketAnswers) : Option SocketAddr :=
  (answers.bindNew plan.shared bindingTo.domain).toOption

/-- The tasks spawned on the socket when the given address is settled. -/
def spawned (plan : Plan) (bindingTo : SocketAddr) (answers : SocketAnswers)
    (settled : Option SocketAddr) (sockId : Nat) : List UdpTask :=
  match plan.boundTo? bindingTo answers, answers.fromStd with
  | some addr, .ok () =>
      if settled = some addr then plan.tasks sockId addr else []
  | _, _ => []

/-- What one round of the inner loop does. -/
structure Round (plan : Plan) (bindingTo : SocketAddr)
    (answers : SocketAnswers) (sockId : Nat) (before after : Building) :
    Prop where
  boundAddr : after.boundAddr =
    before.boundAddr.or (plan.boundTo? bindingTo answers)
  socketHandles : after.socketHandles = before.socketHandles ++
    plan.spawned bindingTo answers after.boundAddr sockId
  log : after.log.map BuildEvent.isBound =
    before.log.map BuildEvent.isBound ++
      if (plan.boundTo? bindingTo answers).isSome then [true] else []

theorem bindNext_unbound {error : IoError}
    (fails : (sockets sockId).bindNew plan.shared bindingTo.domain =
      .error error) :
    plan.bindNext host bindingTo sockets state sockId = state := by
  simp only [bindNext, bindSocket, fails]
  rfl

theorem settle_none (host : Host) (sockId : Nat)
    (addr : SocketAddr) (state : Building) :
    settle host sockId addr none state =
      .ok ⟨⟩ { state with boundAddr := some addr } := rfl

theorem settle_same (host : Host) (sockId : Nat)
    (addr : SocketAddr) (state : Building) :
    settle host sockId addr (some addr) state = .ok ⟨⟩ state := by
  simp only [settle, ne_eq, not_true_eq_false, if_false]
  rfl

theorem settle_other (host : Host) (sockId : Nat)
    {settled addr : SocketAddr} (differ : settled ≠ addr) (state : Building) :
    settle host sockId addr (some settled) state =
      .error (inconsistent host settled addr sockId) state := by
  simp only [settle, if_pos differ]
  rfl

theorem bindNext_bound {addr : SocketAddr}
    (binds : (sockets sockId).bindNew plan.shared bindingTo.domain =
      .ok addr) :
    plan.bindNext host bindingTo sockets state sockId =
      { boundAddr := state.boundAddr.or (some addr)
        socketHandles := state.socketHandles ++ plan.spawned bindingTo
          (sockets sockId) (state.boundAddr.or (some addr)) sockId
        log := state.log ++
          [.bound sockId (state.boundAddr.getD bindingTo) addr] } := by
  have bound : plan.boundTo? bindingTo (sockets sockId) = some addr := by
    simp [boundTo?, binds, Except.toOption]
  have runs : plan.bindNext host bindingTo sockets state sockId =
      match settle host sockId addr state.boundAddr (state.record
        (.bound sockId (state.boundAddr.getD bindingTo) addr)) with
      | .ok _ settled =>
          match (sockets sockId).fromStd with
          | .ok _ => { settled with
              socketHandles := settled.socketHandles ++ plan.tasks sockId addr }
          | .error _ => settled
      | .error _ settled => settled := by
    simp only [bindNext, bindSocket, binds]
    change (match EStateM.bind (settle host sockId addr state.boundAddr)
      (fun _ => do
        MonadExcept.ofExcept (sockets sockId).fromStd
        return (sockId, addr)) (state.record
          (.bound sockId (state.boundAddr.getD bindingTo) addr)) with
      | .ok (sockId, sock) state => { state with
          socketHandles := state.socketHandles ++ plan.tasks sockId sock }
      | .error _ state => state) = _
    unfold EStateM.bind
    cases settle host sockId addr state.boundAddr (state.record
      (.bound sockId (state.boundAddr.getD bindingTo) addr)) with
    | error error settled => rfl
    | ok done settled => cases (sockets sockId).fromStd <;> rfl
  obtain ⟨held, handles, log⟩ := state
  rw [runs]
  simp only [spawned, bound]
  cases held with
  | none =>
      cases (sockets sockId).fromStd <;> simp [settle_none, Building.record]
  | some settled =>
      by_cases same : settled = addr
      · subst same
        cases (sockets sockId).fromStd <;> simp [settle_same, Building.record]
      · cases (sockets sockId).fromStd <;>
          simp [settle_other host sockId same, same, Building.record]

theorem round_bindNext :
    Round plan bindingTo (sockets sockId) sockId state
      (plan.bindNext host bindingTo sockets state sockId) := by
  cases binds : (sockets sockId).bindNew plan.shared bindingTo.domain with
  | error error =>
      have unbound : plan.boundTo? bindingTo (sockets sockId) = none := by
        simp [boundTo?, binds, Except.toOption]
      rw [bindNext_unbound binds]
      exact ⟨by simp [unbound], by simp [spawned, unbound],
        by simp [unbound]⟩
  | ok addr =>
      have bound : plan.boundTo? bindingTo (sockets sockId) = some addr := by
        simp [boundTo?, binds, Except.toOption]
      rw [bindNext_bound binds]
      exact ⟨by simp [bound], rfl, by simp [bound, BuildEvent.isBound]⟩

theorem spawned_of_unbound {answers : SocketAnswers}
    (unbound : plan.boundTo? bindingTo answers = none)
    (settled : Option SocketAddr) :
    plan.spawned bindingTo answers settled sockId = [] := by
  simp [spawned, unbound]

theorem adopting_bindNext (host : Host) (plan : Plan)
    (bindingTo : SocketAddr) (sockets : Nat → SocketAnswers) :
    Adopting Building.boundAddr Building.socketHandles
      (fun sockId => plan.boundTo? bindingTo (sockets sockId))
      (fun settled sockId =>
        plan.spawned bindingTo (sockets sockId) settled sockId)
      (plan.bindNext host bindingTo sockets) := by
  constructor
  · intro state sockId
    exact round_bindNext.boundAddr
  · intro state sockId
    exact round_bindNext.socketHandles
  · intro sockId settled other unbound
    rw [spawned_of_unbound unbound, spawned_of_unbound unbound]

theorem adopting_bindNext_log (host : Host) (plan : Plan)
    (bindingTo : SocketAddr) (sockets : Nat → SocketAnswers) :
    Adopting Building.boundAddr
      (fun state => state.log.map BuildEvent.isBound)
      (fun sockId => plan.boundTo? bindingTo (sockets sockId))
      (fun _ sockId =>
        if (plan.boundTo? bindingTo (sockets sockId)).isSome then [true]
        else [])
      (plan.bindNext host bindingTo sockets) := by
  constructor
  · intro state sockId
    exact round_bindNext.boundAddr
  · intro state sockId
    exact round_bindNext.log
  · intro sockId settled other unbound
    rfl

section Addresses

variable (sockets : Nat → Nat → SocketAnswers) (address : SocketAddr × Nat)

/-- The first address that a socket for the given one gets bound to. -/
def addressBoundTo? (plan : Plan) : Option SocketAddr :=
  (List.range plan.numSocksToBind).findSome? fun sockId =>
    plan.boundTo? address.1 (sockets address.2 sockId)

def addressSpawned (plan : Plan) (settled : Option SocketAddr) :
    List UdpTask :=
  (List.range plan.numSocksToBind).flatMap fun sockId =>
    plan.spawned address.1 (sockets address.2 sockId) settled sockId

def addressLog (plan : Plan) : List Bool :=
  false :: (List.range plan.numSocksToBind).flatMap fun sockId =>
    if (plan.boundTo? address.1 (sockets address.2 sockId)).isSome then [true]
    else []

end Addresses

theorem adopting_bindAddress (host : Host) (plan : Plan)
    (sockets : Nat → Nat → SocketAnswers) :
    Adopting Building.boundAddr Building.socketHandles
      (fun address => plan.addressBoundTo? sockets address)
      (fun settled address => plan.addressSpawned sockets address settled)
      (plan.bindAddress host sockets) := by
  have inner (address : SocketAddr × Nat) :=
    (adopting_bindNext host plan address.1 (sockets address.2)).foldl
  constructor
  · intro state address
    exact (inner address).held_step (state.record (.trying address.1)) _
  · intro state address
    exact (inner address).out_step (state.record (.trying address.1)) _
  · intro address settled other unbound
    exact (inner address).unmoved _ settled other unbound

theorem adopting_bindAddress_log (host : Host) (plan : Plan)
    (sockets : Nat → Nat → SocketAnswers) :
    Adopting Building.boundAddr
      (fun state => state.log.map BuildEvent.isBound)
      (fun address => plan.addressBoundTo? sockets address)
      (fun _ address => plan.addressLog sockets address)
      (plan.bindAddress host sockets) := by
  have inner (address : SocketAddr × Nat) :=
    (adopting_bindNext_log host plan address.1 (sockets address.2)).foldl
  constructor
  · intro state address
    exact (inner address).held_step (state.record (.trying address.1)) _
  · intro state address
    have runs := (inner address).out_step (state.record (.trying address.1))
      (List.range plan.numSocksToBind)
    simp only [Building.record, List.map_append, List.append_assoc] at runs
    exact runs
  · intro address settled other unbound
    rfl

/-- The address that all sockets are to be bound to: the first that one gets
bound to. -/
def settled? (plan : Plan) (sockets : Nat → Nat → SocketAnswers)
    (addresses : List SocketAddr) : Option SocketAddr :=
  addresses.zipIdx.findSome? fun address =>
    plan.addressBoundTo? sockets address

def loops (host : Host) (plan : Plan)
    (sockets : Nat → Nat → SocketAnswers) (addresses : List SocketAddr) :
    Building :=
  addresses.zipIdx.foldl (plan.bindAddress host sockets) .start

variable {addresses : List SocketAddr} {sockets : Nat → Nat → SocketAnswers}

theorem loops_boundAddr :
    (plan.loops host sockets addresses).boundAddr =
      plan.settled? sockets addresses := by
  rw [loops, (adopting_bindAddress host plan sockets).held_foldl]
  rfl

theorem loops_socketHandles :
    (plan.loops host sockets addresses).socketHandles =
      addresses.zipIdx.flatMap fun address =>
        plan.addressSpawned sockets address
          (plan.settled? sockets addresses) := by
  have settled : (plan.loops host sockets addresses).boundAddr = _ :=
    loops_boundAddr
  rw [← settled, loops, (adopting_bindAddress host plan sockets).out_foldl]
  rfl

theorem loops_log :
    (plan.loops host sockets addresses).log.map BuildEvent.isBound =
      addresses.zipIdx.flatMap (plan.addressLog sockets) := by
  rw [loops, (adopting_bindAddress_log host plan sockets).out_foldl]
  rfl

end Plan

inductive Built (host : Host) (plan : Plan)
    (sockets : Nat → Nat → SocketAnswers) :
    IoResult (List SocketAddr) → IoResult ConnectedUdpStream → Building →
      Prop where
  | unresolved (error : IoError) :
      Built host plan sockets (.error error) (.error error) .start
  | unbound {addresses : List SocketAddr}
      (settled : plan.settled? sockets addresses = none) :
      Built host plan sockets (.ok addresses)
        (.error (.simple addrNotAvailable))
        (plan.loops host sockets addresses)
  | bound {addresses : List SocketAddr} {stream : ConnectedUdpStream}
      (settled : plan.settled? sockets addresses = some stream.boundTo)
      (handles : stream.socketHandles =
        (plan.loops host sockets addresses).socketHandles) :
      Built host plan sockets (.ok addresses) (.ok stream)
        (plan.loops host sockets addresses)

theorem built (host : Host) (builder : UdpStreamBuilder)
    (bindAddr : IoResult (List SocketAddr))
    (sockets : Nat → Nat → SocketAnswers) :
    Built host (builder.plan host) sockets bindAddr
      (outcome (builder.build host bindAddr sockets) .start)
      (halt (builder.build host bindAddr sockets) .start) := by
  have triple : Triple (· = .start) (builder.build host bindAddr sockets)
      (fun stream => Built host (builder.plan host) sockets bindAddr
        (.ok stream))
      (fun error => Built host (builder.plan host) sockets bindAddr
        (.error error)) := by
    cases bindAddr with
    | error error =>
        intro state start
        subst start
        exact .unresolved error
    | ok addresses =>
        apply Triple.bind (fun found state =>
          found = addresses ∧ state = .start)
        · intro state start
          exact ⟨rfl, start⟩
        · intro found
          apply Triple.modify_bind
          intro state holds
          obtain ⟨rfl, rfl⟩ := holds
          apply Triple.get_bind
          intro state looped
          subst looped
          split
          · next boundTo settled =>
              apply Triple.pure
              intro after same
              subst same
              exact .bound (Plan.loops_boundAddr.symm.trans settled) rfl
          · next settled =>
              apply Triple.throw
              intro after same
              subst same
              exact .unbound (Plan.loops_boundAddr.symm.trans settled)
  exact triple.outcome rfl

end HoprUtilities.Network.Udp
