import HoprUtilities.Network.UdpStream

/-!
# One counterparty

The tasks of a stream race to initialise the counterparty, and whichever comes
first decides for all of them: what a receiver passes on afterwards is what it
received from that address, and what a sender sends goes there.

A datagram from another address does not get past the filter, but one that
reads as empty never reaches the filter: it ends the receiver task.
-/

namespace HoprUtilities.Network.Udp

open HoprUtilities.Lib

variable {α : Type} [DecidableEq α]

/-- What a socket received from an address, without the empty reads. -/
def fromAddress (bufSize : Nat) (address : α) (heard : List (Arrival α)) :
    List Bytes :=
  heard.filterMap fun
    | .datagram datagram =>
        if datagram.source = address ∧ datagram.read bufSize ≠ [] then
          some (datagram.read bufSize)
        else none
    | .failed _ => none

/-- The payloads that a receiver task has put on the ingress queue. -/
def putBy (index : Nat) (ingress : List (Nat × IoResult Bytes)) : List Bytes :=
  ingress.filterMap fun
    | (place, .ok data) => if place = index then some data else none
    | (_, .error _) => none

/-- The payload that a receiver task is about to put on the queue, if the
counterparty is the given address. -/
def RxPc.inFlight (address : α) : RxPc α → List Bytes
  | .resolving source data => if source = address then [data] else []
  | .dispatching (.ok data) _ => [data]
  | _ => []

@[simp] theorem RxPc.inFlight_resolving (address source : α) (data : Bytes) :
    (RxPc.resolving source data).inFlight address =
      if source = address then [data] else [] := rfl

@[simp] theorem RxPc.inFlight_ok (address : α) (data : Bytes) (done : Bool) :
    (RxPc.dispatching (.ok data) done).inFlight address = [data] := rfl

@[simp] theorem RxPc.inFlight_error (address : α) (error : IoError)
    (done : Bool) :
    (RxPc.dispatching (.error error) done).inFlight address = [] := rfl

@[simp] theorem RxPc.inFlight_receiving (address : α) :
    (RxPc.receiving : RxPc α).inFlight address = [] := rfl

@[simp] theorem RxPc.inFlight_finished (address : α) :
    (RxPc.finished : RxPc α).inFlight address = [] := rfl

@[simp] theorem RxPc.inFlight_dispatched (address : α) (done sent : Bool) :
    (RxPc.dispatched done sent : RxPc α).inFlight address = [] := by
  cases done <;> cases sent <;> rfl

@[simp] theorem putBy_nil (index : Nat) : putBy index [] = [] := rfl

@[simp] theorem putBy_own (index : Nat) (data : Bytes) :
    putBy index [(index, .ok data)] = [data] := by
  simp [putBy]

@[simp] theorem putBy_error (index place : Nat) (error : IoError) :
    putBy index [(place, .error error)] = [] := rfl

@[simp] theorem putBy_append (index : Nat)
    (left right : List (Nat × IoResult Bytes)) :
    putBy index (left ++ right) = putBy index left ++ putBy index right :=
  List.filterMap_append

theorem putBy_other {index place : Nat} (apart : place ≠ index)
    (put : Option (IoResult Bytes)) :
    putBy index (put.toList.map (fun out => (place, out))) = [] := by
  cases put with
  | none => rfl
  | some out => cases out <;> simp [putBy, apart]

@[simp] theorem fromAddress_append (bufSize : Nat) (address : α)
    (left right : List (Arrival α)) :
    fromAddress bufSize address (left ++ right) =
      fromAddress bufSize address left ++
        fromAddress bufSize address right :=
  List.filterMap_append

/-- Every address the counterparty may still turn out to be. -/
def Admissible (lock : Option α) (address : α) : Prop :=
  lock = none ∨ lock = some address

/-- A running task has passed on all that it received from the address, but
for what is in flight; one that has ended has passed on the beginning of it. -/
def RxTask.Faithful (bufSize : Nat) (address : α) (put : List Bytes)
    (task : RxTask α) : Prop :=
  ∃ rest, put ++ task.pc.inFlight address ++ rest =
      fromAddress bufSize address task.heard ∧
    (task.pc ≠ .finished → rest = [])

structure RxTask.Placed (bufSize : Nat) (lock : Option α) (task : RxTask α) :
    Prop where
  heardOf : ∀ source data, task.pc = .resolving source data →
    ∃ datagram, .datagram datagram ∈ task.heard ∧ datagram.source = source ∧
      datagram.read bufSize ≠ []
  locked : ∀ data done, task.pc = .dispatching (.ok data) done → lock ≠ none

theorem RxPc.inFlight_received (bufSize : Nat) (address : α)
    (arrival : Arrival α) :
    (RxPc.received bufSize arrival).inFlight address =
      fromAddress bufSize address [arrival] := by
  cases arrival with
  | failed error => rfl
  | datagram datagram =>
      by_cases empty : datagram.read bufSize = []
      · simp [RxPc.received, empty, fromAddress]
      · by_cases same : datagram.source = address <;>
          simp [RxPc.received, empty, fromAddress, same]

theorem RxPc.inFlight_resolved {mode : ForeignDataMode}
    (filters : mode ≠ .accept) (address source : α) (data : Bytes) :
    (RxPc.resolved mode address source data).inFlight address =
      if source = address then [data] else [] := by
  by_cases same : source = address
  · simp [RxPc.resolved, same]
  · cases mode with
    | accept => exact (filters rfl).elim
    | discard | error => simp [RxPc.resolved, same]

namespace RxMove

variable {setup : Setup α} {lock after : Option α} {task next : RxTask α}
  {put : Option (IoResult Bytes)}

theorem admissible (move : RxMove setup lock task after next put)
    {address : α} (fits : Admissible after address) :
    Admissible lock address := by
  cases move with
  | resolve place =>
      rcases fits with unset | set
      · cases unset
      · cases lock with
        | none => exact .inl rfl
        | some current => exact .inr set
  | receive | sent | closed | cancelled => exact fits

theorem lock_mono (move : RxMove setup lock task after next put)
    {address : α} (set : lock = some address) : after = some address := by
  cases move with
  | resolve place => simp [set]
  | receive | sent | closed | cancelled => exact set

theorem heard_mono (move : RxMove setup lock task after next put) :
    ∃ more, next.heard = task.heard ++ more := by
  cases move with
  | receive place arrival => exact ⟨[arrival], rfl⟩
  | resolve | sent | closed | cancelled => exact ⟨[], by simp [RxTask.goto]⟩

theorem faithful (move : RxMove setup lock task after next put)
    (filters : setup.mode ≠ .accept) {address : α}
    (fits : Admissible after address) (index : Nat) {before : List Bytes}
    (faithful : task.Faithful setup.bufSize address before) :
    next.Faithful setup.bufSize address
      (before ++ putBy index (put.toList.map (fun out => (index, out)))) := by
  obtain ⟨rest, passed, running⟩ := faithful
  cases move with
  | receive place arrival =>
      refine ⟨[], ?_, fun _ => rfl⟩
      have none : rest = [] := running (by simp [place])
      rw [place, none] at passed
      simpa [RxPc.inFlight_received] using passed
  | @resolve source data place =>
      have same : lock.getD source = address := by
        rcases fits with unset | set
        · cases unset
        · exact Option.some.inj set
      refine ⟨rest, ?_, fun _ => running (by simp [place])⟩
      rw [place] at passed
      simpa [RxTask.goto, same, RxPc.inFlight_resolved filters] using passed
  | @sent out done place =>
      refine ⟨[], ?_, fun _ => rfl⟩
      have none : rest = [] := running (by simp [place])
      rw [place, none] at passed
      cases out <;> simpa [RxTask.goto] using passed
  | closed | cancelled =>
      refine ⟨task.pc.inFlight address ++ rest, ?_, fun other => ?_⟩
      · simpa [RxTask.goto] using passed
      · exact (other rfl).elim

theorem placed (move : RxMove setup lock task after next put) :
    next.Placed setup.bufSize after := by
  cases move with
  | receive place arrival =>
      constructor
      · intro source data resolving
        cases arrival with
        | failed error => cases resolving
        | datagram datagram =>
            by_cases empty : datagram.read setup.bufSize = []
            · simp [RxPc.received, empty] at resolving
            · obtain ⟨same, _⟩ : datagram.source = source ∧ _ := by
                simpa [RxPc.received, empty] using resolving
              exact ⟨datagram, by simp, same, empty⟩
      · intro data done dispatching
        cases arrival with
        | failed error => cases dispatching
        | datagram datagram =>
            by_cases empty : datagram.read setup.bufSize = [] <;>
              simp [RxPc.received, empty] at dispatching
  | resolve place =>
      constructor
      · intro source data resolving
        simp only [RxTask.goto, RxPc.resolved] at resolving
        split_ifs at resolving
        split at resolving <;> cases resolving
      · intro data done _
        simp
  | @sent out done place =>
      cases done <;> constructor <;> intro first second other <;> cases other
  | closed | cancelled =>
      constructor <;> intro first second other <;> cases other

/-- The counterparty was set before, or is the source of what the task has
received. -/
theorem origin (move : RxMove setup lock task after next put) {address : α}
    (set : after = some address) :
    lock = some address ∨ ∃ data, task.pc = .resolving address data := by
  cases move with
  | @resolve source data place =>
      cases lock with
      | none =>
          obtain rfl : source = address := Option.some.inj set
          exact .inr ⟨data, place⟩
      | some current => exact .inl set
  | receive | sent | closed | cancelled => exact .inl set

theorem put_ok (move : RxMove setup lock task after next put) {data : Bytes}
    (puts : put = some (.ok data)) :
    ∃ done, task.pc = .dispatching (.ok data) done := by
  cases move with
  | @sent out done place =>
      obtain rfl := Option.some.inj puts
      exact ⟨done, place⟩
  | receive | resolve | closed | cancelled => cases puts

end RxMove

omit [DecidableEq α] in
theorem RxTask.Placed.mono {bufSize : Nat} {lock after : Option α}
    {task : RxTask α} (placed : task.Placed bufSize lock)
    (kept : lock ≠ none → after ≠ none) : task.Placed bufSize after :=
  ⟨placed.heardOf, fun data done place => kept (placed.locked data done place)⟩

/-- Some task has received data from the address. -/
def State.HeardFrom (setup : Setup α) (state : State α) (address : α) :
    Prop :=
  ∃ task ∈ state.receivers, ∃ datagram,
    .datagram datagram ∈ task.heard ∧ datagram.source = address ∧
      datagram.read setup.bufSize ≠ []

omit [DecidableEq α] in
theorem State.HeardFrom.receiver {setup : Setup α} {state after : State α}
    {index : Nat} {task moved : RxTask α}
    (current : state.receivers[index]? = some task)
    (grows : ∃ more, moved.heard = task.heard ++ more)
    (same : after.receivers = state.receivers.set index moved)
    {address : α} (heardFrom : state.HeardFrom setup address) :
    after.HeardFrom setup address := by
  obtain ⟨more, grows⟩ := grows
  obtain ⟨other, present, datagram, heard, facts⟩ := heardFrom
  unfold HeardFrom
  rw [same]
  by_cases moving : other = task
  · subst moving
    refine ⟨moved, mem_set_self current, datagram, ?_, facts⟩
    rw [grows]
    exact List.mem_append_left _ heard
  · exact ⟨other, mem_set_of_ne present current moving, datagram, heard, facts⟩

structure Agrees (setup : Setup α) (state : State α) : Prop where
  configured : ∀ address, setup.counterparty = some address →
    state.counterparty = some address
  origin : setup.counterparty = none → ∀ address,
    state.counterparty = some address → state.HeardFrom setup address
  placed : ∀ task ∈ state.receivers,
    task.Placed setup.bufSize state.counterparty
  faithful : setup.mode ≠ .accept →
    ∀ address, Admissible state.counterparty address →
    ∀ (index : Nat) (task : RxTask α), state.receivers[index]? = some task →
      task.Faithful setup.bufSize address (putBy index state.ingress)
  locked : ∀ index data, (index, .ok data) ∈ state.ingress →
    state.counterparty ≠ none
  known : ∀ entry ∈ state.ingress, entry.1 < state.receivers.length
  sent : ∀ entry ∈ state.sent, state.counterparty = some entry.2.1

namespace Agrees

variable {setup : Setup α} {state next : State α}

theorem start (setup : Setup α) (receivers senders : Nat) :
    Agrees setup (State.start setup receivers senders) := by
  have idle : ∀ task ∈ (State.start setup receivers senders).receivers,
      task = .start := by
    intro task member
    exact List.eq_of_mem_replicate member
  constructor
  · intro address configured
    exact configured
  · intro unset address set
    simp [State.start, unset] at set
  · intro task member
    rw [idle task member]
    constructor <;> intro first second other <;> cases other
  · intro _ address _ index task current
    rw [idle task (List.mem_of_getElem? current)]
    exact ⟨[], rfl, fun _ => rfl⟩
  · intro index data member
    cases member
  · intro entry member
    cases member
  · intro entry member
    cases member

theorem receiver (agrees : Agrees setup state) {index : Nat}
    {task moved : RxTask α} {lock : Option α} {put : Option (IoResult Bytes)}
    (current : state.receivers[index]? = some task)
    (move : RxMove setup state.counterparty task lock moved put) :
    Agrees setup
      { state with
        counterparty := lock
        receivers := state.receivers.set index moved
        ingress :=
          state.ingress ++ put.toList.map (fun out => (index, out)) } := by
  have member := List.mem_of_getElem? current
  have kept : state.counterparty ≠ none → lock ≠ none := by
    intro set
    obtain ⟨address, same⟩ := Option.ne_none_iff_exists'.mp set
    simp [move.lock_mono same]
  constructor
  · intro address configured
    exact move.lock_mono (agrees.configured address configured)
  · intro unset address set
    apply State.HeardFrom.receiver current move.heard_mono rfl
    rcases move.origin set with before | ⟨data, place⟩
    · exact agrees.origin unset address before
    · obtain ⟨datagram, heard, source, data⟩ :=
        (agrees.placed task member).heardOf address data place
      exact ⟨task, member, datagram, heard, source, data⟩
  · refine forall_set ?_ move.placed
    intro other present
    exact (agrees.placed other present).mono kept
  · intro filters address fits place other here
    have before := agrees.faithful filters address (move.admissible fits)
    simp only [putBy_append]
    rcases getElem?_set_cases here with ⟨rfl, rfl⟩ | ⟨apart, there⟩
    · exact move.faithful filters fits place (before place task current)
    · rw [putBy_other (Ne.symm apart), List.append_nil]
      exact before place other there
  · intro place data present
    rcases List.mem_append.mp present with earlier | added
    · exact kept (agrees.locked place data earlier)
    · simp only [List.mem_map, Option.mem_toList, Prod.mk.injEq] at added
      obtain ⟨out, puts, rfl, rfl⟩ := added
      obtain ⟨done, dispatching⟩ := move.put_ok puts
      exact kept ((agrees.placed task member).locked data done dispatching)
  · intro entry present
    rw [List.length_set]
    rcases List.mem_append.mp present with earlier | added
    · exact agrees.known entry earlier
    · simp only [List.mem_map] at added
      obtain ⟨out, _, rfl⟩ := added
      exact (List.getElem?_eq_some_iff.mp current).1
  · intro entry present
    exact move.lock_mono (agrees.sent entry present)

theorem step (agrees : Agrees setup state)
    (step : StateStep setup state next) : Agrees setup next := by
  cases step with
  | receiver current move => exact agrees.receiver current move
  | @sender index pc after sends egress current move =>
      refine ⟨agrees.configured, agrees.origin, agrees.placed, agrees.faithful,
        agrees.locked, agrees.known, ?_⟩
      intro entry present
      rcases List.mem_append.mp present with earlier | added
      · exact agrees.sent entry earlier
      · cases move with
        | target data set =>
            obtain rfl : entry = (index, _, data) := by simpa using added
            exact set
        | take | disconnected | unset | transmitted | cancelled =>
            cases added
  | owner egress closed aborted =>
      exact ⟨agrees.configured, agrees.origin, agrees.placed, agrees.faithful,
        agrees.locked, agrees.known, agrees.sent⟩

theorem of_reachable {receivers senders : Nat}
    (reachable : Reachable (State.step setup)
      (State.start setup receivers senders) state) : Agrees setup state :=
  reachable.invariant
    (fun _ _ _ taken agrees => agrees.step (stateStep_of_step taken))
    (.start setup receivers senders)

end Agrees

theorem StateStep.lock_mono {setup : Setup α} {state next : State α}
    (step : StateStep setup state next) {address : α}
    (set : state.counterparty = some address) :
    next.counterparty = some address := by
  cases step with
  | receiver current move => exact move.lock_mono set
  | sender | owner => exact set

/-- In every run of the tasks of a stream, the counterparty stays as it is once
it is set.  It is the configured address if there is one, and else the source
of a non-empty datagram that some task has received.  Unless foreign data is
accepted, the payloads that a task puts on the ingress queue are what its
socket received from the counterparty, in the order of arrival, and every
datagram is sent to the counterparty. -/
theorem counterparty_agreement (setup : Setup α) (receivers senders : Nat)
    (state : State α)
    (reachable : Reachable (State.step setup)
      (State.start setup receivers senders) state) :
    (∀ address later, state.counterparty = some address →
      Reachable (State.step setup) state later →
      later.counterparty = some address) ∧
    (∀ address, setup.counterparty = some address →
      state.counterparty = some address) ∧
    (∀ address, setup.counterparty = none →
      state.counterparty = some address → state.HeardFrom setup address) ∧
    (setup.mode ≠ .accept → ∀ index data,
      (index, .ok data) ∈ state.ingress →
      ∃ address task, state.counterparty = some address ∧
        state.receivers[index]? = some task ∧
        data ∈ putBy index state.ingress ∧
        putBy index state.ingress <+:
          fromAddress setup.bufSize address task.heard) ∧
    (∀ index target data, (index, target, data) ∈ state.sent →
      state.counterparty = some target) := by
  have agrees := Agrees.of_reachable reachable
  refine ⟨?_, agrees.configured, fun address unset =>
    agrees.origin unset address, ?_, fun index target data =>
    agrees.sent (index, target, data)⟩
  · intro address later set continued
    exact continued.invariant
      (fun _ _ _ taken => (stateStep_of_step taken).lock_mono) set
  · intro filters index data member
    obtain ⟨address, set⟩ :=
      Option.ne_none_iff_exists'.mp (agrees.locked index data member)
    have inside := agrees.known _ member
    have current := List.getElem?_eq_getElem inside
    obtain ⟨rest, passed, _⟩ :=
      agrees.faithful filters address (.inr set) index _ current
    refine ⟨address, _, set, current, ?_, ?_⟩
    · exact List.mem_filterMap.mpr ⟨_, member, by simp⟩
    · rw [List.append_assoc] at passed
      exact ⟨_, passed⟩

/-- Two receiver tasks race for the counterparty.  The second one wins, and the
datagram of the first one is discarded. -/
def race : List (Label Nat) :=
  [.receive 0 (.datagram ⟨7, [1]⟩), .receive 1 (.datagram ⟨8, [2, 3]⟩),
    .resolve 1, .dispatch 1 true, .resolve 0,
    .receive 0 (.datagram ⟨8, [4]⟩), .resolve 0, .dispatch 0 true,
    .write [5], .take 0, .target 0]

/-- Foreign data is discarded, and the counterparty is not configured. -/
def unconfigured : Setup Nat :=
  { counterparty := none, mode := .discard, bufSize := 8 }

theorem counterparty_agreement_race :
    ∃ (state : State Nat) (task : RxTask Nat),
      run (State.step unconfigured) race (State.start unconfigured 2 1) =
        some state ∧
      state.ingress = [(1, .ok [2, 3]), (0, .ok [4])] ∧
      state.sent = [(0, 8, [5])] ∧ state.counterparty = some 8 ∧
      state.HeardFrom unconfigured 8 ∧ state.receivers[0]? = some task ∧
      putBy 0 state.ingress <+: fromAddress 8 8 task.heard := by
  have passed : (run (State.step unconfigured) race
      (State.start unconfigured 2 1)).any (fun state =>
        state.ingress == [(1, .ok [2, 3]), (0, .ok [4])] &&
        state.sent == [(0, 8, [5])]) = true := by
    decide
  obtain ⟨state, ended, facts⟩ := exists_run _ passed
  simp only [Bool.and_eq_true, beq_iff_eq] at facts
  obtain ⟨_, _, origin, order, target⟩ :=
    counterparty_agreement unconfigured 2 1 state ⟨race, ended⟩
  have set := target 0 8 [5] (by simp [facts.2])
  obtain ⟨address, task, same, current, _, sound⟩ :=
    order (by decide) 0 [4] (by simp [facts.1])
  obtain rfl : address = 8 := Option.some.inj (same.symm.trans set)
  exact ⟨state, task, ended, facts.1, facts.2, set, origin 8 rfl set, current,
    sound⟩

/-- The datagram reads as empty, which the task takes for the end of the
file. -/
def Datagram.hangsUp (bufSize : Nat) (datagram : Datagram α) : Bool :=
  (datagram.read bufSize).isEmpty

def Datagram.isFrom (address : α) (datagram : Datagram α) : Bool :=
  datagram.source == address

/-- The first datagram that reads as empty, if there is one, is from the
counterparty, or the next one from the counterparty reads as empty too. -/
def inert (bufSize : Nat) (counterparty : α)
    (datagrams : List (Datagram α)) : Bool :=
  match datagrams.dropWhile (!·.hangsUp bufSize) with
  | [] => true
  | first :: rest =>
      first.isFrom counterparty ||
        (rest.find? (·.isFrom counterparty)).any (·.hangsUp bufSize)

theorem rxLoop_discard_cons (bufSize : Nat) (counterparty : α)
    (datagram : Datagram α) (rest : List (Datagram α)) :
    rxLoop .discard bufSize counterparty (datagram :: rest) =
      if datagram.hangsUp bufSize then ([], false)
      else if datagram.isFrom counterparty then
        (.ok (datagram.read bufSize) ::
            (rxLoop .discard bufSize counterparty rest).1,
          (rxLoop .discard bufSize counterparty rest).2)
      else rxLoop .discard bufSize counterparty rest := by
  by_cases empty : datagram.hangsUp bufSize = true
  · have reads : (datagram.read bufSize).isEmpty = true := empty
    simp [rxLoop, RxPc.received, empty, reads]
  · have reads : (datagram.read bufSize).isEmpty = false := by
      simpa [Datagram.hangsUp] using empty
    by_cases same : datagram.source = counterparty <;>
      simp [rxLoop, RxPc.received, RxPc.resolved, RxPc.dispatched, empty,
        reads, Datagram.isFrom, same]

/-- A task that only hears its counterparty ends at once if and only if the
first datagram reads as empty. -/
theorem rxLoop_filter_eq_ended (bufSize : Nat) (counterparty : α)
    (datagrams : List (Datagram α)) :
    rxLoop .discard bufSize counterparty
        (datagrams.filter (·.isFrom counterparty)) = ([], false) ↔
      (datagrams.find? (·.isFrom counterparty)).any (·.hangsUp bufSize) =
        true := by
  induction datagrams with
  | nil => simp [rxLoop]
  | cons datagram rest induction =>
      by_cases own : datagram.isFrom counterparty = true
      · by_cases empty : datagram.hangsUp bufSize = true <;>
          simp [own, rxLoop_discard_cons, empty]
      · simpa [own] using induction

/-- While foreign data is discarded, a task puts the same items on the queue
and runs as long as it would without the foreign datagrams, if and only if no
foreign datagram that reads as empty ends it before the counterparty does. -/
theorem foreign_inert_iff (bufSize : Nat) (counterparty : α)
    (datagrams : List (Datagram α)) :
    rxLoop .discard bufSize counterparty datagrams =
        rxLoop .discard bufSize counterparty
          (datagrams.filter (·.isFrom counterparty)) ↔
      inert bufSize counterparty datagrams = true := by
  induction datagrams with
  | nil => simp [inert]
  | cons datagram rest induction =>
      by_cases empty : datagram.hangsUp bufSize = true
      · -- the task ends here
        by_cases own : datagram.isFrom counterparty = true
        · simp [inert, rxLoop_discard_cons, empty, own]
        · have ended := rxLoop_filter_eq_ended bufSize counterparty rest
          simp only [inert, rxLoop_discard_cons, empty, own, List.filter_cons,
            List.dropWhile_cons, Bool.not_true, Bool.false_eq_true, if_true,
            if_false, Bool.false_or]
          rw [← ended]
          exact eq_comm
      · have skips : inert bufSize counterparty (datagram :: rest) =
            inert bufSize counterparty rest := by
          simp [inert, empty]
        rw [skips, ← induction]
        by_cases own : datagram.isFrom counterparty = true
        · simp [rxLoop_discard_cons, empty, own, Prod.ext_iff]
        · simp [rxLoop_discard_cons, empty, own]

/-- An empty datagram from a third party ends the task before the counterparty
is heard. -/
theorem foreign_hangsUp :
    rxLoop .discard 8 1 [⟨2, []⟩, ⟨1, [5]⟩] = ([], false) ∧
      rxLoop .discard 8 1
        ([⟨2, []⟩, ⟨1, [5]⟩].filter (Datagram.isFrom 1)) =
          ([.ok [5]], true) := by
  decide

end HoprUtilities.Network.Udp
