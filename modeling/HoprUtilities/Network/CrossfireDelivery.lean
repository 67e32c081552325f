import HoprUtilities.Network.CrossfireSink

/-!
# What the sink delivers and what it admits

An item travels from the buffer of a clone through a future into the channel,
and each step either moves it on or leaves it where it is.  So the items that
a clone has accepted are those it has enqueued followed by the one it holds.

The item a clone holds is on top of what the channel holds.  A clone that holds
nothing is ready even if the channel is full, so every clone adds one slot to
the channel.  The capacity alone bounds the items that were accepted and not
received if every item is flushed before the next one is sent on any clone,
and sent while the channel is not full.
-/

namespace HoprUtilities.Network.Crossfire

open HoprUtilities.Lib

variable {ι : Type}

/-- The items that were enqueued by `Sink` calls on one clone, in order. -/
def placedBy (index : Nat) (log : List (Source × ι)) : List ι :=
  (log.filter (·.1 == .sink index)).map (·.2)

@[simp] theorem placedBy_append (index : Nat) (left right : List (Source × ι)) :
    placedBy index (left ++ right) =
      placedBy index left ++ placedBy index right := by
  simp [placedBy]

theorem placedBy_own (index : Nat) (items : List ι) :
    placedBy index (items.map (fun item => (Source.sink index, item))) =
      items := by
  induction items with
  | nil => rfl
  | cons item rest induction =>
      simpa [placedBy] using induction

theorem placedBy_foreign {index : Nat} {source : Source}
    (other : source ≠ .sink index) (items : List ι) :
    placedBy index (items.map (fun item => (source, item))) = [] := by
  simp [placedBy, other]

def CrossfireSink.Single (sink : CrossfireSink ι) : Prop :=
  sink.buffered = none ∨ sink.pending = none

theorem CrossfireSink.Single.held_length {sink : CrossfireSink ι}
    (single : sink.Single) : sink.held.length ≤ 1 := by
  unfold CrossfireSink.held
  rcases single with none | none
  · cases pending : sink.pending <;> simp [none]
  · cases buffered : sink.buffered <;> simp [none]

theorem CrossfireSink.held_eq_nil {sink : CrossfireSink ι} :
    sink.held = [] ↔ sink = .idle := by
  obtain ⟨buffered, pending⟩ := sink
  cases buffered <;> cases pending <;> simp [held, idle]

namespace RoundStep

variable {channel after : Channel ι} {source : Source}
  {sink next : CrossfireSink ι} {round : Round}

theorem single (step : RoundStep channel source sink after next round)
    (before : sink.Single) : next.Single := by
  cases step with
  | idle | waits => exact before
  | sent | sendFailed => exact .inr rfl
  | placed | parks | trySendFailed => exact .inl rfl

/-- A round enqueues the item it takes out of the sink, unless it reports a
disconnection. -/
theorem moves (step : RoundStep channel source sink after next round)
    (before : sink.Single) :
    ∃ items : List ι,
      after.log = channel.log ++ items.map (fun item => (source, item)) ∧
      (round ≠ .returned (.ready (.error .disconnected)) →
        sink.held = items ++ next.held) := by
  have alone : ∀ item, sink.pending = some item → sink.buffered = none := by
    intro item future
    rcases before with empty | none
    · exact empty
    · rw [none] at future
      cases future
  cases step with
  | idle | waits => exact ⟨[], by simp, fun _ => rfl⟩
  | @sent item future room =>
      refine ⟨[item], by simp [Channel.log], ?_⟩
      intro _
      simp [CrossfireSink.held, future, alone item future]
  | @placed item future buffered room =>
      refine ⟨[item], by simp [Channel.log], ?_⟩
      intro _
      simp [CrossfireSink.held, future, buffered]
  | parks future buffered =>
      refine ⟨[], by simp, ?_⟩
      intro _
      simp [CrossfireSink.held, future, buffered]
  | sendFailed | trySendFailed =>
      exact ⟨[], by simp, fun reported => (reported rfl).elim⟩

theorem idle_of_ready (step : RoundStep channel source sink after next round)
    (before : sink.Single) (ready : round = .returned (.ready (.ok ()))) :
    next = .idle := by
  obtain ⟨buffered, pending⟩ := sink
  cases step with
  | idle future empty =>
      cases future
      cases empty
      rfl
  | sent future =>
      cases future
      rcases before with empty | none
      · cases empty
        rfl
      · cases none
  | placed future =>
      cases future
      rfl
  | waits | sendFailed | parks | trySendFailed => cases ready

theorem connected_eq (step : RoundStep channel source sink after next round) :
    after.connected = channel.connected := by
  cases step <;> rfl

theorem capacity_eq (step : RoundStep channel source sink after next round) :
    after.capacity = channel.capacity := by
  cases step <;> rfl

theorem received_eq (step : RoundStep channel source sink after next round) :
    after.received = channel.received := by
  cases step <;> rfl

theorem connected_of_failed
    (step : RoundStep channel source sink after next round)
    (failed : round = .returned (.ready (.error .disconnected))) :
    channel.connected = false := by
  cases step with
  | sendFailed _ gone | trySendFailed _ _ gone => exact gone
  | _ => cases failed

theorem ready_iff_of_full
    (step : RoundStep channel source sink after next round)
    (full : channel.full = true) :
    round = .returned (.ready (.ok ())) ↔ sink.held = [] := by
  cases step with
  | idle future empty => simp [CrossfireSink.held, future, empty]
  | sent _ room | placed _ _ room =>
      rw [full] at room
      cases room
  | waits future | sendFailed future => simp [CrossfireSink.held, future]
  | parks _ buffered | trySendFailed _ buffered =>
      simp [CrossfireSink.held, buffered]

end RoundStep

namespace Endpoint

theorem conclude_accepted (endpoint : Endpoint ι) (method : Method)
    (sink : CrossfireSink ι) (round : Round) :
    (endpoint.conclude method sink round).accepted = endpoint.accepted := by
  cases round <;> rfl

theorem conclude_sink (endpoint : Endpoint ι) (method : Method)
    (sink : CrossfireSink ι) (round : Round) :
    (endpoint.conclude method sink round).sink = sink := by
  cases round <;> rfl

theorem startSend_accepted_length (endpoint : Endpoint ι) (item : ι) :
    (endpoint.startSend item).accepted.length =
      endpoint.accepted.length + 1 :=
  List.length_append

end Endpoint

/-- What holds of a clone that has enqueued the items `placed`. -/
structure Endpoint.Sound (placed : List ι) (endpoint : Endpoint ι) :
    Prop where
  single : endpoint.sink.Single
  unviolated : endpoint.violated = false
  emptied : ∀ method, endpoint.last = some (method, .ready (.ok ())) →
    endpoint.sink = .idle
  delivered : endpoint.failed = false →
    endpoint.accepted = placed ++ endpoint.sink.held

namespace Endpoint.Sound

variable {placed : List ι} {endpoint : Endpoint ι}

theorem idle : Sound ([] : List ι) .idle := by
  constructor
  · exact .inl rfl
  · rfl
  · intro method returned
    cases returned
  · intro _
    rfl

theorem startSend (sound : Sound placed endpoint) (item : ι)
    (ready : endpoint.last = some (.pollReady, .ready (.ok ()))) :
    Sound placed (endpoint.startSend item) := by
  have empty := sound.emptied _ ready
  constructor
  · right
    simp [Endpoint.startSend, CrossfireSink.startSend, empty,
      CrossfireSink.idle]
  · simp [Endpoint.startSend, sound.unviolated, empty, CrossfireSink.idle,
      CrossfireSink.mayStartSend]
  · intro method returned
    cases returned
  · intro successful
    have delivered := sound.delivered successful
    simp only [empty] at delivered
    simp [Endpoint.startSend, delivered, empty, CrossfireSink.startSend,
      CrossfireSink.held, CrossfireSink.idle]

theorem round {channel after : Channel ι} {source : Source}
    {sink : CrossfireSink ι} {round : Round} (method : Method)
    (sound : Sound placed endpoint)
    (step : RoundStep channel source endpoint.sink after sink round)
    {items : List ι}
    (moved : round ≠ .returned (.ready (.error .disconnected)) →
      endpoint.sink.held = items ++ sink.held) :
    Sound (placed ++ items) (endpoint.conclude method sink round) := by
  have accounts : endpoint.failed = false →
      round ≠ .returned (.ready (.error .disconnected)) →
      endpoint.accepted = placed ++ items ++ sink.held := by
    intro successful reported
    rw [sound.delivered successful, moved reported, List.append_assoc]
  cases round with
  | again =>
      constructor
      · exact step.single sound.single
      · exact sound.unviolated
      · intro method returned
        cases returned
      · intro successful
        exact accounts successful (by simp)
  | returned outcome =>
      constructor
      · exact step.single sound.single
      · exact sound.unviolated
      · intro method returned
        cases returned
        exact step.idle_of_ready sound.single rfl
      · intro successful
        simp only [Endpoint.conclude, Bool.or_eq_false_iff,
          beq_eq_false_iff_ne] at successful
        apply accounts successful.1
        intro reported
        cases reported
        exact successful.2 rfl

end Endpoint.Sound

/-- Every clone has delivered what it accepted. -/
structure Delivers (state : State ι) : Prop where
  unknown : ∀ index, state.endpoints.length ≤ index →
    placedBy index state.channel.log = []
  sound : ∀ (index : Nat) (endpoint : Endpoint ι),
    state.endpoints[index]? = some endpoint →
    endpoint.Sound (placedBy index state.channel.log)

namespace Delivers

variable {state next : State ι} {label : Label ι}

theorem initial (capacity : Nat) :
    Delivers (boundedSinkChannel capacity : State ι) := by
  constructor
  · intro index _
    rfl
  · intro index endpoint current
    have same : endpoint = .idle := by
      have member := List.mem_of_getElem? current
      simpa [boundedSinkChannel] using member
    rw [same]
    exact .idle

theorem withChannel (delivers : Delivers state) {channel : Channel ι}
    (same : ∀ index,
      placedBy index channel.log = placedBy index state.channel.log) :
    Delivers { state with channel := channel } := by
  constructor
  · intro index beyond
    rw [same]
    exact delivers.unknown index beyond
  · intro index endpoint current
    rw [same]
    exact delivers.sound index endpoint current

theorem step (delivers : Delivers state) (step : StateStep state label next) :
    Delivers next := by
  cases step with
  | clone current =>
      constructor
      · intro index beyond
        apply delivers.unknown
        simp only [List.length_append, List.length_singleton] at beyond
        omega
      · intro index endpoint here
        rcases getElem?_concat_cases here with there | ⟨last, same⟩
        · exact delivers.sound index endpoint there
        · rw [same, last, delivers.unknown _ (Nat.le_refl _)]
          exact .idle
  | @round _ moving endpoint method channel sink round enters current step =>
      obtain ⟨items, logged, moved⟩ :=
        step.moves (delivers.sound moving endpoint current).single
      constructor
      · intro index beyond
        rw [List.length_set] at beyond
        have inside := (List.getElem?_eq_some_iff.mp current).1
        have other : Source.sink moving ≠ .sink index := by
          intro same
          cases same
          omega
        simp only [logged, placedBy_append, placedBy_foreign other,
          List.append_nil]
        exact delivers.unknown index beyond
      · intro index other here
        simp only [logged, placedBy_append]
        rcases getElem?_set_cases here with ⟨rfl, rfl⟩ | ⟨apart, there⟩
        · rw [placedBy_own]
          exact (delivers.sound index endpoint current).round method step moved
        · have other : Source.sink moving ≠ .sink index := by
            intro same
            cases same
            exact apart rfl
          rw [placedBy_foreign other, List.append_nil]
          exact delivers.sound index _ there
  | startSend current ready =>
      constructor
      · intro index beyond
        rw [List.length_set] at beyond
        exact delivers.unknown index beyond
      · intro index other here
        rcases getElem?_set_cases here with ⟨rfl, rfl⟩ | ⟨apart, there⟩
        · exact (delivers.sound index _ current).startSend _ ready
        · exact delivers.sound index other there
  | trySend offered =>
      apply delivers.withChannel
      intro index
      cases offered with
      | accepted room => simp [Channel.log, placedBy]
      | refused | disconnected => rfl
  | receive first connected =>
      apply delivers.withChannel
      intro index
      simp [Channel.log, first]
  | dropReceiver => exact ⟨delivers.unknown, delivers.sound⟩

theorem of_reachable {capacity : Nat}
    (reachable : Reachable State.step (boundedSinkChannel capacity) state) :
    Delivers state :=
  reachable.invariant
    (fun _ _ _ taken delivers => delivers.step (stateStep_of_step taken))
    (.initial capacity)

end Delivers

/-- As long as no call on a clone has returned `Disconnected`, the items it
accepted are those it enqueued, in order, and then the one it holds.  The
buffer and the future never hold one each, the assertion of `start_send` never
fails, and a call that returns `Ready(Ok)` leaves nothing held. -/
theorem sink_delivers_once (capacity : Nat) (state : State ι)
    (reachable : Reachable State.step (boundedSinkChannel capacity) state)
    (index : Nat) (endpoint : Endpoint ι)
    (current : state.endpoints[index]? = some endpoint) :
    (endpoint.failed = false →
      endpoint.accepted =
        placedBy index (state.channel.received ++ state.channel.queue) ++
          endpoint.sink.held ∧
      endpoint.sink.held.length ≤ 1) ∧
    (endpoint.sink.buffered = none ∨ endpoint.sink.pending = none) ∧
    endpoint.violated = false ∧
    (∀ method, endpoint.last = some (method, .ready (.ok ())) →
      endpoint.sink.held = []) := by
  have sound := (Delivers.of_reachable reachable).sound index endpoint current
  refine ⟨?_, sound.single, sound.unviolated, ?_⟩
  · intro successful
    exact ⟨sound.delivered successful, sound.single.held_length⟩
  · intro method returned
    exact CrossfireSink.held_eq_nil.mpr (sound.emptied method returned)

/-- A channel of one slot and two clones.  The second clone finds the slot
taken, parks its item in a future, and delivers it after a receive. -/
def backpressure : List (Label Nat) :=
  [.clone 0, .poll 0 .pollReady .refused, .startSend 0 1,
    .poll 1 .pollReady .refused, .startSend 1 2, .poll 0 .pollReady .accepted,
    .poll 1 .pollFlush .refused, .again 1 .refused, .startSend 0 3, .receive,
    .poll 1 .pollFlush .accepted, .poll 0 .pollReady .refused]

theorem sink_delivers_once_backpressure :
    ∃ (state : State Nat) (endpoint : Endpoint Nat),
      run State.step backpressure (boundedSinkChannel 1) = some state ∧
      state.endpoints[0]? = some endpoint ∧
      endpoint.accepted = [1, 3] ∧ endpoint.sink.pending = some 3 ∧
      endpoint.accepted =
        placedBy 0 (state.channel.received ++ state.channel.queue) ++
          endpoint.sink.held := by
  have passed : (run State.step backpressure
      (boundedSinkChannel 1 : State Nat)).any (fun state =>
        (state.endpoints[0]?).any (fun endpoint =>
          endpoint.accepted == [1, 3] && endpoint.sink.pending == some 3 &&
            !endpoint.failed)) = true := by
    decide
  obtain ⟨state, ended, facts⟩ := exists_run _ passed
  obtain ⟨endpoint, current, facts⟩ := Option.any_eq_true _ _ |>.mp facts
  simp only [Bool.and_eq_true, beq_iff_eq, Bool.not_eq_eq_eq_not,
    Bool.not_true] at facts
  exact ⟨state, endpoint, ended, current, facts.1.1, facts.1.2,
    ((sink_delivers_once 1 state ⟨backpressure, ended⟩ 0 endpoint
      current).1 facts.2).1⟩

/-- A call has returned `Ready(Ok)` since the last item was sent. -/
def Endpoint.flushed (endpoint : Endpoint ι) : Bool :=
  endpoint.accepted.isEmpty ||
    match endpoint.last with
    | some (_, .ready (.ok ())) => true
    | _ => false

/-- The number of items that `Sink` calls enqueued. -/
def fromSinks (entries : List (Source × ι)) : Nat :=
  entries.countP (·.1 != .direct)

@[simp] theorem fromSinks_append (left right : List (Source × ι)) :
    fromSinks (left ++ right) = fromSinks left + fromSinks right :=
  List.countP_append

theorem fromSinks_own (index : Nat) (items : List ι) :
    fromSinks (items.map (fun item => (Source.sink index, item))) =
      items.length := by
  simp [fromSinks]

namespace State

/-- The number of items accepted by `start_send`, over all clones. -/
def accepted (state : State ι) : Nat :=
  total (·.accepted.length) state.endpoints

/-- The number of items that the clones hold. -/
def held (state : State ι) : Nat :=
  total (·.sink.held.length) state.endpoints

/-- `start_send` is only called while the receiver lives and the channel is not
full, after every item that was sent on any clone has been flushed. -/
def oneByOne (state : State ι) : Label ι → Bool
  | .startSend _ _ =>
      state.channel.connected && !state.channel.full &&
        state.endpoints.all (·.flushed)
  | _ => true

end State

theorem State.counts_set {state : State ι} {index : Nat}
    {endpoint : Endpoint ι} (channel : Channel ι) (next : Endpoint ι)
    (current : state.endpoints[index]? = some endpoint) :
    (State.mk channel (state.endpoints.set index next)).accepted +
        endpoint.accepted.length =
      state.accepted + next.accepted.length ∧
    (State.mk channel (state.endpoints.set index next)).held +
        endpoint.sink.held.length =
      state.held + next.sink.held.length :=
  ⟨total_set _ next current, total_set _ next current⟩

/-- While the receiver lives every accepted item is in the channel, received,
or held. -/
def Accounted (state : State ι) : Prop :=
  state.channel.connected = true →
    state.accepted = fromSinks state.channel.log + state.held

theorem Accounted.step {state next : State ι} {label : Label ι}
    (accounted : Accounted state) (delivers : Delivers state)
    (step : StateStep state label next) : Accounted next := by
  intro connected
  cases step with
  | clone current =>
      have before := accounted connected
      simpa [State.accepted, State.held, Endpoint.idle, CrossfireSink.idle,
        CrossfireSink.held] using before
  | @round _ index endpoint method channel sink round enters current step =>
      have alive : state.channel.connected = true :=
        step.connected_eq ▸ connected
      have before := accounted alive
      obtain ⟨items, logged, moved⟩ :=
        step.moves (delivers.sound index endpoint current).single
      have lengths : endpoint.sink.held.length =
          items.length + sink.held.length := by
        rw [moved ?_, List.length_append]
        intro failed
        rw [step.connected_of_failed failed] at alive
        cases alive
      obtain ⟨acceptedCount, heldCount⟩ := State.counts_set channel
        (endpoint.conclude method sink round) current
      rw [endpoint.conclude_accepted] at acceptedCount
      rw [endpoint.conclude_sink] at heldCount
      simp only [logged, fromSinks_append, fromSinks_own]
      omega
  | @startSend index item endpoint current ready =>
      have before := accounted connected
      have empty := CrossfireSink.held_eq_nil.mpr
        ((delivers.sound index endpoint current).emptied _ ready)
      have idle := CrossfireSink.held_eq_nil.mp empty
      obtain ⟨acceptedCount, heldCount⟩ := State.counts_set state.channel
        (endpoint.startSend item) current
      have one : (endpoint.startSend item).sink.held = [item] := by
        simp [Endpoint.startSend, CrossfireSink.startSend, idle,
          CrossfireSink.held, CrossfireSink.idle]
      have more := endpoint.startSend_accepted_length item
      simp only [empty, one, List.length_nil, List.length_singleton]
        at heldCount
      change _ = fromSinks state.channel.log + _
      omega
  | trySend offered =>
      cases offered with
      | accepted room =>
          have before := accounted connected
          simpa [Channel.log, fromSinks, State.accepted, State.held]
            using before
      | refused | disconnected => exact accounted connected
  | receive first _ =>
      have before := accounted connected
      simpa [Channel.log, first, State.accepted, State.held] using before
  | dropReceiver => cases connected

theorem StateStep.capacity_eq {state next : State ι} {label : Label ι}
    (step : StateStep state label next) :
    next.channel.capacity = state.channel.capacity := by
  cases step with
  | round _ _ step => exact step.capacity_eq
  | trySend offered => cases offered <;> rfl
  | clone | startSend | receive | dropReceiver => rfl

theorem State.held_le {state : State ι} (delivers : Delivers state) :
    state.held ≤ state.endpoints.length := by
  apply total_le_length
  intro endpoint member
  obtain ⟨index, current⟩ := List.getElem?_of_mem member
  exact (delivers.sound index endpoint current).single.held_length

/-- While the receiver lives no call fails. -/
def Unfailed (state : State ι) : Prop :=
  state.channel.connected = true →
    ∀ endpoint ∈ state.endpoints, endpoint.failed = false

theorem Unfailed.step {state next : State ι} {label : Label ι}
    (unfailed : Unfailed state) (step : StateStep state label next) :
    Unfailed next := by
  intro connected
  cases step with
  | clone current => exact forall_concat (unfailed connected) rfl
  | @round _ index endpoint method channel sink round enters current step =>
      have alive : state.channel.connected = true :=
        step.connected_eq ▸ connected
      refine forall_set (unfailed alive) ?_
      have before := unfailed alive endpoint (List.mem_of_getElem? current)
      cases round with
      | again => exact before
      | returned outcome =>
          simp only [Endpoint.conclude, before, Bool.false_or,
            beq_eq_false_iff_ne]
          rintro rfl
          rw [step.connected_of_failed rfl] at alive
          cases alive
  | startSend current ready =>
      have before := unfailed connected _ (List.mem_of_getElem? current)
      exact forall_set (unfailed connected) before
  | trySend offered =>
      cases offered <;> exact unfailed connected
  | receive first alive => exact unfailed alive
  | dropReceiver => cases connected

theorem Endpoint.Sound.held_of_flushed {placed : List ι}
    {endpoint : Endpoint ι} (sound : endpoint.Sound placed)
    (successful : endpoint.failed = false)
    (flushed : endpoint.flushed = true) : endpoint.sink.held = [] := by
  rw [Endpoint.flushed, Bool.or_eq_true] at flushed
  rcases flushed with empty | ready
  · have delivered := sound.delivered successful
    rw [List.isEmpty_iff.mp empty] at delivered
    exact (List.append_eq_nil_iff.mp delivered.symm).2
  · split at ready
    · next method last =>
        exact CrossfireSink.held_eq_nil.mpr (sound.emptied method last)
    · cases ready

/-- What the capacity bounds rests on. -/
structure Kept (capacity : Nat) (state : State ι) : Prop where
  delivers : Delivers state
  accounted : Accounted state
  unfailed : Unfailed state
  capacity_eq : state.channel.capacity = capacity
  filled : state.channel.queue.length ≤ capacity

theorem Kept.initial (capacity : Nat) :
    Kept capacity (boundedSinkChannel capacity : State ι) := by
  refine ⟨.initial capacity, fun _ => rfl, fun _ endpoint member => ?_, rfl,
    Nat.zero_le _⟩
  rw [List.mem_singleton.mp member]
  rfl

theorem RoundStep.filled {channel after : Channel ι} {source : Source}
    {sink next : CrossfireSink ι} {round : Round}
    (step : RoundStep channel source sink after next round)
    (filled : channel.queue.length ≤ channel.capacity) :
    after.queue.length ≤ after.capacity := by
  cases step with
  | sent _ room | placed _ _ room =>
      simp only [Channel.full, decide_eq_false_iff_not, Nat.not_le] at room
      simpa using Nat.succ_le_of_lt room
  | idle | waits | sendFailed | parks | trySendFailed => exact filled

theorem Kept.step {capacity : Nat} {state next : State ι} {label : Label ι}
    (kept : Kept capacity state) (step : StateStep state label next) :
    Kept capacity next := by
  have capacityNext := step.capacity_eq.trans kept.capacity_eq
  refine ⟨kept.delivers.step step, kept.accounted.step kept.delivers step,
    kept.unfailed.step step, capacityNext, ?_⟩
  have filled := kept.filled
  rw [← kept.capacity_eq] at filled
  rw [← capacityNext]
  cases step with
  | clone | startSend | dropReceiver => exact filled
  | round _ _ step => exact step.filled filled
  | trySend offered =>
      cases offered with
      | accepted room =>
          simp only [Channel.full, decide_eq_false_iff_not, Nat.not_le] at room
          simpa using Nat.succ_le_of_lt room
      | refused | disconnected => exact filled
  | receive first connected =>
      rw [first, List.length_cons] at filled
      exact Nat.le_of_succ_le filled

theorem Kept.of_reachable {capacity : Nat} {state : State ι}
    (reachable : Reachable State.step (boundedSinkChannel capacity) state) :
    Kept capacity state :=
  reachable.invariant
    (fun _ _ _ taken kept => kept.step (stateStep_of_step taken))
    (.initial capacity)

theorem Kept.accepted_le {capacity : Nat} {state : State ι}
    (kept : Kept capacity state) (connected : state.channel.connected = true) :
    state.accepted ≤
      fromSinks state.channel.received + capacity + state.endpoints.length := by
  have counts := kept.accounted connected
  have held := State.held_le kept.delivers
  have inChannel : fromSinks state.channel.queue ≤
      state.channel.queue.length :=
    List.countP_le_length
  have filled := kept.filled
  rw [Channel.log, fromSinks_append] at counts
  omega

/-- No more items than the capacity were accepted and not received. -/
def Bounded (capacity : Nat) (state : State ι) : Prop :=
  state.accepted ≤ fromSinks state.channel.received + capacity

theorem Bounded.step {capacity : Nat} {state next : State ι}
    {label : Label ι} (bounded : Bounded capacity state)
    (kept : Kept capacity state) (calm : state.oneByOne label = true)
    (step : StateStep state label next) : Bounded capacity next := by
  have bound : state.accepted ≤
      fromSinks state.channel.received + capacity := bounded
  unfold Bounded
  cases step with
  | clone current => simpa [State.accepted, Endpoint.idle] using bound
  | @round _ index endpoint method channel sink round enters current step =>
      have counts := (State.counts_set channel
        (endpoint.conclude method sink round) current).1
      rw [endpoint.conclude_accepted] at counts
      simp only [step.received_eq]
      omega
  | @startSend index item endpoint current ready =>
      simp only [State.oneByOne, Bool.and_eq_true, Bool.not_eq_eq_eq_not,
        Bool.not_true, List.all_eq_true] at calm
      obtain ⟨⟨connected, room⟩, flushed⟩ := calm
      -- what `poll_ready` has flushed is held nowhere
      have nothing : state.held = 0 := by
        apply total_eq_zero
        intro other member
        obtain ⟨place, here⟩ := List.getElem?_of_mem member
        have empty := (kept.delivers.sound place other here).held_of_flushed
          (kept.unfailed connected other member) (flushed other member)
        rw [empty]
        rfl
      have counted := kept.accounted connected
      have counts := (State.counts_set state.channel
        (endpoint.startSend item) current).1
      have more := endpoint.startSend_accepted_length item
      have inChannel : fromSinks state.channel.queue ≤
          state.channel.queue.length :=
        List.countP_le_length
      have same := kept.capacity_eq
      simp only [Channel.full, decide_eq_false_iff_not, Nat.not_le] at room
      rw [Channel.log, fromSinks_append] at counted
      change _ ≤ fromSinks state.channel.received + _
      omega
  | trySend offered => cases offered <;> exact bound
  | receive first connected =>
      simp only [fromSinks_append]
      change state.accepted ≤ _
      omega
  | dropReceiver => exact bound

/-- A call is ready on a full channel if and only if its clone holds
nothing. -/
theorem ready_iff_of_full {state next : State ι} {label : Label ι}
    {index : Nat} (step : StateStep state label next)
    (polls : label.polls = some index) (full : state.channel.full = true)
    {before after : Endpoint ι} (here : state.endpoints[index]? = some before)
    (there : next.endpoints[index]? = some after) :
    (∃ method, after.last = some (method, .ready (.ok ()))) ↔
      before.sink.held = [] := by
  cases step with
  | clone | startSend | trySend | receive | dropReceiver => cases polls
  | @round _ moving endpoint method channel sink round enters current step =>
      have same : moving = index := by
        cases enters <;> simpa [Label.polls] using polls
      subst same
      rw [current] at here
      cases here
      obtain ⟨_, rfl⟩ | ⟨apart, _⟩ := getElem?_set_cases there
      · rw [← step.ready_iff_of_full full]
        cases round with
        | again => simp [Endpoint.conclude]
        | returned outcome => simp [Endpoint.conclude]
      · exact (apart rfl).elim

/-- On a full channel, a call of `poll_ready` returns `Ready(Ok)` if and only
if its clone holds nothing.  So while the receiver lives, the items that were
accepted and not received may exceed the capacity, by one for each clone and no
more; and they never do in a run in which every item is sent while the channel
is not full and after all items before it have been flushed. -/
theorem capacity_strict (capacity : Nat) :
    (∀ state : State ι,
      Reachable State.step (boundedSinkChannel capacity) state →
      ∀ (label : Label ι) (next : State ι) (index : Nat)
        (before after : Endpoint ι),
      state.step label = some next → label.polls = some index →
      state.channel.queue.length = capacity →
      state.endpoints[index]? = some before →
      next.endpoints[index]? = some after →
      ((∃ method, after.last = some (method, .ready (.ok ()))) ↔
        before.sink.held = [])) ∧
    (∀ state : State ι,
      Reachable State.step (boundedSinkChannel capacity) state →
      state.channel.connected = true →
      state.accepted ≤ fromSinks state.channel.received + capacity +
        state.endpoints.length) ∧
    (∀ state : State ι,
      Reachable (restrict State.oneByOne State.step)
        (boundedSinkChannel capacity) state →
      state.accepted ≤ fromSinks state.channel.received + capacity) := by
  refine ⟨?_, ?_, ?_⟩
  · intro state reachable label next index before after taken polls filled here
      there
    have same := (Kept.of_reachable reachable).capacity_eq
    have full : state.channel.full = true := by
      simp [Channel.full, same, filled]
    exact ready_iff_of_full (stateStep_of_step taken) polls full here there
  · intro state reachable connected
    exact (Kept.of_reachable reachable).accepted_le connected
  · intro state reachable
    have closed : ∀ (state : State ι) label next,
        restrict State.oneByOne State.step state label = some next →
        Kept capacity state ∧ Bounded capacity state →
        Kept capacity next ∧ Bounded capacity next := by
      intro state label next taken premise
      obtain ⟨kept, bounded⟩ := premise
      obtain ⟨calm, stepped⟩ := step_of_restrict taken
      have step := stateStep_of_step stepped
      exact ⟨kept.step step, bounded.step kept calm step⟩
    exact (reachable.invariant closed
      ⟨.initial capacity, Nat.zero_le _⟩).2

/-- The only slot is filled through one clone while the other one holds an
item. -/
def fullWithHeldItem : List (Label Nat) :=
  [.clone 0, .poll 0 .pollReady .refused, .startSend 0 1,
    .poll 1 .pollReady .refused, .startSend 1 2, .poll 0 .pollFlush .accepted]

/-- The only slot is filled, and no clone holds an item. -/
def fullWithoutHeldItem : List (Label Nat) :=
  [.clone 0, .poll 0 .pollReady .refused, .startSend 0 1,
    .poll 0 .pollFlush .accepted, .poll 1 .pollFlush .refused]

theorem capacity_strict_oneSlot :
    (∃ (state next : State Nat) (after : Endpoint Nat),
      run State.step fullWithHeldItem (boundedSinkChannel 1) = some state ∧
      state.step (.poll 1 .pollReady .refused) = some next ∧
      next.endpoints[1]? = some after ∧
      ¬ ∃ method, after.last = some (method, .ready (.ok ()))) ∧
    ∃ state : State Nat,
      run (restrict State.oneByOne State.step) fullWithoutHeldItem
        (boundedSinkChannel 1) = some state ∧
      state.channel.full = true ∧ state.accepted ≤ 1 := by
  constructor
  · have passed : (run State.step fullWithHeldItem
        (boundedSinkChannel 1 : State Nat)).any (fun state =>
          state.channel.queue.length == 1 &&
          (state.endpoints[1]?).any (fun before => before.sink.held == [2]) &&
          (state.step (.poll 1 .pollReady .refused)).any (fun next =>
            (next.endpoints[1]?).isSome)) = true := by
      decide
    obtain ⟨state, ended, facts⟩ := exists_run _ passed
    simp only [Bool.and_eq_true, beq_iff_eq, Option.any_eq_true,
      Option.isSome_iff_exists] at facts
    obtain ⟨⟨filled, before, here, holds⟩, next, taken, after, there⟩ := facts
    refine ⟨state, next, after, ended, taken, there, ?_⟩
    rw [(capacity_strict 1).1 state ⟨fullWithHeldItem, ended⟩ _ next 1 before
      after taken rfl filled here there, holds]
    simp
  · have passed : (run (restrict State.oneByOne State.step) fullWithoutHeldItem
        (boundedSinkChannel 1 : State Nat)).any (fun state =>
          state.channel.full && fromSinks state.channel.received == 0) =
        true := by
      decide
    obtain ⟨state, ended, facts⟩ := exists_run _ passed
    simp only [Bool.and_eq_true, beq_iff_eq] at facts
    have bound := (capacity_strict 1).2.2 state ⟨fullWithoutHeldItem, ended⟩
    exact ⟨state, ended, facts.1, by omega⟩

/-- The first clone fills the only slot and is ready again; the second one,
which is idle, is ready although the channel is full.  Both then accept an
item. -/
def slotPerClone : List (Label Nat) :=
  [.clone 0, .poll 0 .pollReady .refused, .startSend 0 1,
    .poll 0 .pollReady .accepted]

theorem capacity_exceeded_by_clones :
    ∃ state next final : State Nat,
      run State.step slotPerClone (boundedSinkChannel 1) = some state ∧
      state.channel.queue.length = 1 ∧
      state.step (.poll 1 .pollReady .refused) = some next ∧
      (next.endpoints[1]?).bind (·.last) =
        some (.pollReady, .ready (.ok ())) ∧
      run State.step [.startSend 1 2, .startSend 0 3] next = some final ∧
      final.accepted = 3 ∧ fromSinks final.channel.received + 1 < 3 := by
  have passed : (run State.step slotPerClone
      (boundedSinkChannel 1 : State Nat)).any (fun state =>
        state.channel.queue.length == 1 &&
        (state.step (.poll 1 .pollReady .refused)).any (fun next =>
          (next.endpoints[1]?).bind (·.last) ==
            some (.pollReady, .ready (.ok ())) &&
          (run State.step [.startSend 1 2, .startSend 0 3] next).any
            (fun final => final.accepted == 3 &&
              fromSinks final.channel.received == 0))) = true := by
    decide
  obtain ⟨state, ended, facts⟩ := exists_run _ passed
  simp only [Bool.and_eq_true, beq_iff_eq, Option.any_eq_true] at facts
  obtain ⟨filled, next, polled, ready, final, sent, accepted, received⟩ := facts
  exact ⟨state, next, final, ended, filled, polled, ready, sent, accepted,
    by omega⟩

end HoprUtilities.Network.Crossfire
