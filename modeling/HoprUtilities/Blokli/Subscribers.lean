import HoprUtilities.Blokli.ChannelEvents
import HoprUtilities.Blokli.Faults
import HoprUtilities.Lib.Broadcast
import HoprUtilities.Lib.Threads
import HoprUtilities.Lib.Transition

/-!
# The subscribers of a connector

The embedding of the streams that `subscribe_with_state_sync` of
`src/testing/blokli/connector.rs` returns: a snapshot, then what the receiver
of the subscriber gets from the overflowing broadcast channel of `new`, and all
of it filtered by the events that a test withholds at that moment.  Subscribers
come and go, the background task announces events, and the test changes the
faults, all in any order.

A subscriber pulls one item at a time.  A `poll` of the source pulls until an
item passes the filter or there is none.  The channel is in another crate: it is
the parameter of the steps.
-/

namespace HoprUtilities.Blokli

open HoprUtilities.Lib
open HoprUtilities.Blokli.Connector (ChainEvent aliceToBobEntry)

variable {χ : Type}

/-- The capacity that `new` gives to the channel. -/
def eventCapacity : Nat := 256

/-- `first` is the snapshot that the subscriber began with, and `snapshot` what
is left of it.  The items in `shown` have reached the filter. -/
structure Subscriber where
  first : List ChainEvent
  snapshot : List ChainEvent
  shown : List ChainEvent
  delivered : List ChainEvent
  dropped : Bool

/-- The subscriber and its receiver have the same index. -/
structure Audience (χ : Type) where
  faults : ChainFaults
  events : χ
  subscribers : List Subscriber

inductive AudienceStep where
  | change (change : FaultChange)
  /-- The background task broadcasts an event. -/
  | announce (event : ChainEvent)
  | subscribe (snapshot : List ChainEvent)
  /-- A subscriber pulls an item through its filter. -/
  | pull (index : Nat)
  | drop (index : Nat)

namespace Subscriber

def begin (snapshot : List ChainEvent) : Subscriber where
  first := snapshot
  snapshot := snapshot
  shown := []
  delivered := []
  dropped := false

def filter (self : Subscriber) (faults : ChainFaults) (event : ChainEvent) :
    Subscriber :=
  { self with
    shown := self.shown ++ [event]
    delivered := if faults.isWithheld event then self.delivered
      else self.delivered ++ [event] }

end Subscriber

namespace Audience

def begin (faults : ChainFaults) (events : χ) : Audience χ where
  faults := faults
  events := events
  subscribers := []

variable (channel : Broadcast ChainEvent χ)

/-- The next item of a subscriber: from the snapshot, then from the channel. -/
def pull (self : Audience χ) (index : Nat) : Option (Audience χ) := do
  let subscriber ← self.subscribers[index]?
  match subscriber.dropped, subscriber.snapshot with
  | true, _ => none
  | false, event :: rest =>
      return { self with
        subscribers := self.subscribers.set index
          ({ subscriber with snapshot := rest }.filter self.faults event) }
  | false, [] =>
      let (event, events) ← channel.tryRecv self.events index
      return { self with
        events := events
        subscribers :=
          self.subscribers.set index (subscriber.filter self.faults event) }

def step (self : Audience χ) : AudienceStep → Option (Audience χ)
  | .change change => some { self with faults := self.faults.change change }
  | .announce event =>
      some { self with events := channel.tryBroadcast self.events event }
  | .subscribe snapshot =>
      some { self with
        events := channel.activate self.events
        subscribers := self.subscribers ++ [.begin snapshot] }
  | .pull index => self.pull channel index
  | .drop index => do
      let subscriber ← self.subscribers[index]?
      if subscriber.dropped then none
      else
        return { self with
          events := channel.drop self.events index
          subscribers :=
            self.subscribers.set index { subscriber with dropped := true } }

end Audience

/-- The items of the snapshot come first, and then the messages that the
receiver reads. -/
structure Subscriber.Follows (sent : List ChainEvent)
    (subscriber : Subscriber) (cursor : Cursor) : Prop where
  whole : subscriber.shown ++ subscriber.snapshot =
    subscriber.first ++ cursor.reads.filterMap (sent[·]?)
  waits : subscriber.snapshot ≠ [] → cursor.reads = []
  passed : subscriber.delivered.Sublist subscriber.shown

namespace Subscriber.Follows

variable {sent : List ChainEvent} {subscriber : Subscriber} {cursor : Cursor}

theorem delivered_filter (passed : subscriber.delivered.Sublist subscriber.shown)
    (faults : ChainFaults) (event : ChainEvent) :
    (subscriber.filter faults event).delivered.Sublist
      (subscriber.filter faults event).shown := by
  dsimp only [Subscriber.filter]
  split_ifs
  · exact passed.trans (List.sublist_append_left _ _)
  · exact passed.append (List.Sublist.refl _)

/-- More messages in the channel do not change those that were read. -/
theorem announced {capacity : Nat} (follows : subscriber.Follows sent cursor)
    (fair : cursor.Fair capacity sent.length) (message : ChainEvent) :
    subscriber.Follows (sent ++ [message]) cursor where
  whole := by
    rw [follows.whole]
    congr 1
    apply List.filterMap_congr
    intro number read
    have inside := (fair.inside number read).2
    have bound := fair.next_le
    exact (List.getElem?_append_left (by omega)).symm
  waits := follows.waits
  passed := follows.passed

theorem first_item {event : ChainEvent} {rest : List ChainEvent}
    (follows : subscriber.Follows sent cursor)
    (left : subscriber.snapshot = event :: rest) (faults : ChainFaults) :
    ({ subscriber with snapshot := rest }.filter faults event).Follows sent
      cursor where
  whole := by
    rw [Subscriber.filter, ← follows.whole, left]
    exact List.append_assoc ..
  waits _ := follows.waits (by simp [left])
  passed := delivered_filter follows.passed faults event

theorem message {next place : Nat} {event : ChainEvent}
    (follows : subscriber.Follows sent cursor)
    (ended : subscriber.snapshot = [])
    (here : sent[place]? = some event) (faults : ChainFaults) :
    (subscriber.filter faults event).Follows sent
      { cursor with next := next, reads := cursor.reads ++ [place] } where
  whole := by
    have whole := follows.whole
    rw [ended, List.append_nil] at whole
    dsimp only [Subscriber.filter]
    rw [ended, List.append_nil, whole, List.filterMap_append,
      List.append_assoc]
    simp [here]
  waits left := absurd ended left
  passed := delivered_filter follows.passed faults event

end Subscriber.Follows

namespace Audience

variable {channel : Broadcast ChainEvent χ}
  {transcript : χ → Transcript ChainEvent} {state next : Audience χ}
  {label : AudienceStep} {index : Nat}

theorem pull_eq_some (taken : state.pull channel index = some next) :
    ∃ subscriber, state.subscribers[index]? = some subscriber ∧
      ((∃ event rest, subscriber.snapshot = event :: rest ∧
          next = { state with
            subscribers := state.subscribers.set index
              ({ subscriber with snapshot := rest }.filter state.faults
                event) }) ∨
        ∃ event events, subscriber.snapshot = [] ∧
          channel.tryRecv state.events index = some (event, events) ∧
          next = { state with
            events := events
            subscribers := state.subscribers.set index
              (subscriber.filter state.faults event) }) := by
  obtain ⟨subscriber, here, taken⟩ := Option.bind_eq_some_iff.mp taken
  refine ⟨subscriber, here, ?_⟩
  cases gone : subscriber.dropped with
  | true =>
      rw [gone] at taken
      cases taken
  | false =>
      rw [gone] at taken
      cases left : subscriber.snapshot with
      | cons event rest =>
          rw [left] at taken
          cases taken
          exact .inl ⟨event, rest, rfl, rfl⟩
      | nil =>
          rw [left] at taken
          obtain ⟨⟨event, events⟩, received, taken⟩ :=
            Option.bind_eq_some_iff.mp taken
          cases taken
          exact .inr ⟨event, events, rfl, received, rfl⟩

theorem drop_eq_some (taken : state.step channel (.drop index) = some next) :
    ∃ subscriber, state.subscribers[index]? = some subscriber ∧
      next = { state with
        events := channel.drop state.events index
        subscribers :=
          state.subscribers.set index { subscriber with dropped := true } } := by
  obtain ⟨subscriber, here, taken⟩ := Option.bind_eq_some_iff.mp taken
  split_ifs at taken
  cases taken
  exact ⟨subscriber, here, rfl⟩

/-- A message that is received, in the transcript. -/
theorem received_eq (overflows : channel.Overflows eventCapacity transcript)
    {events after : χ} {event : ChainEvent}
    (received : channel.tryRecv events index = some (event, after)) :
    (transcript events).tryRecv eventCapacity index =
      some (event, transcript after) := by
  rw [← overflows.tryRecv, received]
  rfl

/-- Each subscriber follows its receiver. -/
structure Sound (transcript : χ → Transcript ChainEvent)
    (state : Audience χ) : Prop where
  fair : (transcript state.events).Fair eventCapacity
  paired : state.subscribers.length =
    (transcript state.events).cursors.length
  follows : ∀ {index : Nat} {subscriber : Subscriber} {cursor : Cursor},
    state.subscribers[index]? = some subscriber →
    (transcript state.events).cursors[index]? = some cursor →
    subscriber.Follows (transcript state.events).sent cursor

theorem Sound.announce (overflows : channel.Overflows eventCapacity transcript)
    (sound : state.Sound transcript) (event : ChainEvent) :
    Sound transcript { state with
      events := channel.tryBroadcast state.events event } := by
  refine ⟨?_, ?_, ?_⟩
  all_goals
    dsimp only
    rw [overflows.tryBroadcast]
  · exact sound.fair.tryBroadcast event
  · rw [Transcript.cursors_tryBroadcast]
    exact sound.paired
  · intro index subscriber cursor here there
    rw [Transcript.cursors_tryBroadcast] at there
    have follows := sound.follows here there
    have fair := sound.fair cursor (List.mem_of_getElem? there)
    unfold Transcript.tryBroadcast
    split_ifs
    · exact follows.announced fair event
    · exact follows

theorem Sound.subscribe (overflows : channel.Overflows eventCapacity transcript)
    (sound : state.Sound transcript) (snapshot : List ChainEvent) :
    Sound transcript { state with
      events := channel.activate state.events
      subscribers := state.subscribers ++ [.begin snapshot] } := by
  have paired := sound.paired
  refine ⟨?_, ?_, ?_⟩
  all_goals
    dsimp only
    rw [overflows.activate]
  · exact sound.fair.activate
  · simp only [Transcript.activate, List.length_append,
      List.length_singleton, paired]
  · intro index subscriber cursor here there
    rcases getElem?_concat_cases here with old | ⟨last, rfl⟩
    · rcases getElem?_concat_cases there with kept | ⟨last, _⟩
      · exact sound.follows old kept
      · have bound := (List.getElem?_eq_some_iff.mp old).1
        omega
    · rcases getElem?_concat_cases there with kept | ⟨_, rfl⟩
      · have bound := (List.getElem?_eq_some_iff.mp kept).1
        omega
      · refine ⟨?_, fun _ => rfl, List.Sublist.refl _⟩
        simp [Subscriber.begin, Cursor.start]

theorem Sound.pull (overflows : channel.Overflows eventCapacity transcript)
    (sound : state.Sound transcript)
    (taken : state.pull channel index = some next) :
    next.Sound transcript := by
  obtain ⟨subscriber, here, rest⟩ := pull_eq_some taken
  rcases rest with ⟨event, rest, left, rfl⟩ |
    ⟨event, events, ended, received, rfl⟩
  · refine ⟨sound.fair, ?_, ?_⟩
    · rw [List.length_set]
      exact sound.paired
    · intro other otherSubscriber otherCursor isHere isThere
      rcases getElem?_set_cases isHere with ⟨rfl, rfl⟩ | ⟨_, old⟩
      · exact (sound.follows here isThere).first_item left state.faults
      · exact sound.follows old isThere
  · have taken := received_eq overflows received
    have fair := sound.fair.tryRecv taken
    obtain ⟨cursor, place, there, _, _, found, same⟩ :=
      Transcript.tryRecv_eq_some taken
    refine ⟨fair, ?_, ?_⟩
    all_goals
      dsimp only
      rw [same]
    · rw [List.length_set, List.length_set]
      exact sound.paired
    · intro other otherSubscriber otherCursor isHere isThere
      rcases getElem?_set_cases isHere with ⟨rfl, rfl⟩ | ⟨apart, old⟩
      · rcases getElem?_set_cases isThere with ⟨_, rfl⟩ | ⟨apart, _⟩
        · exact (sound.follows here there).message ended found state.faults
        · exact absurd rfl apart
      · rcases getElem?_set_cases isThere with ⟨same, _⟩ | ⟨_, stays⟩
        · exact absurd same apart
        · exact sound.follows old stays

theorem Sound.drop (overflows : channel.Overflows eventCapacity transcript)
    (sound : state.Sound transcript)
    (taken : state.step channel (.drop index) = some next) :
    next.Sound transcript := by
  obtain ⟨subscriber, here, rfl⟩ := drop_eq_some taken
  have follows : ∀ {other : Nat} {content : Subscriber} {cursor : Cursor},
      (state.subscribers.set index
        { subscriber with dropped := true })[other]? = some content →
      (transcript state.events).cursors[other]? = some cursor →
      content.Follows (transcript state.events).sent cursor := by
    intro other content cursor isHere isThere
    rcases getElem?_set_cases isHere with ⟨rfl, rfl⟩ | ⟨_, old⟩
    · have kept := sound.follows here isThere
      exact ⟨kept.whole, kept.waits, kept.passed⟩
    · exact sound.follows old isThere
  refine ⟨?_, ?_, ?_⟩
  all_goals
    dsimp only
    rw [overflows.drop]
  · exact sound.fair.drop index
  · rw [List.length_set, sound.paired]
    unfold Transcript.drop
    split
    · rw [List.length_set]
    · rfl
  · intro other content cursor isHere isThere
    unfold Transcript.drop at isThere ⊢
    split at isThere
    · next old there =>
        rcases getElem?_set_cases isThere with ⟨rfl, rfl⟩ | ⟨_, kept⟩
        · have held := follows isHere there
          exact ⟨held.whole, held.waits, held.passed⟩
        · exact follows isHere kept
    · next missing => exact follows isHere isThere

theorem Sound.step (overflows : channel.Overflows eventCapacity transcript)
    (sound : state.Sound transcript)
    (taken : state.step channel label = some next) :
    next.Sound transcript := by
  cases label with
  | change change =>
      cases taken
      exact ⟨sound.fair, sound.paired, sound.follows⟩
  | announce event =>
      cases taken
      exact sound.announce overflows event
  | subscribe snapshot =>
      cases taken
      exact sound.subscribe overflows snapshot
  | pull index => exact sound.pull overflows taken
  | drop index => exact sound.drop overflows taken

/-- An item that reaches the filter passes if its kind is not withheld at that
moment. -/
theorem shown_of_step (taken : state.step channel label = some next)
    {old : Subscriber} (here : state.subscribers[index]? = some old) :
    ∃ new items, next.subscribers[index]? = some new ∧
      new.first = old.first ∧ new.shown = old.shown ++ items ∧
      new.delivered = old.delivered ++
        items.filter (fun event => !state.faults.isWithheld event) := by
  have unmoved : ∃ new items, state.subscribers[index]? = some new ∧
      new.first = old.first ∧ new.shown = old.shown ++ items ∧
      new.delivered = old.delivered ++
        items.filter (fun event => !state.faults.isWithheld event) :=
    ⟨old, [], here, rfl, (List.append_nil _).symm, (List.append_nil _).symm⟩
  have inside := (List.getElem?_eq_some_iff.mp here).1
  -- the subscriber that pulls is this one, or another
  have pulled : ∀ (other : Nat) (subscriber : Subscriber) (rest : List ChainEvent)
      (event : ChainEvent), state.subscribers[other]? = some subscriber →
      ∃ new items, (state.subscribers.set other
          ({ subscriber with snapshot := rest }.filter state.faults
            event))[index]? = some new ∧
        new.first = old.first ∧ new.shown = old.shown ++ items ∧
        new.delivered = old.delivered ++
          items.filter (fun event => !state.faults.isWithheld event) := by
    intro other subscriber rest event there
    by_cases same : other = index
    · subst same
      rw [there] at here
      cases here
      refine ⟨_, [event], List.getElem?_set_self inside, rfl, rfl, ?_⟩
      cases withheld : state.faults.isWithheld event <;>
        simp [Subscriber.filter, withheld]
    · rw [List.getElem?_set_ne same]
      exact unmoved
  cases label with
  | change change =>
      cases taken
      exact unmoved
  | announce event =>
      cases taken
      exact unmoved
  | subscribe snapshot =>
      cases taken
      dsimp only
      rw [List.getElem?_append_left inside]
      exact unmoved
  | pull other =>
      obtain ⟨subscriber, there, rest⟩ := pull_eq_some taken
      rcases rest with ⟨event, rest, left, rfl⟩ |
        ⟨event, events, ended, received, rfl⟩
      · exact pulled other subscriber rest event there
      · exact pulled other subscriber subscriber.snapshot event there
  | drop other =>
      obtain ⟨subscriber, there, rfl⟩ := drop_eq_some taken
      by_cases same : other = index
      · subst same
        rw [there] at here
        cases here
        exact ⟨_, [], List.getElem?_set_self inside, rfl,
          (List.append_nil _).symm, (List.append_nil _).symm⟩
      · dsimp only
        rw [List.getElem?_set_ne same]
        exact unmoved

/-- The change that ends a time in which a kind is withheld, or is not. -/
def turn (kind : EventKind) (withheld : Bool) : AudienceStep :=
  .change (if withheld then .deliverEvent kind else .withholdEvent kind)

theorem withheld_of_step {kind : EventKind}
    (taken : state.step channel label = some next)
    (steady : label ≠ turn kind (state.faults.withheldEvents kind)) :
    next.faults.withheldEvents kind = state.faults.withheldEvents kind := by
  cases label with
  | change change =>
      cases taken
      apply ChainFaults.withheld_change
      intro same
      exact steady (congrArg AudienceStep.change same)
  | announce event =>
      cases taken
      rfl
  | subscribe snapshot =>
      cases taken
      rfl
  | pull other =>
      obtain ⟨_, _, rest⟩ := pull_eq_some taken
      rcases rest with ⟨_, _, _, rfl⟩ | ⟨_, _, _, _, rfl⟩ <;> rfl
  | drop other =>
      obtain ⟨_, _, rfl⟩ := drop_eq_some taken
      rfl

/-- What a subscriber is shown of a kind while nobody begins or ceases to
withhold it: all of it gets through, or none. -/
theorem kind_is_lost_while_withheld {kind : EventKind}
    {labels : List AudienceStep} :
    ∀ {state final : Audience χ} {old new : Subscriber},
      run (step channel) labels state = some final →
      (∀ label ∈ labels,
        label ≠ turn kind (state.faults.withheldEvents kind)) →
      state.subscribers[index]? = some old →
      final.subscribers[index]? = some new →
      ∃ shown delivered, new.shown = old.shown ++ shown ∧
        new.delivered = old.delivered ++ delivered ∧
        delivered.Sublist shown ∧
        delivered.filter (fun event => EventKind.of event = kind) =
          if state.faults.withheldEvents kind then []
          else shown.filter fun event => EventKind.of event = kind := by
  induction labels with
  | nil =>
      intro state final old new ran _ here there
      cases ran
      rw [here] at there
      cases there
      refine ⟨[], [], (List.append_nil _).symm, (List.append_nil _).symm,
        List.Sublist.refl _, ?_⟩
      exact (ite_self _).symm
  | cons label rest induction =>
      intro state final old new ran steady here there
      obtain ⟨next, taken, tail⟩ := Option.bind_eq_some_iff.mp ran
      have still := withheld_of_step taken (steady label List.mem_cons_self)
      obtain ⟨middle, items, isMiddle, _, first, passed⟩ :=
        shown_of_step taken here
      obtain ⟨shown, delivered, later, laterPassed, fewer, filtered⟩ :=
        induction tail (by
          intro other member
          rw [still]
          exact steady other (List.mem_cons_of_mem _ member)) isMiddle there
      refine ⟨items ++ shown,
        items.filter (fun event => !state.faults.isWithheld event) ++ delivered,
        ?_, ?_, List.filter_sublist.append fewer, ?_⟩
      · rw [later, first, List.append_assoc]
      · rw [laterPassed, passed, List.append_assoc]
      · rw [List.filter_append, List.filter_append, filtered, still,
          List.filter_filter]
        -- an event of the kind is withheld just if the kind is
        cases withheld : state.faults.withheldEvents kind with
        | true =>
            simp only [↓reduceIte, List.append_nil, List.filter_eq_nil_iff]
            intro event _ both
            simp only [Bool.and_eq_true, decide_eq_true_eq, Bool.not_eq_true',
              ChainFaults.isWithheld] at both
            rw [both.1, withheld] at both
            exact absurd both.2 Bool.noConfusion
        | false =>
            simp only [Bool.false_eq_true, ↓reduceIte]
            congr 1
            apply List.filter_congr
            intro event _
            by_cases same : EventKind.of event = kind
            · simp [ChainFaults.isWithheld, same, withheld]
            · simp [same]

def closing : ChainEvent := .channelClosureInitiated aliceToBobEntry

def closed : ChainEvent := .channelClosed aliceToBobEntry

/-- The channel of `new`. -/
def eventChannel :
    Broadcast ChainEvent (BoundedQueue ChainEvent eventCapacity) :=
  BoundedQueue.broadcast ChainEvent eventCapacity

/-- The snapshot has reached the subscriber before the test withholds
closures. -/
def hearing : Audience (BoundedQueue ChainEvent eventCapacity) where
  faults := ChainFaults.new.change (.withholdEvent .closed)
  events :=
    eventChannel.tryBroadcast (eventChannel.activate BoundedQueue.empty) closing
  subscribers := [⟨[closing], [], [closing], [closing], false⟩]

/-- The closure is announced and shown, and does not get through. -/
theorem kind_is_lost_while_withheld_closed :
    ∃ final new, run (step eventChannel)
        [.pull 0, .announce closed, .pull 0] hearing = some final ∧
      final.subscribers[0]? = some new ∧
      ∃ shown delivered, new.shown = [closing] ++ shown ∧
        new.delivered = [closing] ++ delivered ∧ delivered.Sublist shown ∧
        delivered.filter (fun event => EventKind.of event = .closed) =
          if hearing.faults.withheldEvents .closed then []
          else shown.filter fun event => EventKind.of event = .closed := by
  obtain ⟨final, ran⟩ : ∃ final, run (step eventChannel)
      [.pull 0, .announce closed, .pull 0] hearing = some final := ⟨_, rfl⟩
  have here : final.subscribers[0]? = some
      ⟨[closing], [], [closing, closing, closed], [closing, closing],
        false⟩ := by
    cases ran
    rfl
  refine ⟨final, _, ran, here, ?_⟩
  have steady : ∀ label : AudienceStep,
      label ∈ [.pull 0, .announce closed, .pull 0] →
      label ≠ turn .closed (hearing.faults.withheldEvents .closed) := by
    intro label member
    simp only [List.mem_cons, List.not_mem_nil, or_false] at member
    rcases member with rfl | rfl | rfl <;> exact AudienceStep.noConfusion
  exact kind_is_lost_while_withheld ran steady rfl here

end Audience

end HoprUtilities.Blokli
