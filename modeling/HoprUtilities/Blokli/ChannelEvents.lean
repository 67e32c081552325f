import HoprUtilities.Blokli.ReferenceHost

/-!
# The events of channels

Which updates of the graph are reported, and whether the events tell enough to
rebuild the cache.  An event is derived from the status and the balance alone,
so an update that only moves the ticket index or the epoch is silent, and so is
the first sight of a channel that is not open.
-/

namespace HoprUtilities.Blokli.Connector

open HoprUtilities.Lib

/-- The update says something new about the channel. -/
def Changes : Option ChannelEntry → ChannelEntry → Prop
  | none, new => new.status ≠ .closed
  | some old, new => old.status ≠ new.status ∨ old.balance ≠ new.balance ∨
      old.ticketIndex ≠ new.ticketIndex ∨ old.channelEpoch ≠ new.channelEpoch

/-- A change has one event with the new entry, and a repeated entry has
none. -/
structure Announced (old : Option ChannelEntry) (new : ChannelEntry)
    (event : Option ChainEvent) : Prop where
  changed : Changes old new → ∃ told, event = some told ∧ told.channel = new
  same : old = some new → event = none

/-- The channel was not cached and is open, is cached as it is, or differs from
the cached one in its status or balance. -/
def Reported : Option ChannelEntry → ChannelEntry → Prop
  | none, new => new.status = .opened
  | some old, new => old = new ∨ old.status ≠ new.status ∨
      old.balance ≠ new.balance

section Event

variable {old : Option ChannelEntry} {new : ChannelEntry}

theorem channel_of_eventOf {event : ChainEvent}
    (told : eventOf old new = some event) : event.channel = new := by
  unfold eventOf at told
  split at told
  · split at told
    · cases told
      rfl
    · cases told
  · split_ifs at told
    · split at told <;> cases told <;> rfl
    all_goals
      cases told
      rfl

theorem eventOf_none_iff : eventOf none new = none ↔ new.status ≠ .opened := by
  simp [eventOf]

theorem eventOf_some_iff {cached : ChannelEntry} :
    eventOf (some cached) new = none ↔
      cached.status = new.status ∧ cached.balance = new.balance := by
  constructor
  · intro silent
    by_contra differ
    unfold eventOf at silent
    dsimp only at silent
    rw [if_neg differ] at silent
    split_ifs at silent
    split at silent <;> cases silent
  · intro same
    simp [eventOf, same]

/-- A silent update that is reported well repeats the cached entry. -/
theorem Reported.cached_of_silent (reported : Reported old new)
    (silent : eventOf old new = none) : old = some new := by
  cases old with
  | none => exact (eventOf_none_iff.mp silent reported).elim
  | some cached =>
      obtain ⟨status, balance⟩ := eventOf_some_iff.mp silent
      rcases reported with same | changed | changed
      · rw [same]
      · exact (changed status).elim
      · exact (changed balance).elim

theorem silent_of_not_reported (unreported : ¬Reported old new) :
    eventOf old new = none := by
  cases old with
  | none => exact eventOf_none_iff.mpr unreported
  | some cached =>
      simp only [Reported, not_or, not_not] at unreported
      exact eventOf_some_iff.mpr unreported.2

theorem Reported.announced (reported : Reported old new) :
    Announced old new (eventOf old new) := by
  constructor
  · intro changes
    cases told : eventOf old new with
    | none =>
        rw [reported.cached_of_silent told] at changes
        simp [Changes] at changes
    | some event => exact ⟨event, rfl, channel_of_eventOf told⟩
  · intro cached
    rw [cached]
    exact eventOf_some_iff.mpr ⟨rfl, rfl⟩

end Event

section Updates

variable (reader : Reader)

def View.ingestAll (view : View) (updates : List GraphEntry) : View :=
  updates.foldl (View.ingest reader) view

/-- The events that a sequence of updates broadcasts. -/
def View.events : View → List GraphEntry → List ChainEvent
  | _, [] => []
  | view, entry :: rest =>
      (view.event? reader entry).toList ++
        View.events (view.ingest reader entry) rest

/-- What a receiver of the events knows about the channels. -/
def replay (channels : IndexMap ChannelId ChannelEntry)
    (events : List ChainEvent) : IndexMap ChannelId ChannelEntry :=
  events.foldl (fun known event =>
    known.put (event.channel.getId reader) event.channel) channels

end Updates

section Replay

variable {reader : Reader} {view : View} {entry : GraphEntry}

theorem ingest_of_convert (view : View) {source destination : AccountEntry}
    {new : ChannelEntry}
    (converts : entry.convert? reader = some (source, destination, new)) :
    (view.ingest reader entry).channels =
        view.channels.put (new.getId reader) new ∧
      view.event? reader entry =
        eventOf (view.channels.get? (new.getId reader)) new := by
  simp [View.ingest, View.event?, converts, View.setChannel, View.setAccount]

theorem ingestAll_singleton (view : View) :
    view.ingestAll reader [entry] = view.ingest reader entry := by
  simp [View.ingestAll]

theorem events_snoc {updates : List GraphEntry} :
    ∀ {view : View}, view.events reader (updates ++ [entry]) =
      view.events reader updates ++
        ((view.ingestAll reader updates).event? reader entry).toList := by
  induction updates with
  | nil =>
      intro view
      simp [View.events, View.ingestAll]
  | cons first rest induction =>
      intro view
      simp only [List.cons_append, View.events, induction, List.append_assoc]
      rfl

theorem replay_event? {channels : IndexMap ChannelId ChannelEntry}
    (known : ∀ id, channels.get? id = view.channels.get? id)
    (reported : ∀ source destination new,
      entry.convert? reader = some (source, destination, new) →
      Reported (view.channels.get? (new.getId reader)) new) (id : ChannelId) :
    (replay reader channels (view.event? reader entry).toList).get? id =
      (view.ingest reader entry).channels.get? id := by
  cases converts : entry.convert? reader with
  | none =>
      simp only [View.event?, View.ingest, converts]
      exact known id
  | some parts =>
      obtain ⟨source, destination, new⟩ := parts
      obtain ⟨channels', event⟩ := ingest_of_convert view converts
      rw [channels', event, IndexMap.get?_put]
      cases told : eventOf (view.channels.get? (new.getId reader)) new with
      | none =>
          have cached :=
            (reported source destination new converts).cached_of_silent told
          split
          · next same =>
              rw [same, ← cached]
              exact known _
          · exact known id
      | some event =>
          have carried := channel_of_eventOf told
          simp only [replay, Option.toList_some, List.foldl_cons,
            List.foldl_nil, carried, IndexMap.get?_put, known]

theorem replay_events {updates : List GraphEntry} :
    ∀ {view : View} {channels : IndexMap ChannelId ChannelEntry},
      (∀ id, channels.get? id = view.channels.get? id) →
      (∀ before entry rest source destination new,
        updates = before ++ entry :: rest →
        entry.convert? reader = some (source, destination, new) →
        Reported ((view.ingestAll reader before).channels.get?
          (new.getId reader)) new) →
      ∀ id, (replay reader channels (view.events reader updates)).get? id =
        (view.ingestAll reader updates).channels.get? id := by
  induction updates with
  | nil =>
      intro view channels known reported id
      exact known id
  | cons entry rest induction =>
      intro view channels known reported id
      have now := replay_event? known (reported [] entry rest · · · rfl)
      have later := induction now
        (fun before next after source destination new split converts =>
          reported (entry :: before) next after source destination new
            (by rw [split, List.cons_append]) converts) id
      rw [View.events, replay, List.foldl_append]
      exact later

/-- The updates are announced, and at every moment the events replayed over
the first cache give the cache of that moment, exactly when every update is
reported. -/
theorem changes_announced_iff_reported (reader : Reader) (view : View)
    (updates : List GraphEntry) :
    ((∀ before entry rest source destination new,
        updates = before ++ entry :: rest →
        entry.convert? reader = some (source, destination, new) →
        Announced ((view.ingestAll reader before).channels.get?
          (new.getId reader)) new
          ((view.ingestAll reader before).event? reader entry)) ∧
      ∀ before rest, updates = before ++ rest → ∀ id,
        (replay reader view.channels (view.events reader before)).get? id =
          (view.ingestAll reader before).channels.get? id) ↔
      ∀ before entry rest source destination new,
        updates = before ++ entry :: rest →
        entry.convert? reader = some (source, destination, new) →
        Reported ((view.ingestAll reader before).channels.get?
          (new.getId reader)) new := by
  constructor
  · rintro ⟨_, replays⟩ before entry rest source destination new split converts
    by_contra unreported
    obtain ⟨channels, event⟩ :=
      ingest_of_convert (view.ingestAll reader before) converts
    have silent := silent_of_not_reported unreported
    have here := replays before (entry :: rest) split (new.getId reader)
    have next := replays (before ++ [entry]) rest (by simp [split])
      (new.getId reader)
    -- nothing was told, so the cache must have held the entry already
    have grown : view.ingestAll reader (before ++ [entry]) =
        (view.ingestAll reader before).ingest reader entry := by
      simp [View.ingestAll]
    rw [events_snoc, event, silent, Option.toList_none, List.append_nil, here,
      grown, channels, IndexMap.get?_put_self] at next
    rw [next] at unreported
    exact unreported (.inl rfl)
  · intro reported
    constructor
    · intro before entry rest source destination new split converts
      rw [(ingest_of_convert _ converts).2]
      exact (reported before entry rest source destination new split
        converts).announced
    · intro before rest split
      apply replay_events (fun id => rfl)
      intro earlier entry later source destination new cut converts
      exact reported earlier entry (later ++ rest) source destination new
        (by simp [split, cut]) converts

end Replay

def aliceModel : Account where
  chainKey := hexEncode alice
  keyid := 1
  multiAddresses := []
  packetKey := hexEncode (Vector.replicate 32 (0x11 : UInt8))
  safeAddress := none

def bobModel : Account where
  chainKey := hexEncode bob
  keyid := 2
  multiAddresses := []
  packetKey := hexEncode (Vector.replicate 32 (0x22 : UInt8))
  safeAddress := none

/-- The channel between the two nodes as it is cached. -/
def aliceToBobEntry : ChannelEntry where
  source := alice
  destination := bob
  balance := 3 * baseUnit
  ticketIndex := 0
  status := .opened
  channelEpoch := 1

def channelView : View where
  accounts := IndexMap.empty
  channels := IndexMap.empty.put (joinAddresses alice bob) aliceToBobEntry

/-- A ticket of no value has been redeemed. -/
def redeemedUpdate : GraphEntry where
  source := aliceModel
  destination := bobModel
  channel := { aliceToBob with ticketIndex := "1" }

/-- The ticket index moves and no event tells it. -/
theorem moved_ticket_index_is_silent :
    ∃ source destination new,
      redeemedUpdate.convert? .reference = some (source, destination, new) ∧
        channelView.channels.get? (new.getId .reference) =
          some aliceToBobEntry ∧
        Changes (some aliceToBobEntry) new ∧
        channelView.event? .reference redeemedUpdate = none ∧
        (replay .reference channelView.channels
            (channelView.events .reference [redeemedUpdate])).get?
            (joinAddresses alice bob) ≠
          (channelView.ingestAll .reference [redeemedUpdate]).channels.get?
            (joinAddresses alice bob) := by
  have converts : (redeemedUpdate.convert? .reference).any (fun parts =>
      parts.2.2.getId .reference = joinAddresses alice bob &&
      aliceToBobEntry.status = parts.2.2.status &&
      aliceToBobEntry.balance = parts.2.2.balance &&
      aliceToBobEntry.ticketIndex ≠ parts.2.2.ticketIndex) = true := by
    decide +kernel
  obtain ⟨⟨source, destination, new⟩, parts, facts⟩ :=
    (Option.any_eq_true _ _).mp converts
  simp only [Bool.and_eq_true, decide_eq_true_eq] at facts
  obtain ⟨⟨⟨id, status⟩, balance⟩, moved⟩ := facts
  have cached : channelView.channels.get? (joinAddresses alice bob) =
      some aliceToBobEntry := IndexMap.get?_put_self
  obtain ⟨channels, event⟩ := ingest_of_convert channelView parts
  rw [id] at channels event
  have silent : channelView.event? .reference redeemedUpdate = none := by
    rw [event, cached]
    exact if_pos ⟨status, balance⟩
  have held : channelView.channels.get? (new.getId .reference) =
      some aliceToBobEntry := by rw [id, cached]
  have changes : Changes (some aliceToBobEntry) new :=
    .inr (.inr (.inl moved))
  refine ⟨source, destination, new, parts, held, changes, silent, ?_⟩
  have untold : channelView.events .reference [redeemedUpdate] = [] := by
    simp [View.events, silent]
  rw [untold, ingestAll_singleton, channels, IndexMap.get?_put_self]
  intro same
  have entry : some aliceToBobEntry = some new := cached.symm.trans same
  exact moved (congrArg ChannelEntry.ticketIndex (Option.some.inj entry))

end HoprUtilities.Blokli.Connector
