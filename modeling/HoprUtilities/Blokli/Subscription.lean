import HoprUtilities.Blokli.ChannelEvents
import HoprUtilities.Lib.Transition

/-!
# Subscribing to the events

The embedding of `subscribe_with_state_sync` of
`src/testing/blokli/connector.rs`, which runs beside the background task.  The
subscriber first reads the cached channels, shard by shard, and then activates
its receiver.  The background task writes the cache and then broadcasts.  An
event goes to the receivers that are active at that moment, and to no others.

An update that comes after the subscriber has read the shard of its channel is
not in the snapshot.  If it is broadcast before the receiver is active it is
not in the stream either.
-/

namespace HoprUtilities.Blokli.Connector

open HoprUtilities.Lib

/-- Where the concurrent map keeps its keys.  Each shard has a lock of its
own. -/
structure Sharding where
  count : Nat
  shard : ChannelId → Fin count

/-- An event with the number of its broadcast.  It is late if the subscriber
had read the channel before the cache was written. -/
structure Notice where
  number : Nat
  event : ChainEvent
  late : Bool
  deriving DecidableEq

structure SyncState where
  view : View
  /-- The event that the background task is about to broadcast. -/
  derived : Option Notice
  /-- How many shards the subscriber has read. -/
  shardsRead : Nat
  snapshot : List ChainEvent
  active : Bool
  /-- The events that follow the snapshot in the stream. -/
  live : List Notice
  /-- All broadcasts, in their order. -/
  sent : List Notice

inductive SyncStep where
  /-- The background task takes an update, writes it and derives its event. -/
  | update (entry : GraphEntry)
  | broadcast
  /-- The subscriber reads the next shard. -/
  | readShard
  | activate
  deriving DecidableEq

def snapshotEvent (channel : ChannelEntry) : Option ChainEvent :=
  match channel.status with
  | .opened => some (.channelOpened channel)
  | .pendingToClose _ => some (.channelClosureInitiated channel)
  | .closed => none

/-- A subscriber that has not begun. -/
def SyncState.begin (view : View) : SyncState where
  view := view
  derived := none
  shardsRead := 0
  snapshot := []
  active := false
  live := []
  sent := []

/-- The event of an update, and whether it is late. -/
def SyncState.notice? (reader : Reader) (sharding : Sharding)
    (state : SyncState) (entry : GraphEntry) : Option Notice :=
  (state.view.event? reader entry).map fun event =>
    { number := state.sent.length
      event := event
      late := decide ((sharding.shard (event.channel.getId reader)).val <
        state.shardsRead) }

def SyncState.step (reader : Reader) (sharding : Sharding)
    (state : SyncState) : SyncStep → Option SyncState
  | .update entry =>
      if state.derived = none then
        some { state with
          view := state.view.ingest reader entry
          derived := state.notice? reader sharding entry }
      else none
  | .broadcast =>
      match state.derived with
      | some notice =>
          some { state with
            derived := none
            sent := state.sent ++ [notice]
            live := if state.active then state.live ++ [notice]
              else state.live }
      | none => none
  | .readShard =>
      if state.shardsRead < sharding.count then
        some { state with
          shardsRead := state.shardsRead + 1
          snapshot := state.snapshot ++
            (state.view.channels.entries.filter fun entry =>
              decide ((sharding.shard entry.1).val = state.shardsRead)).filterMap
              fun entry => snapshotEvent entry.2 }
      else none
  | .activate =>
      if state.shardsRead = sharding.count ∧ state.active = false then
        some { state with active := true }
      else none

/-- The late events are in the stream, in the order of their broadcasts. -/
def SyncState.Complete (state : SyncState) : Prop :=
  (state.sent.filter (·.late)).Sublist state.live

/-- No late event is broadcast before the receiver is active. -/
def SyncState.keeps (state : SyncState) : SyncStep → Bool
  | .broadcast => state.active || !state.derived.any (·.late)
  | _ => true

section Steps

variable {reader : Reader} {sharding : Sharding} {state next : SyncState}
  {label : SyncStep}

structure SyncState.Numbered (state : SyncState) : Prop where
  sent : ∀ notice ∈ state.sent, notice.number < state.sent.length
  live : ∀ notice ∈ state.live, notice.number < state.sent.length
  derived : ∀ notice, state.derived = some notice →
    notice.number = state.sent.length

/-- What a step does to the events. -/
inductive Told (state : SyncState) : SyncStep → SyncState → Prop where
  | updated {entry : GraphEntry} {next : SyncState}
      (idle : state.derived = none)
      (numbered : ∀ notice, next.derived = some notice →
        notice.number = state.sent.length)
      (sent : next.sent = state.sent) (live : next.live = state.live) :
      Told state (.update entry) next
  | heard {notice : Notice} {next : SyncState}
      (derived : state.derived = some notice) (active : state.active = true)
      (idle : next.derived = none) (sent : next.sent = state.sent ++ [notice])
      (live : next.live = state.live ++ [notice]) :
      Told state .broadcast next
  | unheard {notice : Notice} {next : SyncState}
      (derived : state.derived = some notice) (inactive : state.active = false)
      (idle : next.derived = none) (sent : next.sent = state.sent ++ [notice])
      (live : next.live = state.live) :
      Told state .broadcast next
  | unmoved {label : SyncStep} {next : SyncState}
      (kept : state.keeps label = true) (derived : next.derived = state.derived)
      (sent : next.sent = state.sent) (live : next.live = state.live) :
      Told state label next

theorem told_of_step (taken : state.step reader sharding label = some next) :
    Told state label next := by
  cases label with
  | update entry =>
      dsimp only [SyncState.step] at taken
      split_ifs at taken with idle
      cases taken
      refine .updated idle ?_ rfl rfl
      intro notice derived
      obtain ⟨event, _, rfl⟩ := Option.map_eq_some_iff.mp derived
      rfl
  | broadcast =>
      dsimp only [SyncState.step] at taken
      split at taken
      · next notice derived =>
          cases taken
          cases active : state.active with
          | true => exact .heard derived active rfl rfl (by simp)
          | false => exact .unheard derived active rfl rfl (by simp)
      · cases taken
  | readShard =>
      dsimp only [SyncState.step] at taken
      split_ifs at taken
      cases taken
      exact .unmoved rfl rfl rfl rfl
  | activate =>
      dsimp only [SyncState.step] at taken
      split_ifs at taken
      cases taken
      exact .unmoved rfl rfl rfl rfl

theorem SyncState.Numbered.step (numbered : state.Numbered)
    (taken : state.step reader sharding label = some next) :
    next.Numbered := by
  have grown : ∀ notices notice, state.derived = some notice →
      (∀ other ∈ notices, other.number < state.sent.length) →
      ∀ other ∈ notices ++ [notice],
        other.number < (state.sent ++ [notice]).length := by
    intro notices notice derived below other member
    rw [List.length_append, List.length_singleton]
    rcases List.mem_append.mp member with old | new
    · exact Nat.lt_succ_of_lt (below other old)
    · rw [List.mem_singleton.mp new, numbered.derived notice derived]
      exact Nat.lt_succ_self _
  cases told_of_step taken with
  | updated idle numbers sent live =>
      constructor
      · rw [sent]
        exact numbered.sent
      · rw [sent, live]
        exact numbered.live
      · rw [sent]
        exact numbers
  | heard derived active idle sent live =>
      constructor
      · rw [sent]
        exact grown _ _ derived numbered.sent
      · rw [sent, live]
        exact grown _ _ derived numbered.live
      · rw [idle]
        intro notice missing
        cases missing
  | unheard derived inactive idle sent live =>
      constructor
      · rw [sent]
        exact grown _ _ derived numbered.sent
      · rw [sent, live]
        intro other member
        exact grown _ _ derived numbered.live other
          (List.mem_append_left _ member)
      · rw [idle]
        intro notice missing
        cases missing
  | unmoved kept derived sent live =>
      constructor
      · rw [sent]
        exact numbered.sent
      · rw [sent, live]
        exact numbered.live
      · rw [derived, sent]
        exact numbered.derived

theorem SyncState.Complete.step (complete : state.Complete)
    (taken : state.step reader sharding label = some next)
    (kept : state.keeps label = true) : next.Complete := by
  unfold SyncState.Complete at complete ⊢
  cases told_of_step taken with
  | updated idle numbers sent live =>
      rw [sent, live]
      exact complete
  | heard derived active idle sent live =>
      rw [sent, live, List.filter_append]
      exact complete.append List.filter_sublist
  | unheard derived inactive idle sent live =>
      rename_i notice
      have early : notice.late = false := by
        simpa [SyncState.keeps, inactive, derived] using kept
      rw [sent, live, List.filter_append]
      simpa [early] using complete
  | unmoved kept derived sent live =>
      rw [sent, live]
      exact complete

/-- An event that was sent and will not come. -/
structure SyncState.Lost (state : SyncState) (notice : Notice) : Prop where
  sent : notice ∈ state.sent
  late : notice.late = true
  unheard : notice ∉ state.live

theorem SyncState.Lost.not_complete {notice : Notice}
    (lost : state.Lost notice) : ¬state.Complete := by
  intro complete
  have member : notice ∈ state.sent.filter (·.late) :=
    List.mem_filter.mpr ⟨lost.sent, lost.late⟩
  exact lost.unheard (complete.subset member)

theorem lost_of_not_keeps (numbered : state.Numbered)
    (taken : state.step reader sharding label = some next)
    (dropped : state.keeps label = false) : ∃ notice, next.Lost notice := by
  cases told_of_step taken with
  | updated => cases dropped
  | heard derived active => simp [SyncState.keeps, active] at dropped
  | unheard derived inactive idle sent live =>
      rename_i notice
      refine ⟨notice, ?_, ?_, ?_⟩
      · rw [sent]
        exact List.mem_append_right _ (List.mem_singleton_self notice)
      · simpa [SyncState.keeps, inactive, derived] using dropped
      · rw [live]
        intro member
        have below := numbered.live notice member
        rw [numbered.derived notice derived] at below
        exact Nat.lt_irrefl _ below
  | unmoved kept =>
      rw [kept] at dropped
      cases dropped

theorem SyncState.Lost.step {notice : Notice} (numbered : state.Numbered)
    (lost : state.Lost notice)
    (taken : state.step reader sharding label = some next) :
    next.Lost notice := by
  cases told_of_step taken with
  | updated idle numbers sent live =>
      exact ⟨sent ▸ lost.sent, lost.late, live ▸ lost.unheard⟩
  | heard derived active idle sent live =>
      refine ⟨sent ▸ List.mem_append_left _ lost.sent, lost.late, ?_⟩
      rw [live]
      intro member
      rcases List.mem_append.mp member with old | new
      · exact lost.unheard old
      · have below := numbered.sent notice lost.sent
        rw [List.mem_singleton.mp new, numbered.derived _ derived] at below
        exact Nat.lt_irrefl _ below
  | unheard derived inactive idle sent live =>
      exact ⟨sent ▸ List.mem_append_left _ lost.sent, lost.late,
        live ▸ lost.unheard⟩
  | unmoved kept derived sent live =>
      exact ⟨sent ▸ lost.sent, lost.late, live ▸ lost.unheard⟩

end Steps

section Runs

variable {reader : Reader} {sharding : Sharding}

theorem SyncState.begin_numbered (view : View) :
    (SyncState.begin view).Numbered := by
  constructor
  · intro notice member
    cases member
  · intro notice member
    cases member
  · intro notice missing
    cases missing

theorem SyncState.Lost.run {labels : List SyncStep} {notice : Notice} :
    ∀ {state final : SyncState}, state.Numbered → state.Lost notice →
      Lib.run (SyncState.step reader sharding) labels state = some final →
      final.Lost notice := by
  intro state final numbered lost ended
  have closed : ∀ state label next,
      SyncState.step reader sharding state label = some next →
      state.Numbered ∧ state.Lost notice →
      next.Numbered ∧ next.Lost notice := by
    intro state label next taken holds
    exact ⟨holds.1.step taken, holds.2.step holds.1 taken⟩
  exact (run_invariant closed ended ⟨numbered, lost⟩).2

theorem run_keeps_of_complete {labels : List SyncStep} :
    ∀ {state final : SyncState}, state.Numbered →
      run (SyncState.step reader sharding) labels state = some final →
      final.Complete →
      run (restrict SyncState.keeps (SyncState.step reader sharding)) labels
        state = some final := by
  induction labels with
  | nil =>
      intro state final numbered ended complete
      exact ended
  | cons label rest induction =>
      intro state final numbered ended complete
      obtain ⟨next, taken, tail⟩ := Option.bind_eq_some_iff.mp ended
      cases kept : state.keeps label with
      | true =>
          have later := induction (numbered.step taken) tail complete
          simp [run, restrict, kept, taken, later]
      | false =>
          obtain ⟨notice, lost⟩ := lost_of_not_keeps numbered taken kept
          have final := lost.run (numbered.step taken) tail
          exact (final.not_complete complete).elim

/-- In every interleaving of a subscription with the background task, the
events that are not in the snapshot are all in the stream, in their order,
exactly when none of them was broadcast before the receiver was active. -/
theorem late_events_delivered_iff (reader : Reader) (sharding : Sharding)
    (view : View) (labels : List SyncStep) (final : SyncState)
    (ended : run (SyncState.step reader sharding) labels (.begin view) =
      some final) :
    final.Complete ↔
      run (restrict SyncState.keeps (SyncState.step reader sharding)) labels
        (.begin view) = some final := by
  constructor
  · intro complete
    exact run_keeps_of_complete (SyncState.begin_numbered view) ended complete
  · intro kept
    have closed : ∀ state label next,
        restrict SyncState.keeps (SyncState.step reader sharding) state label =
          some next → state.Complete → next.Complete := by
      intro state label next taken complete
      obtain ⟨keeps, taken⟩ := step_of_restrict taken
      exact complete.step taken keeps
    exact run_invariant closed kept (List.Sublist.refl [])

end Runs

def oneShard : Sharding where
  count := 1
  shard _ := 0

def openedUpdate : GraphEntry where
  source := aliceModel
  destination := bobModel
  channel := aliceToBob

def emptyView : View where
  accounts := IndexMap.empty
  channels := IndexMap.empty

/-- The receiver is active before the update comes. -/
theorem update_after_activation_delivered :
    ∃ final, run (SyncState.step .reference oneShard)
        [.readShard, .activate, .update openedUpdate, .broadcast]
        (.begin emptyView) = some final ∧
      final.sent.length = 1 ∧ final.Complete := by
  have kept : (run (restrict SyncState.keeps
      (SyncState.step .reference oneShard))
      [.readShard, .activate, .update openedUpdate, .broadcast]
      (.begin emptyView)).any (fun final => final.sent.length = 1) = true := by
    decide +kernel
  obtain ⟨final, ended, once⟩ := exists_run _ kept
  have plain := run_of_restrict ended
  exact ⟨final, plain, by simpa using once,
    (late_events_delivered_iff .reference oneShard emptyView _ final plain).mpr
      ended⟩

/-- A channel is opened between the snapshot and the activation: the
subscriber never hears of it. -/
theorem update_before_activation_lost :
    ∃ final, run (SyncState.step .reference oneShard)
        [.readShard, .update openedUpdate, .broadcast, .activate]
        (.begin emptyView) = some final ∧
      final.active = true ∧ final.snapshot = [] ∧ final.live = [] ∧
      (final.view.channels.get? (joinAddresses alice bob)).isSome = true ∧
      ¬final.Complete := by
  have reached : (run (SyncState.step .reference oneShard)
      [.readShard, .update openedUpdate, .broadcast, .activate]
      (.begin emptyView)).any (fun final =>
        final.active && final.snapshot = [] && final.live = [] &&
          (final.view.channels.get? (joinAddresses alice bob)).isSome &&
          final.sent.any (·.late)) = true := by
    decide +kernel
  obtain ⟨final, ended, facts⟩ := exists_run _ reached
  simp only [Bool.and_eq_true, decide_eq_true_eq, List.any_eq_true] at facts
  obtain ⟨⟨⟨⟨active, snapshot⟩, live⟩, cached⟩, notice, sent, late⟩ := facts
  refine ⟨final, ended, active, snapshot, live, cached, ?_⟩
  have lost : final.Lost notice := ⟨sent, late, by simp [live]⟩
  exact lost.not_complete

end HoprUtilities.Blokli.Connector
