import HoprUtilities.Blokli.ChannelEvents
import HoprUtilities.Lib.Threads
import HoprUtilities.Lib.Transition

/-!
# Confirmations of fundings

The embedding of `fund_channel`, `track_confirmation` and `await_own_view` of
`src/testing/blokli/connector.rs`, for any number of calls on one channel.  A
call reads the cached channel, adds its amount to the balance to get the
balance it waits for, and submits.  Its confirmation resolves when the cached
balance has come that far, or at the time limit.

The cache follows the chain one update at a time.  When the cache is behind, or
another call has read the same balance, the balance can come that far without
the funding of the call.
-/

namespace HoprUtilities.Blokli.Connector

open HoprUtilities.Lib

/-- Where a call is.  `place` is the place of its own funding in the history of
the channel. -/
inductive FundPhase where
  | targeted
  | refused
  | submitted (place : Nat)
  | confirmed (place : Nat)
  | expired (place : Nat)
  deriving DecidableEq

structure FundCall where
  amount : Nat
  fundedTo : Nat
  phase : FundPhase
  deriving DecidableEq

structure FundState where
  view : View
  /-- The entries of the channel on the chain, the oldest first. -/
  chain : List ChannelEntry
  /-- The place of the cached entry. -/
  seen : Nat
  calls : List FundCall

inductive FundStep where
  /-- A call reads the cached channel. -/
  | read (amount : Nat)
  | submit (index : Nat)
  | refuse (index : Nat)
  /-- The confirmation finds its predicate true. -/
  | confirm (index : Nat)
  /-- The confirmation reaches the time limit. -/
  | expire (index : Nat)
  /-- The background task takes the next update of the channel. -/
  | advance
  /-- The background task takes an update of another channel. -/
  | elsewhere (entry : ChannelEntry)
  /-- The channel changes on the chain for any other reason. -/
  | change (entry : ChannelEntry)
  deriving DecidableEq

def ChannelEntry.fund (channel : ChannelEntry) (amount : Nat) : ChannelEntry :=
  if channel.status = .closed then
    { channel with
      status := .opened
      ticketIndex := 0
      channelEpoch := channel.channelEpoch + 1
      balance := channel.balance + amount }
  else { channel with balance := channel.balance + amount }

namespace FundState

variable (reader : Reader) (channelId : ChannelId)

/-- Every change of the chain so far is in the cache. -/
def begin (view : View) (entry : ChannelEntry) : FundState where
  view := view
  chain := [entry]
  seen := 0
  calls := []

def setPhase (state : FundState) (index : Nat) (call : FundCall)
    (phase : FundPhase) : FundState :=
  { state with calls := state.calls.set index { call with phase := phase } }

/-- The predicate of the confirmation, on the cached channel. -/
def resolves (state : FundState) (call : FundCall) : Bool :=
  (state.view.channels.get? channelId).any fun channel =>
    decide (call.fundedTo ≤ channel.balance)

def step (state : FundState) : FundStep → Option FundState
  | .read amount =>
      (state.view.channels.get? channelId).map fun channel =>
        { state with
          calls := state.calls ++ [⟨amount, channel.balance + amount,
            .targeted⟩] }
  | .submit index =>
      match state.calls[index]?, state.chain.getLast? with
      | some call, some last =>
          if call.phase = .targeted ∧ 0 < call.amount then
            some { state.setPhase index call (.submitted state.chain.length)
              with chain := state.chain ++ [last.fund call.amount] }
          else none
      | _, _ => none
  | .refuse index =>
      match state.calls[index]? with
      | some call =>
          if call.phase = .targeted then some (state.setPhase index call .refused)
          else none
      | none => none
  | .confirm index =>
      match state.calls[index]? with
      | some call =>
          match call.phase with
          | .submitted place =>
              if state.resolves channelId call = true then
                some (state.setPhase index call (.confirmed place))
              else none
          | _ => none
      | none => none
  | .expire index =>
      match state.calls[index]? with
      | some call =>
          match call.phase with
          | .submitted place =>
              some (state.setPhase index call (.expired place))
          | _ => none
      | none => none
  | .advance =>
      (state.chain[state.seen + 1]?).map fun entry =>
        { state with
          seen := state.seen + 1
          view := state.view.setChannel reader entry }
  | .elsewhere entry =>
      if entry.getId reader ≠ channelId then
        some { state with view := state.view.setChannel reader entry }
      else none
  | .change entry =>
      if entry.getId reader = channelId then
        some { state with chain := state.chain ++ [entry] }
      else none

/-- Every confirmation that did not reach the time limit has its own funding in
the cache. -/
def Included (state : FundState) : Prop :=
  ∀ call ∈ state.calls, ∀ place, call.phase = .confirmed place →
    place ≤ state.seen

/-- A call submits while every balance that the cache holds or has still to
take is below the balance it waits for. -/
def aims (state : FundState) : FundStep → Bool
  | .submit index =>
      (state.calls[index]?).all fun call =>
        (state.chain.drop state.seen).all fun entry =>
          decide (entry.balance < call.fundedTo)
  | _ => true

/-- The cache follows the history of the channel. -/
structure Follows (state : FundState) : Prop where
  cached : state.view.channels.get? channelId = state.chain[state.seen]?
  inside : state.seen < state.chain.length
  named : ∀ entry ∈ state.chain, entry.getId reader = channelId

end FundState

inductive Funds (reader : Reader) (channelId : ChannelId)
    (state : FundState) : FundStep → FundState → Prop where
  | read {amount : Nat} {channel : ChannelEntry}
      (here : state.view.channels.get? channelId = some channel) :
      Funds reader channelId state (.read amount)
        { state with
          calls := state.calls ++ [⟨amount, channel.balance + amount,
            .targeted⟩] }
  | submitted {index : Nat} {call : FundCall} {last : ChannelEntry}
      (here : state.calls[index]? = some call)
      (latest : state.chain.getLast? = some last) :
      Funds reader channelId state (.submit index)
        { state.setPhase index call (.submitted state.chain.length) with
          chain := state.chain ++ [last.fund call.amount] }
  | refused {index : Nat} {call : FundCall}
      (here : state.calls[index]? = some call) :
      Funds reader channelId state (.refuse index)
        (state.setPhase index call .refused)
  | confirmed {index place : Nat} {call : FundCall}
      (here : state.calls[index]? = some call)
      (waiting : call.phase = .submitted place)
      (resolved : state.resolves channelId call = true) :
      Funds reader channelId state (.confirm index)
        (state.setPhase index call (.confirmed place))
  | expired {index place : Nat} {call : FundCall}
      (here : state.calls[index]? = some call) :
      Funds reader channelId state (.expire index)
        (state.setPhase index call (.expired place))
  | advanced {entry : ChannelEntry}
      (here : state.chain[state.seen + 1]? = some entry) :
      Funds reader channelId state .advance
        { state with
          seen := state.seen + 1
          view := state.view.setChannel reader entry }
  | elsewhere {entry : ChannelEntry} (apart : entry.getId reader ≠ channelId) :
      Funds reader channelId state (.elsewhere entry)
        { state with view := state.view.setChannel reader entry }
  | changed {entry : ChannelEntry} (named : entry.getId reader = channelId) :
      Funds reader channelId state (.change entry)
        { state with chain := state.chain ++ [entry] }

section Steps

variable {reader : Reader} {channelId : ChannelId} {state next : FundState}
  {label : FundStep}

theorem funds_of_step (taken : state.step reader channelId label = some next) :
    Funds reader channelId state label next := by
  cases label with
  | read amount =>
      obtain ⟨channel, here, same⟩ := Option.map_eq_some_iff.mp taken
      subst same
      exact .read here
  | submit index =>
      dsimp only [FundState.step] at taken
      split at taken
      · next call last here latest =>
          split_ifs at taken
          cases taken
          exact .submitted here latest
      · cases taken
  | refuse index =>
      dsimp only [FundState.step] at taken
      split at taken
      · next call here =>
          split_ifs at taken
          cases taken
          exact .refused here
      · cases taken
  | confirm index =>
      dsimp only [FundState.step] at taken
      split at taken
      · next call here =>
          split at taken
          · next place waiting =>
              split_ifs at taken with resolved
              cases taken
              exact .confirmed here waiting resolved
          · cases taken
      · cases taken
  | expire index =>
      dsimp only [FundState.step] at taken
      split at taken
      · next call here =>
          split at taken
          · cases taken
            exact .expired here
          · cases taken
      · cases taken
  | advance =>
      obtain ⟨entry, here, same⟩ := Option.map_eq_some_iff.mp taken
      subst same
      exact .advanced here
  | elsewhere entry =>
      dsimp only [FundState.step] at taken
      split_ifs at taken with apart
      cases taken
      exact .elsewhere apart
  | change entry =>
      dsimp only [FundState.step] at taken
      split_ifs at taken with named
      cases taken
      exact .changed named

theorem getId_fund (channel : ChannelEntry) (amount : Nat) :
    (channel.fund amount).getId reader = channel.getId reader := by
  unfold ChannelEntry.fund
  split <;> rfl

theorem FundState.Follows.grown (follows : state.Follows reader channelId)
    {entry : ChannelEntry} {calls : List FundCall}
    (named : entry.getId reader = channelId) :
    FundState.Follows reader channelId
      { state with chain := state.chain ++ [entry], calls := calls } := by
  obtain ⟨cached, inside, names⟩ := follows
  constructor
  · dsimp only
    rw [List.getElem?_append_left inside]
    exact cached
  · dsimp only
    rw [List.length_append, List.length_singleton]
    exact Nat.lt_succ_of_lt inside
  · exact forall_concat names named

theorem FundState.Follows.step (follows : state.Follows reader channelId)
    (taken : state.step reader channelId label = some next) :
    next.Follows reader channelId := by
  cases funds_of_step taken with
  | read | refused | confirmed | expired =>
      exact ⟨follows.cached, follows.inside, follows.named⟩
  | submitted here latest =>
      apply follows.grown
      rw [getId_fund]
      exact follows.named _ (List.mem_of_getLast? latest)
  | advanced here =>
      have named := follows.named _ (List.mem_of_getElem? here)
      constructor
      · dsimp only [View.setChannel]
        rw [named, IndexMap.get?_put_self, here]
      · exact (List.getElem?_eq_some_iff.mp here).1
      · exact follows.named
  | elsewhere apart =>
      refine ⟨?_, follows.inside, follows.named⟩
      dsimp only [View.setChannel]
      rw [IndexMap.get?_put_of_ne apart.symm]
      exact follows.cached
  | changed named => exact follows.grown named

def FundCall.Waits (chain : List ChannelEntry) (seen : Nat)
    (call : FundCall) : Prop :=
  match call.phase with
  | .submitted place => place < chain.length ∧
      ∀ spot entry, seen ≤ spot → spot < place → chain[spot]? = some entry →
        entry.balance < call.fundedTo
  | .confirmed place => place ≤ seen
  | _ => True

theorem FundCall.Waits.grown {chain : List ChannelEntry} {seen : Nat}
    {call : FundCall} (waits : call.Waits chain seen) (entry : ChannelEntry) :
    call.Waits (chain ++ [entry]) seen := by
  unfold FundCall.Waits at waits ⊢
  cases phase : call.phase with
  | submitted place =>
      rw [phase] at waits
      obtain ⟨inside, below⟩ := waits
      constructor
      · rw [List.length_append, List.length_singleton]
        exact Nat.lt_succ_of_lt inside
      · intro spot other start before here
        rw [List.getElem?_append_left (Nat.lt_trans before inside)] at here
        exact below spot other start before here
  | confirmed place =>
      rw [phase] at waits
      exact waits
  | targeted | refused | expired => trivial

theorem FundCall.Waits.advanced {chain : List ChannelEntry} {seen : Nat}
    {call : FundCall} (waits : call.Waits chain seen) :
    call.Waits chain (seen + 1) := by
  unfold FundCall.Waits at waits ⊢
  cases phase : call.phase with
  | submitted place =>
      rw [phase] at waits
      obtain ⟨inside, below⟩ := waits
      refine ⟨inside, ?_⟩
      intro spot other start before here
      exact below spot other (Nat.le_of_succ_le start) before here
  | confirmed place =>
      rw [phase] at waits
      exact Nat.le_succ_of_le waits
  | targeted | refused | expired => trivial

theorem waits_step (follows : state.Follows reader channelId)
    (taken : state.step reader channelId label = some next)
    (aimed : state.aims label = true)
    (waits : ∀ call ∈ state.calls, call.Waits state.chain state.seen) :
    ∀ call ∈ next.calls, call.Waits next.chain next.seen := by
  cases funds_of_step taken with
  | read here => exact forall_concat waits trivial
  | submitted here latest =>
      rename_i index call last
      have below : ∀ entry ∈ state.chain.drop state.seen,
          entry.balance < call.fundedTo := by
        simpa [FundState.aims, here] using aimed
      apply forall_set
      · intro other member
        exact (waits other member).grown _
      · constructor
        · simp
        · intro spot entry start before there
          change state.seen ≤ spot at start
          rw [List.getElem?_append_left before] at there
          apply below
          apply List.mem_of_getElem? (i := spot - state.seen)
          rw [List.getElem?_drop, Nat.add_sub_cancel' start]
          exact there
  | refused here | expired here => exact forall_set waits trivial
  | confirmed here waiting resolved =>
      rename_i index place call
      apply forall_set waits
      have own := waits call (List.mem_of_getElem? here)
      unfold FundCall.Waits at own
      rw [waiting] at own
      -- a cached entry before the own funding would be below the target
      by_contra ahead
      have before : state.seen < place := Nat.lt_of_not_le ahead
      rw [FundState.resolves, follows.cached, Option.any_eq_true] at resolved
      obtain ⟨entry, there, reached⟩ := resolved
      have low := own.2 state.seen entry (Nat.le_refl _) before there
      simp only [decide_eq_true_eq] at reached
      omega
  | advanced here =>
      intro other member
      exact (waits other member).advanced
  | elsewhere apart => exact waits
  | changed named =>
      intro other member
      exact (waits other member).grown _

theorem advance_to (follows : state.Follows reader channelId) {place : Nat}
    (start : state.seen ≤ place) (inside : place < state.chain.length) :
    ∃ final, Reachable (FundState.step reader channelId) state final ∧
      final.Follows reader channelId ∧ final.seen = place ∧
      final.chain = state.chain ∧ final.calls = state.calls := by
  obtain ⟨count, rfl⟩ := Nat.exists_eq_add_of_le start
  induction count with
  | zero => exact ⟨state, ⟨[], rfl⟩, follows, rfl, rfl, rfl⟩
  | succ count induction =>
      obtain ⟨middle, reachable, follows, seen, chain, calls⟩ :=
        induction (Nat.le_add_right _ _) (Nat.lt_of_succ_lt inside)
      have more : middle.seen + 1 < middle.chain.length := by
        rw [seen, chain]
        exact inside
      have taken : middle.step reader channelId .advance = some
          { middle with
            seen := middle.seen + 1
            view := middle.view.setChannel reader
              (middle.chain.get ⟨middle.seen + 1, more⟩) } := by
        simp [FundState.step, List.getElem?_eq_getElem more]
      refine ⟨_, reachable.snoc taken, follows.step taken, ?_, chain, calls⟩
      dsimp only
      rw [seen]
      rfl

/-- A call that submits without aiming can be confirmed too early. -/
theorem early_confirmation (follows : state.Follows reader channelId)
    {index : Nat}
    (taken : state.step reader channelId (.submit index) = some next)
    (unaimed : state.aims (.submit index) = false) :
    ∃ final, Reachable (FundState.step reader channelId) next final ∧
      ¬final.Included := by
  have after := follows.step taken
  cases funds_of_step taken with
  | submitted here latest =>
      rename_i call last
      have reached : ∃ entry ∈ state.chain.drop state.seen,
          call.fundedTo ≤ entry.balance := by
        simpa [FundState.aims, here] using unaimed
      obtain ⟨entry, member, enough⟩ := reached
      obtain ⟨distance, there⟩ := List.getElem?_of_mem member
      rw [List.getElem?_drop] at there
      have inside := (List.getElem?_eq_some_iff.mp there).1
      obtain ⟨middle, reachable, holds, seen, chain, calls⟩ :=
        advance_to after (Nat.le_add_right state.seen distance)
          (by simp only [List.length_append]; omega)
      have waiting : middle.calls[index]? = some
          { call with phase := .submitted state.chain.length } := by
        rw [calls]
        exact List.getElem?_set_self (List.getElem?_eq_some_iff.mp here).1
      have resolved : middle.resolves channelId
          { call with phase := .submitted state.chain.length } = true := by
        rw [FundState.resolves, holds.cached, seen, chain,
          List.getElem?_append_left inside, there]
        simpa using enough
      have confirmed : middle.step reader channelId (.confirm index) = some
          (middle.setPhase index
            { call with phase := .submitted state.chain.length }
            (.confirmed state.chain.length)) := by
        simp [FundState.step, waiting, resolved]
      refine ⟨_, reachable.snoc confirmed, ?_⟩
      intro included
      have early := included _ (mem_set_self waiting) _ rfl
      dsimp only [FundState.setPhase] at early
      omega

end Steps

/-- If every call submits while all balances up to its funding are below the
balance it waits for, every confirmation has its own funding in the cache; a
submission that does not can be followed by one that has not. -/
theorem confirmations_include_own_funding (reader : Reader)
    (channelId : ChannelId) (view : View) (entry : ChannelEntry)
    (named : entry.getId reader = channelId)
    (cached : view.channels.get? channelId = some entry) :
    (∀ final, Reachable (restrict FundState.aims
        (FundState.step reader channelId)) (.begin view entry) final →
        final.Included) ∧
      ∀ state next index, Reachable (FundState.step reader channelId)
          (.begin view entry) state →
        state.step reader channelId (.submit index) = some next →
        state.aims (.submit index) = false →
        ∃ final, Reachable (FundState.step reader channelId) next final ∧
          ¬final.Included := by
  have start : (FundState.begin view entry).Follows reader channelId :=
    ⟨cached, Nat.zero_lt_one, by simpa [FundState.begin] using named⟩
  constructor
  · intro final reachable
    have closed : ∀ state label next,
        restrict FundState.aims (FundState.step reader channelId) state label =
          some next →
        state.Follows reader channelId ∧
          (∀ call ∈ state.calls, call.Waits state.chain state.seen) →
        next.Follows reader channelId ∧
          ∀ call ∈ next.calls, call.Waits next.chain next.seen := by
      intro state label next taken holds
      obtain ⟨aimed, stepped⟩ := step_of_restrict taken
      exact ⟨holds.1.step stepped, waits_step holds.1 stepped aimed holds.2⟩
    have waits := (reachable.invariant closed ⟨start, by
      intro call member
      cases member⟩).2
    intro call member place confirmed
    have own := waits call member
    unfold FundCall.Waits at own
    rw [confirmed] at own
    exact own
  · intro state next index reachable taken unaimed
    have follows := reachable.invariant
      (fun state label next taken (holds : state.Follows reader channelId) =>
        holds.step taken) start
    exact early_confirmation follows taken unaimed

/-- One funding of a channel whose cache is up to date. -/
theorem single_funding_confirmed :
    ∃ final, Reachable (FundState.step .reference (joinAddresses alice bob))
        (.begin channelView aliceToBobEntry) final ∧
      final.calls.any (·.phase = .confirmed 1) = true ∧ final.Included := by
  have passed : (run (restrict FundState.aims
      (FundState.step .reference (joinAddresses alice bob)))
      [.read 1, .submit 0, .advance, .confirm 0]
      (.begin channelView aliceToBobEntry)).any (fun final =>
        final.calls.any (·.phase = .confirmed 1)) = true := by
    decide +kernel
  obtain ⟨final, ended, confirmed⟩ := exists_run _ passed
  exact ⟨final, ⟨_, run_of_restrict ended⟩, confirmed,
    (confirmations_include_own_funding .reference (joinAddresses alice bob)
      channelView aliceToBobEntry rfl (by decide +kernel)).1 final
      ⟨_, ended⟩⟩

/-- Two calls read the same balance, and the funding of the first confirms the
second. -/
theorem second_funding_confirmed_early :
    ∃ final, Reachable (FundState.step .reference (joinAddresses alice bob))
        (.begin channelView aliceToBobEntry) final ∧
      final.calls[1]? = some ⟨1, 3 * baseUnit + 1, .confirmed 2⟩ ∧
      final.seen = 1 ∧ ¬final.Included := by
  have passed : (run (FundState.step .reference (joinAddresses alice bob))
      [.read 1, .read 1, .submit 0, .submit 1, .advance, .confirm 1]
      (.begin channelView aliceToBobEntry)).any (fun final =>
        final.calls[1]? = some ⟨1, 3 * baseUnit + 1, .confirmed 2⟩ &&
          final.seen = 1) = true := by
    decide +kernel
  obtain ⟨final, ended, facts⟩ := exists_run _ passed
  simp only [Bool.and_eq_true, decide_eq_true_eq] at facts
  refine ⟨final, ⟨_, ended⟩, facts.1, facts.2, ?_⟩
  intro included
  have early := included _ (List.mem_of_getElem? facts.1) 2 rfl
  omega

end HoprUtilities.Blokli.Connector
