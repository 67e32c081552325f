import HoprUtilities.Blokli.EmulatorSteps
import HoprUtilities.Blokli.ReferenceHost
import HoprUtilities.Lib.Transition

/-!
# Accounts and channels

Accounts are stored by key id and looked up by address; channels are stored by
an id made of two addresses and looked up by two key ids.  `Registry` says how
the two views fit together, and every call keeps it, however it ends.

`Moves` says what a call can do to a stored channel, and `AccountStep` what it
can do to the accounts.
-/

namespace HoprUtilities.Blokli

open HoprUtilities.Lib

/-- What an action does to the channel under a key; `done` tells that the
action has come to its end. -/
inductive Moves (host : Host) (state : State) (key : String) :
    Action → Bool → Channel → Channel → Prop where
  | kept {action : Action} {done : Bool} {channel : Channel} :
      Moves host state key action done channel channel
  | credited {channelId : ChannelId} {ticketIndex : UInt64} {amount : Nat}
      {done : Bool} {channel : Channel} {text : String} :
      Moves host state key (.redeemTicket channelId ticketIndex amount) done
        channel { channel with balance := text }
  | redeemed {channelId : ChannelId} {ticketIndex index next : UInt64}
      {amount : Nat} {done : Bool} {channel : Channel} {text : String}
      (indexed : parseU64 channel.ticketIndex = some index)
      (ahead : index ≤ ticketIndex) (succ : u64Succ ticketIndex = some next) :
      Moves host state key (.redeemTicket channelId ticketIndex amount) done
        channel { channel with ticketIndex := printU64 next, balance := text }
  | overflowed {dstAddr : Address} {stake : Nat} {channel : Channel}
      (closed : channel.status = .closed)
      (overflow : i32Succ channel.epoch = none) :
      Moves host state key (.fundChannel dstAddr stake) false channel
        channel.reset
  | reopened {dstAddr : Address} {stake : Nat} {channel funded : Channel}
      (reopens : Reopens channel funded) :
      Moves host state key (.fundChannel dstAddr stake) false channel funded
  | funded {dstAddr : Address} {stake : Nat} {channel funded : Channel}
      {text : String} (reopens : Reopens channel funded) :
      Moves host state key (.fundChannel dstAddr stake) true channel
        { funded with balance := text }
  | initialized {channelId : ChannelId} {channel : Channel} {time : String}
      (found : host.channel state channelId = some (key, channel)) :
      Moves host state key (.initializeChannelClosure channelId) true channel
        { channel with status := .pendingToClose, closureTime := some time }
  | unscheduled {channelId : ChannelId} {channel : Channel} :
      Moves host state key (.initializeChannelClosure channelId) false channel
        { channel with status := .pendingToClose }
  | finalized {channelId : ChannelId} {channel : Channel}
      (pending : channel.status = .pendingToClose) :
      Moves host state key (.finalizeChannelClosure channelId) true channel
        { channel with status := .closed }
  | incoming {channelId : ChannelId} {channel : Channel} :
      Moves host state key (.incomingChannelClosure channelId) true channel
        { channel with status := .closed }

def endState : EStateM.Result Failure State Unit → State
  | .ok _ done => done
  | .error _ after => after

def isDone : EStateM.Result Failure State Unit → Bool
  | .ok _ _ => true
  | .error _ _ => false

/-- A new channel between two accounts that had none. -/
structure Opens (host : Host) (sender : Address) (state : State)
    (action : Action) (key : String) (channel : Channel) : Prop where
  accounts : ∃ dstAddr stake source destination,
    action = .fundChannel dstAddr stake ∧
      (∃ place, host.account state sender = some (place, source)) ∧
      (∃ place, host.account state dstAddr = some (place, destination)) ∧
      state.channels.first?
        (Channel.connects source.keyid destination.keyid) = none ∧
      key = hexEncode (host.generateChannelId sender dstAddr) ∧
      channel = host.newChannel sender dstAddr source destination stake

section Channels

variable {host : Host} {addresses : ContractAddresses} {now : Nat}
  {sender : Address} {state : State} {action : Action}
  {result : EStateM.Result Failure State Unit}

/-- What an action does to the channels: each entry of the new map is an old
one that has moved, or was just opened. -/
structure ChannelStep (host : Host) (sender : Address) (state : State)
    (action : Action) (done : Bool) (after : IndexMap String Channel) :
    Prop where
  forward : ∀ {key channel}, state.channels.get? key = some channel →
    ∃ moved, after.get? key = some moved ∧
      (Moves host state key action done channel moved ∨
        Opens host sender state action key moved)
  backward : ∀ {key moved}, after.get? key = some moved →
    (∃ channel, state.channels.get? key = some channel ∧
      Moves host state key action done channel moved) ∨
      Opens host sender state action key moved

theorem channelStep_same {done : Bool} :
    ChannelStep host sender state action done state.channels :=
  ⟨fun here => ⟨_, here, .inl .kept⟩, fun here => .inl ⟨_, here, .kept⟩⟩

theorem channelStep_put {done : Bool} {key : String} {channel moved : Channel}
    (here : state.channels.get? key = some channel)
    (moves : Moves host state key action done channel moved) :
    ChannelStep host sender state action done
      (state.channels.put key moved) := by
  constructor
  · intro place content there
    rw [IndexMap.get?_put]
    split
    · next same =>
        rw [same, here] at there
        cases there
        exact ⟨moved, rfl, .inl (same ▸ moves)⟩
    · exact ⟨content, there, .inl .kept⟩
  · intro place content there
    rw [IndexMap.get?_put] at there
    split at there
    · next same =>
        cases there
        exact .inl ⟨channel, same ▸ here, same ▸ moves⟩
    · exact .inl ⟨content, there, .kept⟩

theorem channelStep_opens {done : Bool} {key : String} {channel : Channel}
    (opens : Opens host sender state action key channel) :
    ChannelStep host sender state action done
      (state.channels.put key channel) := by
  constructor
  · intro place content there
    rw [IndexMap.get?_put]
    split
    · next same => exact ⟨channel, rfl, .inr (same ▸ opens)⟩
    · exact ⟨content, there, .inl .kept⟩
  · intro place content there
    rw [IndexMap.get?_put] at there
    split at there
    · next same =>
        cases there
        exact .inr (same ▸ opens)
    · exact .inl ⟨content, there, .kept⟩

theorem Redeems.moves {channelId : ChannelId} {ticketIndex : UInt64}
    {amount : Nat} {key : String} {channel paid : Channel} {done : Bool}
    (redeems : Redeems host state channelId ticketIndex amount key channel
      paid) (text : String) :
    Moves host state key (.redeemTicket channelId ticketIndex amount) done
      channel { paid with balance := text } := by
  obtain ⟨_, _, indexed, ahead, _, _, succ⟩ := redeems
  exact .redeemed indexed ahead succ

theorem Redeems.channelStep {channelId : ChannelId} {ticketIndex : UInt64}
    {amount : Nat} {key : String} {channel paid : Channel} {done : Bool}
    (redeems : Redeems host state channelId ticketIndex amount key channel
      paid) :
    ChannelStep host sender state (.redeemTicket channelId ticketIndex amount)
      done (state.channels.put key paid) :=
  channelStep_put redeems.get? (redeems.moves paid.balance)

/-- The ticket is taken and its amount goes to the opposite channel, which may
be the same one. -/
theorem Redeems.channelStep_rebalanced {channelId : ChannelId}
    {ticketIndex : UInt64} {amount : Nat} {key otherKey text : String}
    {channel paid opposite : Channel} {done : Bool}
    (redeems : Redeems host state channelId ticketIndex amount key channel
      paid)
    (found : (state.channels.put key paid).get? otherKey = some opposite) :
    ChannelStep host sender state (.redeemTicket channelId ticketIndex amount)
      done ((state.channels.put key paid).put otherKey
        { opposite with balance := text }) := by
  have step : ChannelStep host sender state _ done _ := redeems.channelStep
  have credit : ∀ {place before after}, Moves host state place
      (.redeemTicket channelId ticketIndex amount) done before after →
      Moves host state place (.redeemTicket channelId ticketIndex amount) done
        before { after with balance := text } := by
    intro place before after moves
    cases moves with
    | kept => exact .credited
    | credited => exact .credited
    | redeemed indexed ahead succ => exact .redeemed indexed ahead succ
  have unopened : ∀ {place content}, ¬Opens host sender state
      (.redeemTicket channelId ticketIndex amount) place content := by
    rintro _ _ ⟨_, _, _, _, kind, _⟩
    cases kind
  constructor
  · intro place content there
    obtain ⟨moved, after, moves | opens⟩ := step.forward there
    · rw [IndexMap.get?_put]
      split
      · next same =>
          rw [same, found] at after
          cases after
          exact ⟨_, rfl, .inl (credit moves)⟩
      · exact ⟨moved, after, .inl moves⟩
    · exact (unopened opens).elim
  · intro place content there
    rw [IndexMap.get?_put] at there
    split at there
    · next same =>
        cases there
        obtain ⟨before, here, moves⟩ | opens := step.backward found
        · exact .inl ⟨before, same ▸ here, same ▸ credit moves⟩
        · exact (unopened opens).elim
    · exact step.backward there

theorem Deposits.channels {ledger : Ledger} {key typename : String}
    {amount : Nat} {after : State}
    (deposits : Deposits host ledger key amount typename state after) :
    after.channels = state.channels := by
  cases deposits <;> exact channels_write ..

theorem Deposits.accounts {ledger : Ledger} {key typename : String}
    {amount : Nat} {after : State}
    (deposits : Deposits host ledger key amount typename state after) :
    after.accounts = state.accounts := by
  cases deposits <;> exact accounts_write ..

theorem Staked.accounts {dstAddr : Address} {stake : Nat}
    {source destination : Account} {allowed : State}
    (staked : Staked host sender dstAddr stake state source destination
      allowed) : allowed.accounts = state.accounts := by
  obtain ⟨_, _, _, debited, debits, allows⟩ := staked
  exact allows.accounts.trans debits.accounts

theorem Staked.channels {dstAddr : Address} {stake : Nat}
    {source destination : Account} {allowed : State}
    (staked : Staked host sender dstAddr stake state source destination
      allowed) : allowed.channels = state.channels := by
  obtain ⟨_, _, _, debited, debits, allows⟩ := staked
  exact allows.channels.trans debits.channels

theorem Performed.channelStep
    (performed : Performed host addresses now sender state action result) :
    ChannelStep host sender state action (isDone result)
      (endState result).channels := by
  cases performed with
  | registered | assigned | reannounced | unaddressed | announced | approved
  | untracked => exact channelStep_same
  | withdrawn kind debit deposit =>
      dsimp only [endState]
      rw [deposit.channels, debit.channels]
      exact channelStep_same
  | undeposited kind debit unread =>
      dsimp only [endState]
      rw [debit.channels]
      exact channelStep_same
  | unallowed positive debit lacking =>
      dsimp only [endState]
      rw [debit.channels]
      exact channelStep_same
  | epochOverflows staked found closed overflow =>
      dsimp only [endState, State.setChannel]
      rw [staked.channels]
      exact channelStep_put (IndexMap.get?_of_first? found)
        (.overflowed closed overflow)
  | unreadChannel staked found reopens unread =>
      dsimp only [endState, State.setChannel]
      rw [staked.channels]
      exact channelStep_put (IndexMap.get?_of_first? found) (.reopened reopens)
  | funded staked found reopens reads =>
      dsimp only [endState, State.setChannel]
      rw [staked.channels]
      exact channelStep_put (IndexMap.get?_of_first? found) (.funded reopens)
  | opened staked missing =>
      dsimp only [endState, State.setChannel]
      rw [staked.channels]
      exact channelStep_opens ⟨_, _, _, _, rfl, staked.sends, staked.receives,
        missing, rfl, rfl⟩
  | initialized found =>
      exact channelStep_put (get?_of_channel found) (.initialized found)
  | timeOverflows found =>
      exact channelStep_put (get?_of_channel found) .unscheduled
  | finalized found pending =>
      exact channelStep_put (get?_of_channel found) (.finalized pending)
  | incoming found => exact channelStep_put (get?_of_channel found) .incoming
  | rebalanced redeems found reads =>
      exact redeems.channelStep_rebalanced (IndexMap.get?_of_first? found)
  | unreadOpposite redeems | unreadSafe redeems | nowhere redeems =>
      exact redeems.channelStep
  | credited redeems alone safe reads counts =>
      rcases countRedeemed_cases host _ _ _ with
        ⟨_, ended, _⟩ | ⟨_, ended, _⟩ | ⟨_, ended, _⟩
      all_goals
        rw [ended] at counts
        subst counts
        exact redeems.channelStep

end Channels

section Accounts

variable {host : Host} {addresses : ContractAddresses} {now : Nat}
  {sender : Address} {state : State} {action : Action}
  {result : EStateM.Result Failure State Unit}

inductive AccountStep (host : Host) (sender : Address) (state : State) :
    IndexMap UInt32 Account → Prop where
  | same : AccountStep host sender state state.accounts
  | updated {key : UInt32} {old new : Account}
      (here : state.accounts.get? key = some old)
      (named : new.chainKey = old.chainKey) (numbered : new.keyid = old.keyid) :
      AccountStep host sender state (state.accounts.put key new)
  | announced {key : UInt32} {account : Account}
      (unknown : host.account state sender = none)
      (next : nextKeyId state.accounts = some key)
      (named : account.chainKey = hexEncode sender)
      (numbered : account.keyid = key.toInt32) :
      AccountStep host sender state (state.accounts.put key account)

theorem Performed.accountStep
    (performed : Performed host addresses now sender state action result) :
    AccountStep host sender state (endState result).accounts := by
  cases performed with
  | registered | approved | untracked | initialized | timeOverflows
  | finalized | incoming | rebalanced | unreadOpposite | unreadSafe
  | nowhere => exact .same
  | assigned known => exact .updated (account_eq_some known).2 rfl rfl
  | reannounced known => exact .updated (account_eq_some known).2 rfl rfl
  | unaddressed known => exact .updated (account_eq_some known).2 rfl rfl
  | announced unknown next named numbered =>
      exact .announced unknown next named numbered
  | withdrawn kind debit deposit =>
      dsimp only [endState]
      rw [deposit.accounts, debit.accounts]
      exact .same
  | undeposited kind debit unread =>
      dsimp only [endState]
      rw [debit.accounts]
      exact .same
  | unallowed positive debit lacking =>
      dsimp only [endState]
      rw [debit.accounts]
      exact .same
  | epochOverflows staked | unreadChannel staked | funded staked
  | opened staked =>
      dsimp only [endState, State.setChannel]
      rw [staked.accounts]
      exact .same
  | credited redeems alone safe reads counts =>
      rcases countRedeemed_cases host _ _ _ with
        ⟨_, ended, _⟩ | ⟨_, ended, _⟩ | ⟨_, ended, _⟩
      all_goals
        rw [ended] at counts
        subst counts
        exact .same

theorem le_maxKey {keys : List UInt32} {largest : UInt32}
    (max : maxKey keys = some largest) : ∀ key ∈ keys, key ≤ largest := by
  induction keys generalizing largest with
  | nil => simp
  | cons first rest induction =>
      unfold maxKey at max
      intro key member
      cases later : maxKey rest with
      | none =>
          have empty : rest = [] := by
            cases rest with
            | nil => rfl
            | cons second rest =>
                unfold maxKey at later
                split at later <;> cases later
          rw [later, Option.some.injEq] at max
          subst empty max
          exact UInt32.le_of_eq (List.mem_singleton.mp member)
      | some other =>
          rw [later] at max
          dsimp only at max
          rw [Option.some.injEq] at max
          have bound : first ≤ largest ∧ other ≤ largest := by
            subst max
            split
            · next less =>
                exact ⟨UInt32.le_of_lt less, UInt32.le_refl _⟩
            · next least =>
                exact ⟨UInt32.le_refl _, UInt32.not_lt.mp least⟩
          rcases List.mem_cons.mp member with rfl | below
          · exact bound.1
          · exact UInt32.le_trans (induction later key below) bound.2

theorem get?_nextKeyId {accounts : IndexMap UInt32 Account} {key : UInt32}
    (next : nextKeyId accounts = some key) : accounts.get? key = none := by
  rw [IndexMap.get?_eq_none]
  intro present
  unfold nextKeyId at next
  cases largest : maxKey accounts.keys with
  | none =>
      cases keys : accounts.keys with
      | nil =>
          rw [keys] at present
          cases present
      | cons first rest =>
          rw [keys] at largest
          unfold maxKey at largest
          split at largest <;> cases largest
  | some most =>
      have bound := le_maxKey largest key present
      rw [largest] at next
      dsimp only [u32Succ] at next
      split_ifs at next with fits
      cases next
      rw [UInt32.le_iff_toNat_le, UInt32.toNat_add, UInt32.toNat_one,
        Nat.mod_eq_of_lt fits] at bound
      omega

theorem AccountStep.grows {after : IndexMap UInt32 Account}
    (step : AccountStep host sender state after) {key : UInt32}
    {account : Account} (here : state.accounts.get? key = some account) :
    ∃ later, after.get? key = some later ∧
      later.chainKey = account.chainKey ∧ later.keyid = account.keyid := by
  cases step with
  | same => exact ⟨account, here, rfl, rfl⟩
  | updated there named numbered =>
      rw [IndexMap.get?_put]
      split
      · next same =>
          rw [same, there] at here
          cases here
          exact ⟨_, rfl, named, numbered⟩
      · exact ⟨account, here, rfl, rfl⟩
  | announced unknown next named numbered =>
      rw [IndexMap.get?_put]
      split
      · next same =>
          rw [same, get?_nextKeyId next] at here
          cases here
      · exact ⟨account, here, rfl, rfl⟩

end Accounts

/-- An account with the key id has the address. -/
def Owns (accounts : IndexMap UInt32 Account) (keyid : Int32)
    (address : Address) : Prop :=
  ∃ key account, accounts.get? key = some account ∧
    account.keyid = keyid ∧ account.chainKey = hexEncode address

/-- Chain keys are pairwise distinct, and each channel is stored under the id
of its source and destination addresses. -/
structure Directory (host : Host) (state : State) : Prop where
  distinct : ∀ {key other account another},
    state.accounts.get? key = some account →
    state.accounts.get? other = some another →
    account.chainKey = another.chainKey → key = other
  stored : ∀ {key channel}, state.channels.get? key = some channel →
    ∃ source destination, Owns state.accounts channel.source source ∧
      Owns state.accounts channel.destination destination ∧
      key = hexEncode (host.generateChannelId source destination)

/-- The account map is keyed by the key ids, up to the cast. -/
structure Registry (host : Host) (state : State) : Prop
    extends Directory host state where
  keyed : ∀ {key account}, state.accounts.get? key = some account →
    account.keyid = key.toInt32

section Registry

variable {host : Host} {sender : Address} {state after : State}
  {action : Action} {done : Bool}

theorem toInt32_inj {left right : UInt32}
    (same : left.toInt32 = right.toInt32) : left = right := by
  have bits := congrArg Int32.toUInt32 same
  simpa using bits

theorem Moves.ends {key : String} {channel moved : Channel}
    (moves : Moves host state key action done channel moved) :
    moved.source = channel.source ∧
      moved.destination = channel.destination := by
  cases moves with
  | reopened reopens | funded reopens => cases reopens <;> exact ⟨rfl, rfl⟩
  | _ => exact ⟨rfl, rfl⟩

theorem Owns.grows {keyid : Int32} {address : Address}
    (step : AccountStep host sender state after.accounts)
    (owns : Owns state.accounts keyid address) :
    Owns after.accounts keyid address := by
  obtain ⟨key, account, here, numbered, named⟩ := owns
  obtain ⟨later, there, sameName, sameNumber⟩ := step.grows here
  exact ⟨key, later, there, sameNumber.trans numbered, sameName.trans named⟩

theorem account_none (finds : host.FindsAccounts)
    (unknown : host.account state sender = none) :
    ∀ account ∈ state.accounts.values,
      account.chainKey ≠ hexEncode sender := by
  apply finds.missing
  cases getter : host.getAccount state.accounts sender with
  | none => rfl
  | some key =>
      obtain ⟨account, here, _⟩ := finds.found getter
      simp [Host.account, getter, here] at unknown

theorem owns_of_account (finds : host.FindsAccounts) {key : UInt32}
    {account : Account}
    (found : host.account state sender = some (key, account)) :
    Owns state.accounts account.keyid sender := by
  obtain ⟨getter, here⟩ := account_eq_some found
  obtain ⟨content, there, named⟩ := finds.found getter
  rw [here] at there
  cases there
  exact ⟨key, account, here, rfl, named⟩

namespace Registry

theorem accounts (finds : host.FindsAccounts) (registry : Registry host state)
    (step : AccountStep host sender state after.accounts) :
    (∀ {key account}, after.accounts.get? key = some account →
      account.keyid = key.toInt32) ∧
    ∀ {key other account another},
      after.accounts.get? key = some account →
      after.accounts.get? other = some another →
      account.chainKey = another.chainKey → key = other := by
  generalize after.accounts = accounts at step
  cases step with
  | same => exact ⟨registry.keyed, registry.distinct⟩
  | updated here named numbered =>
      rename_i place old new
      -- every account has the name and the number of an old one in its place
      have back : ∀ {key account},
          (state.accounts.put place new).get? key = some account →
          ∃ before, state.accounts.get? key = some before ∧
            account.chainKey = before.chainKey ∧
            account.keyid = before.keyid := by
        intro key account there
        rw [IndexMap.get?_put] at there
        split at there
        · next same =>
            cases there
            exact ⟨old, same ▸ here, named, numbered⟩
        · exact ⟨account, there, rfl, rfl⟩
      constructor
      · intro key account there
        obtain ⟨before, found, _, number⟩ := back there
        exact number.trans (registry.keyed found)
      · intro key other account another first second same
        obtain ⟨before, found, name, _⟩ := back first
        obtain ⟨earlier, present, title, _⟩ := back second
        exact registry.distinct found present
          (name.symm.trans (same.trans title))
  | announced unknown next named numbered =>
      have absent := account_none finds unknown
      constructor
      · intro key account there
        rw [IndexMap.get?_put] at there
        split at there
        · next same =>
            cases there
            rw [same]
            exact numbered
        · exact registry.keyed there
      · intro key other account another first second same
        rw [IndexMap.get?_put] at first second
        split at first
        · next isNew =>
            cases first
            split at second
            · next alsoNew => rw [isNew, alsoNew]
            · exact (absent another (IndexMap.mem_values_of_get? second)
                (same.symm.trans named)).elim
        · split at second
          · cases second
            exact (absent account (IndexMap.mem_values_of_get? first)
              (same.trans named)).elim
          · exact registry.distinct first second same

theorem step (finds : host.FindsAccounts) (registry : Registry host state)
    (accountStep : AccountStep host sender state after.accounts)
    (channelStep : ChannelStep host sender state action done
      after.channels) : Registry host after := by
  obtain ⟨keyed, distinct⟩ := registry.accounts finds accountStep
  refine ⟨⟨distinct, ?_⟩, keyed⟩
  intro key moved there
  rcases channelStep.backward there with ⟨channel, here, moves⟩ | opens
  · obtain ⟨source, destination, first, second, name⟩ := registry.stored here
    obtain ⟨sameSource, sameDestination⟩ := moves.ends
    rw [sameSource, sameDestination]
    exact ⟨source, destination, first.grows accountStep,
      second.grows accountStep, name⟩
  · obtain ⟨dstAddr, stake, source, destination, _, ⟨_, sends⟩, ⟨_, receives⟩,
      _, rfl, rfl⟩ := opens.accounts
    exact ⟨sender, dstAddr, (owns_of_account finds sends).grows accountStep,
      (owns_of_account finds receives).grows accountStep, rfl⟩

theorem owns_unique (registry : Registry host state) {keyid : Int32}
    {left right : Address} (first : Owns state.accounts keyid left)
    (second : Owns state.accounts keyid right) : left = right := by
  obtain ⟨key, account, here, number, name⟩ := first
  obtain ⟨other, another, there, numberToo, nameToo⟩ := second
  have same : key = other := by
    apply toInt32_inj
    rw [← registry.keyed here, ← registry.keyed there, number, numberToo]
  subst same
  rw [here] at there
  cases there
  exact hexEncode_inj (name.symm.trans nameToo)

/-- There is at most one channel for each ordered pair of accounts. -/
theorem channel_unique (registry : Registry host state) {key other : String}
    {channel another : Channel}
    (here : state.channels.get? key = some channel)
    (there : state.channels.get? other = some another)
    (source : channel.source = another.source)
    (destination : channel.destination = another.destination) :
    key = other := by
  obtain ⟨_, _, first, second, name⟩ := registry.stored here
  obtain ⟨_, _, third, fourth, title⟩ := registry.stored there
  rw [name, title]
  rw [source] at first
  rw [destination] at second
  rw [registry.owns_unique first third, registry.owns_unique second fourth]

/-- The search for the channel between two accounts has one answer in every
order of the channels. -/
theorem find?_perm (registry : Registry host state)
    {entries : List (String × Channel)}
    (permuted : entries.Perm state.channels.entries)
    (source destination : Int32) :
    entries.find? (fun entry =>
        Channel.connects source destination entry.2) =
      state.channels.first? (Channel.connects source destination) := by
  apply IndexMap.find?_perm permuted
  intro key channel other another here there first second
  simp only [Channel.connects, Bool.and_eq_true, beq_iff_eq] at first second
  exact registry.channel_unique here there (first.1.trans second.1.symm)
    (first.2.trans second.2.symm)

end Registry

theorem updateState_step (host : Host) (emulator : FullStateEmulator)
    (now : Nat) (signedTx : List UInt8) (state : State) :
    halt (updateState host emulator now signedTx) state = state ∨
      ∃ addresses action sender done,
        Parses host emulator state signedTx addresses action sender ∧
        AccountStep host sender state
          (halt (updateState host emulator now signedTx) state).accounts ∧
        ChannelStep host sender state action done
          (halt (updateState host emulator now signedTx) state).channels := by
  rcases updateState_halt host emulator now signedTx state with
    same | ⟨addresses, action, sender, parses, ⟨failure, performed⟩ |
      ⟨done, performed, accounts, channels⟩⟩
  · exact .inl same
  · exact .inr ⟨_, _, _, _, parses, performed.accountStep,
      performed.channelStep⟩
  · refine .inr ⟨addresses, action, sender, true, parses, ?_, ?_⟩
    · rw [accounts]
      exact performed.accountStep
    · rw [channels]
      exact performed.channelStep

theorem Registry.halt (finds : host.FindsAccounts)
    (registry : Registry host state) (emulator : FullStateEmulator)
    (now : Nat) (signedTx : List UInt8) :
    Registry host (halt (updateState host emulator now signedTx) state) := by
  rcases updateState_step host emulator now signedTx state with
    same | ⟨_, _, _, _, _, accountStep, channelStep⟩
  · rw [same]
    exact registry
  · exact registry.step finds accountStep channelStep

theorem halt_of_succeeds {emulator : FullStateEmulator} {call : Call}
    (taken : emulator.succeeds host state call = some after) :
    Lib.halt (updateState host emulator call.now call.signedTx) state =
      after := by
  obtain ⟨sent, ended⟩ := updateState_of_succeeds taken
  rw [Lib.halt, ended]

/-- The keys of the accounts as numbers. -/
def State.SmallKeys (state : State) : Prop :=
  ∀ key ∈ state.accounts.keys, key.toNat < 2147483648

/-- The account map is keyed by the key ids, as numbers. -/
structure Consistent (host : Host) (state : State) : Prop
    extends Directory host state where
  keyed : ∀ {key account}, state.accounts.get? key = some account →
    account.keyid.toInt = key.toNat

theorem toInt_toInt32 {key : UInt32} (small : key.toNat < 2147483648) :
    key.toInt32.toInt = key.toNat := by
  change key.toBitVec.toInt = key.toNat
  rw [BitVec.toInt_eq_toNat_of_lt]
  · rfl
  · change 2 * key.toNat < 4294967296
    omega

theorem Consistent.registry (consistent : Consistent host state) :
    Registry host state := by
  refine ⟨consistent.toDirectory, ?_⟩
  intro key account here
  have number := consistent.keyed here
  have bound := account.keyid.toInt_lt
  have small : key.toNat < 2147483648 := by
    omega
  exact Int32.toInt_inj.mp (number.trans (toInt_toInt32 small).symm)

theorem Registry.consistent (registry : Registry host state)
    (small : state.SmallKeys) : Consistent host state := by
  refine ⟨registry.toDirectory, ?_⟩
  intro key account here
  rw [registry.keyed here]
  exact toInt_toInt32 (small key (IndexMap.mem_keys.mpr ⟨account, here⟩))

/-- From a consistent state, with key ids that fit, every run of successful
calls ends in a consistent state; there is at most one channel for each pair,
and the searches among the channels have one answer in every order. -/
theorem registry_stays_consistent (host : Host) (finds : host.FindsAccounts)
    (emulator : FullStateEmulator) (calls : List Call) (start final : State)
    (consistent : Consistent host start)
    (ended : run (emulator.succeeds host) calls start = some final)
    (small : final.SmallKeys) :
    Consistent host final ∧
      (∀ (key other : String) (channel another : Channel),
        final.channels.get? key = some channel →
        final.channels.get? other = some another →
        channel.source = another.source →
        channel.destination = another.destination → key = other) ∧
      ∀ (entries : List (String × Channel)) (source destination : Int32),
        entries.Perm final.channels.entries →
        entries.find? (fun entry =>
            Channel.connects source destination entry.2) =
          final.channels.first? (Channel.connects source destination) := by
  have closed : ∀ state call next,
      emulator.succeeds host state call = some next →
      Registry host state → Registry host next := by
    intro state call next taken registry
    rw [← halt_of_succeeds taken]
    exact registry.halt finds emulator call.now call.signedTx
  have registry : Registry host final :=
    run_invariant closed ended consistent.registry
  refine ⟨registry.consistent small, ?_, ?_⟩
  · intro key other channel another here there source destination
    exact registry.channel_unique here there source destination
  · intro entries source destination permuted
    exact registry.find?_perm permuted source destination

theorem twoNodes_consistent (host : Host) : Consistent host twoNodes := by
  have small : twoNodes.accounts.entries.all (fun entry =>
      entry.2.keyid.toInt = entry.1.toNat) = true := by
    decide +kernel
  have apart : twoNodes.accounts.entries.all (fun entry =>
      twoNodes.accounts.entries.all fun other =>
        entry.2.chainKey ≠ other.2.chainKey || entry.1 = other.1) = true := by
    decide +kernel
  simp only [List.all_eq_true, decide_eq_true_eq, Bool.or_eq_true] at small apart
  constructor
  · constructor
    · intro key other account another here there same
      have names := apart _ (IndexMap.get?_eq_some.mp here) _
        (IndexMap.get?_eq_some.mp there)
      exact names.resolve_left (fun differ => differ same)
    · intro key channel here
      cases here
  · intro key account here
    exact small _ (IndexMap.get?_eq_some.mp here)

/-- The first channel between the two nodes is opened. -/
theorem opened_channel_stays_consistent :
    ∃ final, run (plain.succeeds (.standing (.fundChannel bob (2 * baseUnit))
        alice)) [{ now := 0, signedTx := [] }] twoNodes = some final ∧
      final.channels.keys.length = 1 ∧
      Consistent (.standing (.fundChannel bob (2 * baseUnit)) alice) final := by
  have reached : (run (plain.succeeds (.standing
      (.fundChannel bob (2 * baseUnit)) alice))
      [{ now := 0, signedTx := [] }] twoNodes).any (fun final =>
        final.channels.keys.length = 1 &&
          final.accounts.keys.all (·.toNat < 2147483648)) = true := by
    decide +kernel
  obtain ⟨final, ended, facts⟩ := exists_run _ reached
  simp only [Bool.and_eq_true, decide_eq_true_eq, List.all_eq_true] at facts
  have finds := reference_findsAccounts
    fun _ => some (.fundChannel bob (2 * baseUnit), alice)
  exact ⟨final, ended, facts.1, (registry_stays_consistent _ finds plain _
    twoNodes final (twoNodes_consistent _) ended facts.2).1⟩

end Registry

end HoprUtilities.Blokli
