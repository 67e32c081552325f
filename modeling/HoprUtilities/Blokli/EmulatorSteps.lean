import HoprUtilities.Blokli.EmulatorParts
import HoprUtilities.Lib.Suspension

/-!
# What an action can do

Each action makes some checks before it writes anything: `starts` says that
they all pass.  If one of them fails, the action ends where it began.
Otherwise it ends in one of the ways of `Performed`, which names every state
an action can leave, also when a later check fails or a sum does not fit.
-/

namespace HoprUtilities.Blokli

open HoprUtilities.Lib

/-- The ledger, the destination, the amount and the payer of a withdrawal. -/
def Action.withdrawal : Action → Option (Ledger × Address × Nat × Payer)
  | .withdrawNative destination amount payer =>
      some (.nativeBalances, destination, amount, payer)
  | .withdrawToken destination amount payer =>
      some (.tokenBalances, destination, amount, payer)
  | _ => none

/-- The time at which a channel can be closed whose closure begins now. -/
def State.closingTime (host : Host) (now : Nat) (state : State) : Option Nat :=
  (parseU64 state.chainInfo.channelClosureGracePeriod).bind fun seconds =>
    host.later now (gracePeriod seconds)

section Starts

variable (host : Host) (addresses : ContractAddresses) (sender : Address)
  (state : State)

/-- The checks that an action makes before its first write. -/
def State.starts : Action → Bool
  | .registerSafeAddress safeAddress =>
      (state.deployedSafes.get? (hexEncode safeAddress)).any fun safe =>
        hexEncode sender ∉ safe.registeredNodes
  | .announce _ _ =>
      (host.account state sender).isSome || (nextKeyId state.accounts).isSome
  | .withdrawNative _ amount payer =>
      state.holds host .nativeBalances (host.payerKey state sender payer) amount
  | .withdrawToken _ amount payer =>
      state.holds host .tokenBalances (host.payerKey state sender payer) amount
  | .approve spender _ payer =>
      if payer = .safe ∧ spender = addresses.channels then
        (state.entry .safeAllowances
          (host.getAccountSafe state.accounts sender)).isSome
      else true
  | .fundChannel dstAddr stake =>
      (host.account state sender).isSome &&
        (host.account state dstAddr).isSome && decide (0 < stake) &&
        state.holds host .tokenBalances
          (host.getAccountSafe state.accounts sender) stake
  | .initializeChannelClosure channelId =>
      (parseU64 state.chainInfo.channelClosureGracePeriod).isSome &&
        (host.channel state channelId).isSome
  | .finalizeChannelClosure channelId =>
      (host.channel state channelId).any fun place =>
        place.2.status = .pendingToClose
  | .incomingChannelClosure channelId => (host.channel state channelId).isSome
  | .redeemTicket channelId ticketIndex ticketAmount =>
      (host.channel state channelId).any fun place =>
        decide (place.2.status ≠ .closed) &&
          (parseU64 place.2.ticketIndex).any (· ≤ ticketIndex) &&
          (host.parse .wxHopr place.2.balance).any (ticketAmount ≤ ·) &&
          (u64Succ ticketIndex).isSome

end Starts

/-- The channel of a ticket, before and after the ticket is taken. -/
inductive Redeems (host : Host) (state : State) (channelId : ChannelId)
    (ticketIndex : UInt64) (amount : Nat) :
    String → Channel → Channel → Prop where
  | intro {key : String} {channel : Channel} {index next : UInt64}
      {balance : Nat} (found : host.channel state channelId = some (key, channel))
      (live : channel.status ≠ .closed)
      (indexed : parseU64 channel.ticketIndex = some index)
      (ahead : index ≤ ticketIndex)
      (reads : host.parse .wxHopr channel.balance = some balance)
      (enough : amount ≤ balance) (succ : u64Succ ticketIndex = some next) :
      Redeems host state channelId ticketIndex amount key channel
        { channel with
          ticketIndex := printU64 next
          balance := host.print .wxHopr (balance - amount) }

/-- The stake of a channel between two accounts has been taken from the Safe
and from its allowance. -/
structure Staked (host : Host) (sender dstAddr : Address) (stake : Nat)
    (state : State) (source destination : Account) (allowed : State) :
    Prop where
  sends : ∃ key, host.account state sender = some (key, source)
  receives : ∃ key, host.account state dstAddr = some (key, destination)
  positive : 0 < stake
  debits : ∃ debited,
    Debits host .tokenBalances (host.getAccountSafe state.accounts sender)
        stake state debited ∧
      Debits host .safeAllowances (host.getAccountSafe state.accounts sender)
        stake debited allowed

/-- The ways in which an action ends that has passed its first checks. -/
inductive Performed (host : Host) (addresses : ContractAddresses) (now : Nat)
    (sender : Address) (state : State) :
    Action → EStateM.Result Failure State Unit → Prop where
  | registered {safeAddress : Address} {safe : Safe}
      (unknown : host.account state sender = none) :
      Performed host addresses now sender state
        (.registerSafeAddress safeAddress)
        (.ok () (state.setSafe (hexEncode safeAddress) safe))
  | assigned {safeAddress : Address} {safe : Safe} {key : UInt32}
      {account : Account}
      (known : host.account state sender = some (key, account)) :
      Performed host addresses now sender state
        (.registerSafeAddress safeAddress)
        (.ok () ((state.setSafe (hexEncode safeAddress) safe).setAccount key
          { account with safeAddress := some (hexEncode safeAddress) }))
  | reannounced {packetKey : PacketKey} {multiaddress : Option String}
      {key : UInt32} {account : Account}
      (known : host.account state sender = some (key, account))
      (nonempty : multiaddress ≠ some "") :
      Performed host addresses now sender state
        (.announce packetKey multiaddress)
        (.ok () (state.setAccount key
          { account with
            packetKey := hexEncode packetKey
            multiAddresses := account.multiAddresses ++ multiaddress.toList }))
  | unaddressed {packetKey : PacketKey} {key : UInt32} {account : Account}
      {error : ClientError}
      (known : host.account state sender = some (key, account)) :
      Performed host addresses now sender state (.announce packetKey (some ""))
        (.error (.err error) (state.setAccount key
          { account with packetKey := hexEncode packetKey }))
  | announced {packetKey : PacketKey} {multiaddress : Option String}
      {key : UInt32} {account : Account}
      (unknown : host.account state sender = none)
      (next : nextKeyId state.accounts = some key)
      (named : account.chainKey = hexEncode sender)
      (numbered : account.keyid = key.toInt32) :
      Performed host addresses now sender state
        (.announce packetKey multiaddress)
        (.ok () (state.setAccount key account))
  | withdrawn {action : Action} {ledger : Ledger} {destination : Address}
      {amount : Nat} {payer : Payer} {typename : String}
      {debited after : State}
      (kind : action.withdrawal = some (ledger, destination, amount, payer))
      (debit : Debits host ledger (host.payerKey state sender payer) amount
        state debited)
      (deposit : Deposits host ledger (hexEncode destination) amount typename
        debited after) :
      Performed host addresses now sender state action (.ok () after)
  | undeposited {action : Action} {ledger : Ledger} {destination : Address}
      {amount : Nat} {payer : Payer} {error : ClientError} {debited : State}
      (kind : action.withdrawal = some (ledger, destination, amount, payer))
      (debit : Debits host ledger (host.payerKey state sender payer) amount
        state debited)
      (unread : debited.accepts host ledger (hexEncode destination) = false) :
      Performed host addresses now sender state action
        (.error (.err error) debited)
  | approved {spender : Address} {amount : Nat} {payer : Payer}
      {key : String} {entry : TokenValue} :
      Performed host addresses now sender state (.approve spender amount payer)
        (.ok () (state.write .safeAllowances key entry))
  | untracked {spender : Address} {amount : Nat} {payer : Payer} :
      Performed host addresses now sender state (.approve spender amount payer)
        (.ok () state)
  | unallowed {dstAddr : Address} {stake : Nat} {error : ClientError}
      {debited : State} (positive : 0 < stake)
      (debit : Debits host .tokenBalances
        (host.getAccountSafe state.accounts sender) stake state debited)
      (lacking : state.holds host .safeAllowances
        (host.getAccountSafe state.accounts sender) stake = false) :
      Performed host addresses now sender state (.fundChannel dstAddr stake)
        (.error (.err error) debited)
  | epochOverflows {dstAddr : Address} {stake : Nat} {allowed : State}
      {source destination : Account} {key : String} {channel : Channel}
      (staked : Staked host sender dstAddr stake state source destination
        allowed)
      (found : state.channels.first?
        (Channel.connects source.keyid destination.keyid) = some (key, channel))
      (closed : channel.status = .closed)
      (overflow : i32Succ channel.epoch = none) :
      Performed host addresses now sender state (.fundChannel dstAddr stake)
        (.error .panicked (allowed.setChannel key channel.reset))
  | unreadChannel {dstAddr : Address} {stake : Nat} {error : ClientError}
      {allowed : State} {source destination : Account} {key : String}
      {channel funded : Channel}
      (staked : Staked host sender dstAddr stake state source destination
        allowed)
      (found : state.channels.first?
        (Channel.connects source.keyid destination.keyid) = some (key, channel))
      (reopens : Reopens channel funded)
      (unread : host.parse .wxHopr channel.balance = none) :
      Performed host addresses now sender state (.fundChannel dstAddr stake)
        (.error (.err error) (allowed.setChannel key funded))
  | funded {dstAddr : Address} {stake balance : Nat} {allowed : State}
      {source destination : Account} {key : String} {channel funded : Channel}
      (staked : Staked host sender dstAddr stake state source destination
        allowed)
      (found : state.channels.first?
        (Channel.connects source.keyid destination.keyid) = some (key, channel))
      (reopens : Reopens channel funded)
      (reads : host.parse .wxHopr channel.balance = some balance) :
      Performed host addresses now sender state (.fundChannel dstAddr stake)
        (.ok () (allowed.setChannel key
          { funded with balance := host.print .wxHopr (balance + stake) }))
  | opened {dstAddr : Address} {stake : Nat} {allowed : State}
      {source destination : Account}
      (staked : Staked host sender dstAddr stake state source destination
        allowed)
      (missing : state.channels.first?
        (Channel.connects source.keyid destination.keyid) = none) :
      Performed host addresses now sender state (.fundChannel dstAddr stake)
        (.ok () (allowed.setChannel
          (hexEncode (host.generateChannelId sender dstAddr))
          (host.newChannel sender dstAddr source destination stake)))
  | initialized {channelId : ChannelId} {key : String} {channel : Channel}
      {closing : Nat}
      (found : host.channel state channelId = some (key, channel))
      (fits : state.closingTime host now = some closing) :
      Performed host addresses now sender state
        (.initializeChannelClosure channelId)
        (.ok () (state.setChannel key
          { channel with
            status := .pendingToClose
            closureTime := some (host.rfc3339 closing) }))
  | timeOverflows {channelId : ChannelId} {key : String} {channel : Channel}
      (found : host.channel state channelId = some (key, channel))
      (overflow : state.closingTime host now = none) :
      Performed host addresses now sender state
        (.initializeChannelClosure channelId)
        (.error .panicked (state.setChannel key
          { channel with status := .pendingToClose }))
  | finalized {channelId : ChannelId} {key : String} {channel : Channel}
      (found : host.channel state channelId = some (key, channel))
      (pending : channel.status = .pendingToClose) :
      Performed host addresses now sender state
        (.finalizeChannelClosure channelId)
        (.ok () (state.setChannel key { channel with status := .closed }))
  | incoming {channelId : ChannelId} {key : String} {channel : Channel}
      (found : host.channel state channelId = some (key, channel)) :
      Performed host addresses now sender state
        (.incomingChannelClosure channelId)
        (.ok () (state.setChannel key { channel with status := .closed }))
  | rebalanced {channelId : ChannelId} {ticketIndex : UInt64}
      {amount balance : Nat} {key otherKey : String}
      {channel paid opposite : Channel}
      (redeems : Redeems host state channelId ticketIndex amount key channel
        paid)
      (found : (state.setChannel key paid).channels.first?
        (Channel.connects channel.destination channel.source) =
          some (otherKey, opposite))
      (reads : host.parse .wxHopr opposite.balance = some balance) :
      Performed host addresses now sender state
        (.redeemTicket channelId ticketIndex amount)
        (.ok () ((state.setChannel key paid).setChannel otherKey
          { opposite with balance := host.print .wxHopr (balance + amount) }))
  | unreadOpposite {channelId : ChannelId} {ticketIndex : UInt64}
      {amount : Nat} {error : ClientError} {key otherKey : String}
      {channel paid opposite : Channel}
      (redeems : Redeems host state channelId ticketIndex amount key channel
        paid)
      (found : (state.setChannel key paid).channels.first?
        (Channel.connects channel.destination channel.source) =
          some (otherKey, opposite))
      (unread : host.parse .wxHopr opposite.balance = none) :
      Performed host addresses now sender state
        (.redeemTicket channelId ticketIndex amount)
        (.error (.err error) (state.setChannel key paid))
  | unreadSafe {channelId : ChannelId} {ticketIndex : UInt64} {amount : Nat}
      {error : ClientError} {key safeAddr : String} {channel paid : Channel}
      {entry : TokenValue}
      (redeems : Redeems host state channelId ticketIndex amount key channel
        paid)
      (alone : (state.setChannel key paid).channels.first?
        (Channel.connects channel.destination channel.source) = none)
      (safe : state.destinationSafe channel = some (safeAddr, entry))
      (unread : host.parse .wxHopr entry.value = none) :
      Performed host addresses now sender state
        (.redeemTicket channelId ticketIndex amount)
        (.error (.err error) (state.setChannel key paid))
  | credited {channelId : ChannelId} {ticketIndex : UInt64}
      {amount balance : Nat} {key safeAddr : String} {channel paid : Channel}
      {entry : TokenValue} {result : EStateM.Result Failure State Unit}
      (redeems : Redeems host state channelId ticketIndex amount key channel
        paid)
      (alone : (state.setChannel key paid).channels.first?
        (Channel.connects channel.destination channel.source) = none)
      (safe : state.destinationSafe channel = some (safeAddr, entry))
      (reads : host.parse .wxHopr entry.value = some balance)
      (counts : countRedeemed host safeAddr amount
        ((state.setChannel key paid).write .tokenBalances safeAddr
          { entry with value := host.print .wxHopr (balance + amount) }) =
            result) :
      Performed host addresses now sender state
        (.redeemTicket channelId ticketIndex amount) result
  | nowhere {channelId : ChannelId} {ticketIndex : UInt64} {amount : Nat}
      {key : String} {channel paid : Channel}
      (redeems : Redeems host state channelId ticketIndex amount key channel
        paid)
      (alone : (state.setChannel key paid).channels.first?
        (Channel.connects channel.destination channel.source) = none)
      (homeless : state.destinationSafe channel = none) :
      Performed host addresses now sender state
        (.redeemTicket channelId ticketIndex amount)
        (.ok () (state.setChannel key paid))

section Redemption

variable {host : Host} {state : State} {channelId : ChannelId}
  {ticketIndex : UInt64} {amount : Nat} {key : String}
  {channel paid : Channel}

theorem account_eq_some {address : Address} {place : UInt32}
    {account : Account} (found : host.account state address =
      some (place, account)) :
    host.getAccount state.accounts address = some place ∧
      state.accounts.get? place = some account := by
  obtain ⟨first, getter, rest⟩ := Option.bind_eq_some_iff.mp found
  obtain ⟨content, here, same⟩ := Option.bind_eq_some_iff.mp rest
  cases same
  exact ⟨getter, here⟩

theorem get?_of_channel (found : host.channel state channelId =
    some (key, channel)) : state.channels.get? key = some channel := by
  obtain ⟨first, _, rest⟩ := Option.bind_eq_some_iff.mp found
  obtain ⟨content, here, same⟩ := Option.bind_eq_some_iff.mp rest
  cases same
  exact here

theorem Redeems.found (redeems : Redeems host state channelId ticketIndex
    amount key channel paid) :
    host.channel state channelId = some (key, channel) := by
  cases redeems
  assumption

theorem Redeems.get? (redeems : Redeems host state channelId ticketIndex
    amount key channel paid) : state.channels.get? key = some channel :=
  get?_of_channel redeems.found

theorem Redeems.first? (redeems : Redeems host state channelId ticketIndex
    amount key channel paid) (source destination : Int32) :
    (state.setChannel key paid).channels.first?
        (Channel.connects source destination) =
      (state.channels.first? (Channel.connects source destination)).map
        fun entry => if entry.1 = key then (key, paid) else entry := by
  apply IndexMap.first?_put redeems.get?
  cases redeems
  rfl

end Redemption

section Inversion

variable {host : Host} {addresses : ContractAddresses} {now : Nat}
  {sender : Address} {state : State}

/-- One of the first checks has failed, or the action has gone on. -/
def Ends (host : Host) (addresses : ContractAddresses) (now : Nat)
    (sender : Address) (state : State) (action : Action)
    (result : EStateM.Result Failure State Unit) : Prop :=
  (state.starts host addresses sender action = false ∧
      ∃ failure, result = .error failure state) ∨
    (state.starts host addresses sender action = true ∧
      Performed host addresses now sender state action result)

theorem registerSafeAddress_ends (safeAddress : Address) :
    Ends host addresses now sender state (.registerSafeAddress safeAddress)
      (registerSafeAddress host sender safeAddress state) := by
  unfold registerSafeAddress
  rw [get_bind_apply]
  cases deployed : state.deployedSafes.get? (hexEncode safeAddress) with
  | none => exact .inl ⟨by simp [State.starts, deployed], _, rfl⟩
  | some safe =>
      by_cases fresh : hexEncode sender ∉ safe.registeredNodes
      · refine .inr ⟨by simpa [State.starts, deployed] using fresh, ?_⟩
        rw [okOr_some, pure_bind, ensure_of_true fresh, pure_bind,
          modify_bind_apply, get_bind_apply]
        have same : host.account (state.setSafe (hexEncode safeAddress)
            { safe with
              registeredNodes := safe.registeredNodes ++ [hexEncode sender] })
            sender = host.account state sender := rfl
        rw [same]
        cases known : host.account state sender with
        | none => exact .registered known
        | some pair => exact .assigned known
      · refine .inl ⟨by simpa [State.starts, deployed] using fresh, ?_⟩
        rw [okOr_some, pure_bind, ensure_of_false fresh, refuse_bind_apply]
        exact ⟨_, rfl⟩

theorem announce_ends (packetKey : PacketKey) (multiaddress : Option String) :
    Ends host addresses now sender state (.announce packetKey multiaddress)
      (announce host sender packetKey multiaddress state) := by
  unfold announce
  rw [get_bind_apply]
  cases known : host.account state sender with
  | some pair =>
      refine .inr ⟨by simp [State.starts, known], ?_⟩
      dsimp only
      rw [modify_bind_apply]
      cases multiaddress with
      | none =>
          have nonempty : (none : Option String) ≠ some "" := by simp
          simpa using Performed.reannounced known nonempty
      | some text =>
          by_cases nonempty : text ≠ ""
          · dsimp only
            rw [ensure_of_true nonempty, pure_bind, modify_apply,
              setAccount_setAccount]
            exact .reannounced known (by simpa using nonempty)
          · dsimp only
            rw [ensure_of_false nonempty, refuse_bind_apply]
            rw [ne_eq, not_not] at nonempty
            rw [nonempty]
            exact .unaddressed known
  | none =>
      dsimp only
      cases next : nextKeyId state.accounts with
      | none => exact .inl ⟨by simp [State.starts, known, next], _, rfl⟩
      | some key =>
          refine .inr ⟨by simp [State.starts, next], ?_⟩
          exact .announced known next rfl rfl

theorem withdraw_ends {action : Action} {ledger : Ledger}
    {destination : Address} {amount : Nat} {payer : Payer}
    (kind : action.withdrawal = some (ledger, destination, amount, payer))
    (start : state.starts host addresses sender action =
      state.holds host ledger (host.payerKey state sender payer) amount)
    (name typename : String) :
    Ends host addresses now sender state action
      (withdraw host ledger name typename sender destination amount payer
        state) := by
  unfold withdraw
  rw [get_bind_apply]
  rcases debit_cases host ledger (host.payerKey state sender payer)
    amount _ _ _ state with
    ⟨error, ended, lacking⟩ | ⟨debited, ended, debits, holds⟩
  · exact .inl ⟨start.trans lacking, _, bind_of_error ended⟩
  · refine .inr ⟨start.trans holds, ?_⟩
    rw [bind_of_ok ended]
    rcases deposit_cases host ledger (hexEncode destination) amount
      typename _ debited with
      ⟨error, ended, unread⟩ | ⟨after, ended, deposits, _⟩
    · rw [ended]
      exact .undeposited kind debits unread
    · rw [ended]
      exact .withdrawn kind debits deposits

theorem approve_ends (spender : Address) (amount : Nat) (payer : Payer) :
    Ends host addresses now sender state (.approve spender amount payer)
      (approve host addresses sender spender amount payer state) := by
  unfold approve
  by_cases tracked : payer = .safe ∧ spender = addresses.channels
  · rw [if_pos tracked, get_bind_apply]
    cases found : state.entry .safeAllowances
        (host.getAccountSafe state.accounts sender) with
    | none => exact .inl ⟨by simp [State.starts, tracked, found], _, rfl⟩
    | some pair =>
        exact .inr ⟨by simp [State.starts, tracked, found], .approved⟩
  · rw [if_neg tracked]
    refine .inr ⟨?_, .untracked⟩
    rw [State.starts, if_neg tracked]

theorem Debits.holds_of_ne {ledger other : Ledger} {key place : Option String}
    {amount least : Nat} {after : State}
    (debits : Debits host ledger key amount state after)
    (apart : other ≠ ledger) :
    after.holds host other place least = state.holds host other place least :=
  by
  cases debits
  rw [State.holds, State.holds, State.amount, State.amount, State.entry,
    State.entry, ledger_write_of_ne _ _ _ apart]

theorem Debits.accounts {ledger : Ledger} {key : Option String} {amount : Nat}
    {after : State} (debits : Debits host ledger key amount state after) :
    after.accounts = state.accounts := by
  cases debits
  rw [accounts_write]

theorem Debits.channels {ledger : Ledger} {key : Option String} {amount : Nat}
    {after : State} (debits : Debits host ledger key amount state after) :
    after.channels = state.channels := by
  cases debits
  rw [channels_write]

theorem fundChannel_staked {dstAddr : Address} {stake : Nat}
    {source destination : Account} {allowed : State} {key : String}
    {channel : Channel} (unread : String)
    (staked : Staked host sender dstAddr stake state source destination
      allowed)
    (found : state.channels.first?
      (Channel.connects source.keyid destination.keyid) = some (key, channel))
    (same : allowed.channels = state.channels) :
    Performed host addresses now sender state (.fundChannel dstAddr stake)
      ((reopen key channel >>= fun existing =>
        creditChannel host key existing stake unread) allowed) := by
  have here : allowed.channels.get? key = some channel := by
    rw [same]
    exact IndexMap.get?_of_first? found
  rcases reopen_cases here with ⟨ended, closed, overflow⟩ |
    ⟨funded, ended, reopens⟩
  · rw [bind_of_error ended]
    exact .epochOverflows staked found closed overflow
  · rw [bind_of_ok ended]
    have balance : funded.balance = channel.balance := by
      cases reopens <;> rfl
    rcases creditChannel_cases host key funded stake unread
      (allowed.setChannel key funded) with
      ⟨error, credited, unread⟩ | ⟨held, credited, reads⟩
    · rw [credited]
      exact .unreadChannel staked found reopens (balance ▸ unread)
    · rw [credited, setChannel_setChannel]
      exact .funded staked found reopens (balance ▸ reads)

theorem fundChannel_ends (dstAddr : Address) (stake : Nat) :
    Ends host addresses now sender state (.fundChannel dstAddr stake)
      (fundChannel host sender dstAddr stake state) := by
  unfold fundChannel
  rw [get_bind_apply]
  cases sends : host.account state sender with
  | none => exact .inl ⟨by simp [State.starts, sends], _, rfl⟩
  | some first =>
      obtain ⟨firstKey, source⟩ := first
      simp only [okOr_some, pure_bind]
      cases receives : host.account state dstAddr with
      | none => exact .inl ⟨by simp [State.starts, receives], _, rfl⟩
      | some second =>
          obtain ⟨secondKey, destination⟩ := second
          simp only [okOr_some, pure_bind]
          by_cases positive : 0 < stake
          · have start : state.starts host addresses sender
                (.fundChannel dstAddr stake) =
                state.holds host .tokenBalances
                  (host.getAccountSafe state.accounts sender) stake := by
              simp [State.starts, sends, receives, positive]
            rw [ensure_of_true positive, pure_bind]
            rcases debitSafe_cases host .tokenBalances sender stake _ _ _
              state with ⟨error, ended, lacking⟩ |
              ⟨debited, ended, debits, holds⟩
            · exact .inl ⟨start.trans lacking, _, bind_of_error ended⟩
            · refine .inr ⟨start.trans holds, ?_⟩
              rw [bind_of_ok ended]
              rcases debitSafe_cases host .safeAllowances sender stake _ _ _
                debited with ⟨error, ended, lacking⟩ |
                ⟨allowed, ended, allows, _⟩
              · rw [bind_of_error ended]
                rw [debits.accounts, debits.holds_of_ne (by decide)] at lacking
                exact .unallowed positive debits lacking
              · rw [bind_of_ok ended, get_bind_apply]
                have same : allowed.channels = state.channels :=
                  allows.channels.trans debits.channels
                rw [debits.accounts] at allows
                have staked : Staked host sender dstAddr stake state source
                    destination allowed :=
                  ⟨⟨_, sends⟩, ⟨_, receives⟩, positive, debited, debits, allows⟩
                rw [same]
                cases found : state.channels.first?
                    (Channel.connects source.keyid destination.keyid) with
                | none => exact .opened staked found
                | some pair => exact fundChannel_staked _ staked found same
          · rw [ensure_of_false positive]
            exact .inl ⟨by simp [State.starts, positive], _, rfl⟩

theorem initializeChannelClosure_ends (channelId : ChannelId) :
    Ends host addresses now sender state (.initializeChannelClosure channelId)
      (initializeChannelClosure host now channelId state) := by
  unfold initializeChannelClosure
  rw [get_bind_apply]
  cases grace : parseU64 state.chainInfo.channelClosureGracePeriod with
  | none => exact .inl ⟨by simp [State.starts, grace], _, rfl⟩
  | some seconds =>
      rw [okOr_some, pure_bind]
      cases found : host.channel state channelId with
      | none => exact .inl ⟨by simp [State.starts, found], _, rfl⟩
      | some pair =>
          refine .inr ⟨by simp [State.starts, grace, found], ?_⟩
          have time : state.closingTime host now =
              host.later now (gracePeriod seconds) := by
            rw [State.closingTime, grace, Option.bind_some]
          rw [okOr_some, pure_bind]
          dsimp only
          rw [modify_bind_apply]
          cases later : host.later now (gracePeriod seconds) with
          | none => exact .timeOverflows found (time.trans later)
          | some closing =>
              rw [orPanic_some, pure_bind, modify_apply, setChannel_setChannel]
              exact .initialized found (time.trans later)

theorem finalizeChannelClosure_ends (channelId : ChannelId) :
    Ends host addresses now sender state (.finalizeChannelClosure channelId)
      (finalizeChannelClosure host channelId state) := by
  unfold finalizeChannelClosure
  rw [get_bind_apply]
  cases found : host.channel state channelId with
  | none => exact .inl ⟨by simp [State.starts, found], _, rfl⟩
  | some pair =>
      simp only [okOr_some, pure_bind]
      by_cases pending : pair.2.status = .pendingToClose
      · rw [ensure_of_true pending]
        exact .inr ⟨by simp [State.starts, found, pending],
          .finalized found pending⟩
      · rw [ensure_of_false pending]
        exact .inl ⟨by simp [State.starts, found, pending], _, rfl⟩

theorem incomingChannelClosure_ends (channelId : ChannelId) :
    Ends host addresses now sender state (.incomingChannelClosure channelId)
      (incomingChannelClosure host channelId state) := by
  unfold incomingChannelClosure
  rw [get_bind_apply]
  cases found : host.channel state channelId with
  | none => exact .inl ⟨by simp [State.starts, found], _, rfl⟩
  | some pair => exact .inr ⟨by simp [State.starts, found], .incoming found⟩

theorem payOut_performed {channelId : ChannelId} {ticketIndex : UInt64}
    {amount : Nat} {key : String} {channel paid : Channel}
    (redeems : Redeems host state channelId ticketIndex amount key channel
      paid) :
    Performed host addresses now sender state
      (.redeemTicket channelId ticketIndex amount)
      (payOut host channelId paid amount (state.setChannel key paid)) := by
  have ends : paid.destination = channel.destination ∧
      paid.source = channel.source := by
    cases redeems
    exact ⟨rfl, rfl⟩
  have safe : (state.setChannel key paid).destinationSafe paid =
      state.destinationSafe channel := by
    rw [State.destinationSafe, State.destinationSafe, ends.1]
    rfl
  unfold payOut
  rw [get_bind_apply, ends.1, ends.2, safe]
  cases opposite : (state.setChannel key paid).channels.first?
      (Channel.connects channel.destination channel.source) with
  | some pair =>
      dsimp only
      rcases creditChannel_cases host pair.1 pair.2 amount _
        (state.setChannel key paid) with
        ⟨error, ended, unread⟩ | ⟨balance, ended, reads⟩
      · rw [ended]
        exact .unreadOpposite redeems opposite unread
      · rw [ended]
        exact .rebalanced redeems opposite reads
  | none =>
      cases home : state.destinationSafe channel with
      | none => exact .nowhere redeems opposite home
      | some pair =>
          dsimp only
          cases reads : host.parse .wxHopr pair.2.value with
          | none =>
              exact .unreadSafe redeems opposite home reads
          | some balance =>
              exact .credited redeems opposite home reads rfl

theorem redeemTicket_ends (channelId : ChannelId) (ticketIndex : UInt64)
    (amount : Nat) :
    Ends host addresses now sender state
      (.redeemTicket channelId ticketIndex amount)
      (redeemTicket host channelId ticketIndex amount state) := by
  unfold redeemTicket
  rw [get_bind_apply]
  cases found : host.channel state channelId with
  | none => exact .inl ⟨by simp [State.starts, found], _, rfl⟩
  | some pair =>
      obtain ⟨key, channel⟩ := pair
      simp only [okOr_some, pure_bind]
      by_cases live : channel.status ≠ .closed
      swap
      · rw [ensure_of_false live]
        exact .inl ⟨by simp [State.starts, found, live], _, rfl⟩
      rw [ensure_of_true live, pure_bind]
      cases indexed : parseU64 channel.ticketIndex with
      | none => exact .inl ⟨by simp [State.starts, found, indexed], _, rfl⟩
      | some index =>
          rw [okOr_some, pure_bind]
          by_cases behind : ticketIndex < index
          · rw [if_pos behind]
            have refused : ¬index ≤ ticketIndex := UInt64.not_le.mpr behind
            exact .inl ⟨by simp [State.starts, found, indexed, refused], _, rfl⟩
          rw [if_neg behind]
          rw [UInt64.not_lt] at behind
          cases reads : host.parse .wxHopr channel.balance with
          | none => exact .inl ⟨by simp [State.starts, found, reads], _, rfl⟩
          | some balance =>
              rw [okOr_some, pure_bind]
              by_cases enough : amount ≤ balance
              swap
              · rw [ensure_of_false enough]
                exact .inl
                  ⟨by simp [State.starts, found, reads, enough], _, rfl⟩
              rw [ensure_of_true enough, pure_bind]
              cases succ : u64Succ ticketIndex with
              | none =>
                  exact .inl ⟨by simp [State.starts, found, succ], _, rfl⟩
              | some next =>
                  refine .inr ⟨?_, ?_⟩
                  · simp [State.starts, found, live, indexed, behind, reads,
                      enough, succ]
                  · exact payOut_performed
                      (.intro found live indexed behind reads enough succ)

theorem perform_ends (host : Host) (addresses : ContractAddresses)
    (now : Nat) (sender : Address) (action : Action) (state : State) :
    Ends host addresses now sender state action
      (perform host addresses now sender action state) := by
  cases action with
  | registerSafeAddress safeAddress => exact registerSafeAddress_ends safeAddress
  | announce packetKey multiaddress =>
      exact announce_ends packetKey multiaddress
  | withdrawNative | withdrawToken => exact withdraw_ends rfl rfl _ _
  | approve spender amount payer => exact approve_ends spender amount payer
  | fundChannel dstAddr stake => exact fundChannel_ends dstAddr stake
  | initializeChannelClosure channelId =>
      exact initializeChannelClosure_ends channelId
  | finalizeChannelClosure channelId =>
      exact finalizeChannelClosure_ends channelId
  | incomingChannelClosure channelId =>
      exact incomingChannelClosure_ends channelId
  | redeemTicket channelId ticketIndex amount =>
      exact redeemTicket_ends channelId ticketIndex amount

theorem chargeFee_cases (host : Host) (sender : Address) (state : State) :
    (∃ error, chargeFee host sender state =
        .error (.err error) (state.countTx (hexEncode sender)) ∧
        state.holds host .nativeBalances (some (hexEncode sender))
          emulatedTxPrice = false) ∨
      ∃ after, chargeFee host sender state = .ok () after ∧
        Debits host .nativeBalances (some (hexEncode sender)) emulatedTxPrice
          (state.countTx (hexEncode sender)) after ∧
        state.holds host .nativeBalances (some (hexEncode sender))
          emulatedTxPrice = true :=
  debit_cases host .nativeBalances (some (hexEncode sender)) emulatedTxPrice
    _ _ _ (state.countTx (hexEncode sender))

/-- The ways in which an action is executed whose effect is `ended`. -/
inductive Executed (host : Host) (interceptor : Option Interceptor)
    (sender : Address) (action : Action) :
    EStateM.Result Failure State Unit →
    EStateM.Result Failure State (Option Action) → Prop where
  | failed {failure : Failure} {after : State} :
      Executed host interceptor sender action (.error failure after)
        (.error failure after)
  | unpaid {error : ClientError} {done : State}
      (lacking : done.holds host .nativeBalances (some (hexEncode sender))
        emulatedTxPrice = false) :
      Executed host interceptor sender action (.ok () done)
        (.error (.err error) (done.countTx (hexEncode sender)))
  | unsent {error : ClientError} {done after : State}
      (pays : Debits host .nativeBalances (some (hexEncode sender))
        emulatedTxPrice (done.countTx (hexEncode sender)) after)
      (affords : done.holds host .nativeBalances (some (hexEncode sender))
        emulatedTxPrice = true)
      (dropped : interceptor = some .dropped) :
      Executed host interceptor sender action (.ok () done)
        (.error (.err error) after)
  | settled {done after : State} {sent : Option Action}
      (pays : Debits host .nativeBalances (some (hexEncode sender))
        emulatedTxPrice (done.countTx (hexEncode sender)) after)
      (affords : done.holds host .nativeBalances (some (hexEncode sender))
        emulatedTxPrice = true)
      (listening : interceptor ≠ some .dropped) :
      Executed host interceptor sender action (.ok () done) (.ok sent after)

theorem execute_executed (host : Host) (interceptor : Option Interceptor)
    (addresses : ContractAddresses) (now : Nat) (sender : Address)
    (action : Action) (state : State) :
    Executed host interceptor sender action
      (perform host addresses now sender action state)
      (execute host interceptor addresses now sender action state) := by
  unfold execute
  cases ended : perform host addresses now sender action state with
  | error failure after =>
      rw [bind_of_error ended]
      exact .failed
  | ok value done =>
      rw [bind_of_ok ended]
      rcases chargeFee_cases host sender done with
        ⟨error, ended, lacking⟩ | ⟨after, ended, pays, affords⟩
      · rw [bind_of_error ended]
        exact .unpaid lacking
      · rw [bind_of_ok ended]
        cases interceptor with
        | none => exact .settled pays affords (by simp)
        | some receiver =>
            cases receiver with
            | listening => exact .settled pays affords (by simp)
            | dropped => exact .unsent pays affords rfl

/-- The action and the sender that a transaction is parsed into. -/
def Parses (host : Host) (emulator : FullStateEmulator) (state : State)
    (signedTx : List UInt8) (addresses : ContractAddresses) (action : Action)
    (sender : Address) : Prop :=
  host.contractAddresses state.chainInfo.contractAddresses = some addresses ∧
    host.parseTx signedTx emulator.moduleAddress addresses =
      .ok (action, sender)

theorem updateState_cases (host : Host) (emulator : FullStateEmulator)
    (now : Nat) (signedTx : List UInt8) (state : State) :
    (∃ error, updateState host emulator now signedTx state =
        .error (.err error) state ∧
      ∀ addresses action sender,
        ¬Parses host emulator state signedTx addresses action sender) ∨
      ∃ addresses action sender,
        Parses host emulator state signedTx addresses action sender ∧
        updateState host emulator now signedTx state =
          execute host emulator.interceptor addresses now sender action
            state := by
  unfold updateState Parses
  rw [get_bind_apply]
  cases known : host.contractAddresses state.chainInfo.contractAddresses with
  | none => exact .inl ⟨_, rfl, by simp⟩
  | some addresses =>
      rw [okOr_some, pure_bind]
      cases parsed : host.parseTx signedTx emulator.moduleAddress addresses with
      | error text =>
          refine .inl ⟨_, rfl, ?_⟩
          rintro other action sender ⟨same, parses⟩
          cases same
          rw [parsed] at parses
          cases parses
      | ok pair => exact .inr ⟨addresses, pair.1, pair.2, ⟨rfl, parsed⟩, rfl⟩

theorem updateState_ok {emulator : FullStateEmulator} {signedTx : List UInt8}
    {sent : Option Action} {after : State}
    (ended : updateState host emulator now signedTx state = .ok sent after) :
    ∃ addresses action sender done,
      Parses host emulator state signedTx addresses action sender ∧
        Performed host addresses now sender state action (.ok () done) ∧
        Debits host .nativeBalances (some (hexEncode sender)) emulatedTxPrice
          (done.countTx (hexEncode sender)) after := by
  rcases updateState_cases host emulator now signedTx state with
    ⟨_, failed, _⟩ | ⟨addresses, action, sender, parses, executes⟩
  · rw [failed] at ended
    cases ended
  · have executed := execute_executed host emulator.interceptor addresses now
      sender action state
    rw [← executes, ended] at executed
    rcases perform_ends host addresses now sender action state with
      ⟨_, failure, blocked⟩ | ⟨_, performed⟩
    · rw [blocked] at executed
      cases executed
    · generalize perform host addresses now sender action state = result
        at executed performed
      cases executed with
      | settled pays => exact ⟨_, _, _, _, parses, performed, pays⟩

/-- A call, with the time at which it is made. -/
structure Call where
  now : Nat
  signedTx : List UInt8
  deriving DecidableEq

def FullStateEmulator.succeeds (host : Host) (emulator : FullStateEmulator)
    (state : State) (call : Call) : Option State :=
  match updateState host emulator call.now call.signedTx state with
  | .ok _ after => some after
  | .error _ _ => none

theorem updateState_of_succeeds {emulator : FullStateEmulator}
    {after : State} {call : Call}
    (taken : emulator.succeeds host state call = some after) :
    ∃ sent, updateState host emulator call.now call.signedTx state =
      .ok sent after := by
  unfold FullStateEmulator.succeeds at taken
  split at taken
  · next sent _ ended =>
      cases taken
      exact ⟨sent, ended⟩
  · cases taken

theorem updateState_halt (host : Host) (emulator : FullStateEmulator)
    (now : Nat) (signedTx : List UInt8) (state : State) :
    halt (updateState host emulator now signedTx) state = state ∨
      ∃ addresses action sender,
        Parses host emulator state signedTx addresses action sender ∧
        ((∃ failure, Performed host addresses now sender state action
            (.error failure
              (halt (updateState host emulator now signedTx) state))) ∨
          ∃ done, Performed host addresses now sender state action
              (.ok () done) ∧
            (halt (updateState host emulator now signedTx) state).accounts =
              done.accounts ∧
            (halt (updateState host emulator now signedTx) state).channels =
              done.channels) := by
  rcases updateState_cases host emulator now signedTx state with
    ⟨error, failed, _⟩ | ⟨addresses, action, sender, parses, executes⟩
  · left
    rw [halt, failed]
  · have executed := execute_executed host emulator.interceptor addresses now
      sender action state
    rw [← executes] at executed
    unfold halt
    rcases perform_ends host addresses now sender action state with
      ⟨_, failure, blocked⟩ | ⟨_, performed⟩
    · rw [blocked] at executed
      generalize updateState host emulator now signedTx state = result
        at executed
      cases executed
      exact .inl rfl
    · refine .inr ⟨addresses, action, sender, parses, ?_⟩
      generalize perform host addresses now sender action state = ended
        at executed performed
      generalize updateState host emulator now signedTx state = result
        at executed
      cases executed with
      | failed => exact .inl ⟨_, performed⟩
      | unpaid => exact .inr ⟨_, performed, rfl, rfl⟩
      | unsent pays =>
          exact .inr ⟨_, performed, pays.accounts, pays.channels⟩
      | settled pays =>
          exact .inr ⟨_, performed, pays.accounts, pays.channels⟩

end Inversion

end HoprUtilities.Blokli
