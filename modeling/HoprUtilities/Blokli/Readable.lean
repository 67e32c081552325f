import HoprUtilities.Blokli.BuilderRoundTrip
import HoprUtilities.Blokli.ChannelLifecycle

/-!
# Readable states

The emulator keeps its state in texts, and the connector reads them.  A state
is readable if all the texts of its accounts and channels can be parsed.  Every
successful transaction keeps a state readable, so that a snapshot or an update
of the graph only fails to convert where the builder refuses a channel.
-/

namespace HoprUtilities.Blokli

open HoprUtilities.Lib
open Connector
open BlokliTestStateBuilder (ReadsBack)

/-- Both parse the texts of balances in the same way, the connector reads every
time that the emulator prints, and the builder of channels takes exactly those
that are in range. -/
structure Agrees (reader : Reader) (host : Host) : Prop
    extends ReadsBack reader host where
  parse : ∀ {text amount}, reader.balance text = .ok amount →
    host.parse .wxHopr text = some amount
  dateTime : ∀ time, ∃ read, reader.dateTime (host.rfc3339 time) = .ok read
  builds : ∀ {channel : ChannelEntry}, channel.InRange →
    reader.build channel = .ok channel
  refuses : ∀ {channel : ChannelEntry}, ¬channel.InRange →
    ∃ text, reader.build channel = .error text

/-- The Safes of an owner are among those deployed. -/
def Host.FindsSafes (host : Host) : Prop :=
  ∀ {safes owner safe}, safe ∈ host.getSafeByOwner safes owner →
    safe ∈ safes.values

structure Account.ReadableBy (reader : Reader) (account : Account) : Prop where
  packetKey : ∃ key, reader.packetKey account.packetKey = .ok key
  chainKey : ∃ address, account.chainKey = hexEncode address ∧
    reader.address account.chainKey = .ok address
  safeAddress : ∀ text, account.safeAddress = some text →
    ∃ address, reader.address text = .ok address

theorem Account.ReadableBy.converts {reader : Reader} {account : Account}
    (readable : account.ReadableBy reader) :
    ∃ entry, convertAccountModel reader account = .ok entry ∧
      entry.keyId = account.keyid.toUInt32 ∧
      account.chainKey = hexEncode entry.chainAddr := by
  obtain ⟨⟨key, isKey⟩, ⟨address, named, isAddress⟩, safes⟩ := readable
  have safe : ∃ safe, account.safeAddress.mapM reader.address = .ok safe := by
    cases safeAddress : account.safeAddress with
    | none => exact ⟨none, rfl⟩
    | some text =>
        obtain ⟨safe, isSafe⟩ := safes text safeAddress
        exact ⟨some safe, by simp [isSafe]⟩
  obtain ⟨safe, isSafe⟩ := safe
  refine ⟨_, by
    simp only [convertAccountModel, isKey, isAddress, isSafe, bind, Except.bind,
      pure, Except.pure]
    rfl, rfl, named⟩

/-- The texts of a channel say this. -/
structure Channel.Reads (reader : Reader) (channel : Channel)
    (status : Connector.ChannelStatus) (balance : Nat) (ticketIndex : UInt64) :
    Prop where
  status : convertStatus reader channel = .ok status
  balance : reader.balance channel.balance = .ok balance
  ticketIndex : parseU64 channel.ticketIndex = some ticketIndex

section Channels

variable {reader : Reader} {host : Host} {channel : Channel}
  {status : Connector.ChannelStatus} {balance : Nat} {ticketIndex : UInt64}

def Channel.entry (channel : Channel) (source destination : Address)
    (status : Connector.ChannelStatus) (balance : Nat)
    (ticketIndex : UInt64) : ChannelEntry where
  source := source
  destination := destination
  balance := balance
  ticketIndex := ticketIndex
  status := status
  channelEpoch := channel.epoch.toUInt32

/-- The builder takes the channel. -/
def Channel.inRange (channel : Channel) : Bool :=
  channel.epoch.toUInt32 < 0x1000000 &&
    (parseU64 channel.ticketIndex).all (· < 0x1000000000000)

namespace Channel.Reads

theorem drafts (reads : channel.Reads reader status balance ticketIndex)
    (source destination : Address) :
    draftChannel reader channel source destination =
      .ok (channel.entry source destination status balance ticketIndex) := by
  obtain ⟨isStatus, isBalance, isIndex⟩ := reads
  have index : convertTicketIndex channel = .ok ticketIndex := by
    rw [convertTicketIndex, isIndex]
  rw [draftChannel, isStatus, isBalance, index]
  rfl

theorem inRange_iff (reads : channel.Reads reader status balance ticketIndex)
    (source destination : Address) :
    (channel.entry source destination status balance ticketIndex).InRange ↔
      channel.inRange = true := by
  simp [Channel.inRange, reads.ticketIndex, ChannelEntry.InRange,
    Channel.entry]

theorem builds (agrees : Agrees reader host)
    (reads : channel.Reads reader status balance ticketIndex)
    (inRange : channel.inRange = true) (source destination : Address) :
    reader.build
        (channel.entry source destination status balance ticketIndex) =
      .ok (channel.entry source destination status balance ticketIndex) :=
  agrees.builds ((reads.inRange_iff source destination).mpr inRange)

theorem converts (agrees : Agrees reader host)
    (reads : channel.Reads reader status balance ticketIndex)
    (inRange : channel.inRange = true) (source destination : Address) :
    convertChannelModel reader channel source destination =
      .ok (channel.entry source destination status balance ticketIndex) := by
  rw [convertChannelModel, reads.drafts source destination]
  exact reads.builds agrees inRange source destination

theorem refused (agrees : Agrees reader host)
    (reads : channel.Reads reader status balance ticketIndex)
    (outside : channel.inRange = false) (source destination : Address) :
    ∃ text,
      convertChannelModel reader channel source destination = .error text := by
  rw [convertChannelModel, reads.drafts source destination]
  apply agrees.refuses
  rw [reads.inRange_iff, outside]
  exact Bool.false_ne_true

theorem rebalance (agrees : Agrees reader host)
    (reads : channel.Reads reader status balance ticketIndex) (amount : Nat) :
    Reads reader { channel with balance := host.print .wxHopr amount }
      status amount ticketIndex :=
  ⟨reads.status, agrees.balance amount, reads.ticketIndex⟩

theorem close (reads : channel.Reads reader status balance ticketIndex) :
    Reads reader { channel with status := .closed } .closed balance
      ticketIndex :=
  ⟨rfl, reads.balance, reads.ticketIndex⟩

theorem closed_iff (reads : channel.Reads reader status balance ticketIndex) :
    status = .closed ↔ channel.status = .closed := by
  have said := reads.status
  unfold convertStatus at said
  cases written : channel.status with
  | opened =>
      rw [written] at said
      cases said
      simp
  | closed =>
      rw [written] at said
      cases said
      simp
  | pendingToClose =>
      rw [written] at said
      dsimp only at said
      cases time : channel.closureTime with
      | none =>
          rw [time] at said
          cases said
      | some text =>
          rw [time] at said
          dsimp only at said
          cases read : reader.dateTime text with
          | error =>
              rw [read] at said
              cases said
          | ok closing =>
              rw [read] at said
              cases said
              simp

end Channel.Reads

end Channels

structure Readable (reader : Reader) (state : State) : Prop where
  accounts : ∀ {key account}, state.accounts.get? key = some account →
    account.ReadableBy reader
  channels : ∀ {key channel}, state.channels.get? key = some channel →
    ∃ status balance ticketIndex,
      channel.Reads reader status balance ticketIndex
  safes : ∀ {key safe}, state.deployedSafes.get? key = some safe →
    ∃ address, reader.address safe.address = .ok address

section States

variable {reader : Reader} {host : Host} {addresses : ContractAddresses}
  {now : Nat} {sender : Address} {state done : State} {action : Action}

namespace Readable

theorem setAccount (readable : Readable reader state) {account : Account}
    (added : account.ReadableBy reader) (key : UInt32) :
    Readable reader (state.setAccount key account) := by
  refine ⟨?_, readable.channels, readable.safes⟩
  intro other content here
  dsimp only [State.setAccount] at here
  rw [IndexMap.get?_put] at here
  split at here
  · cases here
    exact added
  · exact readable.accounts here

theorem setChannel (readable : Readable reader state) {channel : Channel}
    {status : Connector.ChannelStatus} {balance : Nat} {ticketIndex : UInt64}
    (added : channel.Reads reader status balance ticketIndex) (key : String) :
    Readable reader (state.setChannel key channel) := by
  refine ⟨readable.accounts, ?_, readable.safes⟩
  intro other content here
  dsimp only [State.setChannel] at here
  rw [IndexMap.get?_put] at here
  split at here
  · cases here
    exact ⟨_, _, _, added⟩
  · exact readable.channels here

theorem setSafe (readable : Readable reader state) {safe : Safe}
    (added : ∃ address, reader.address safe.address = .ok address)
    (key : String) : Readable reader (state.setSafe key safe) := by
  refine ⟨readable.accounts, readable.channels, ?_⟩
  intro other content here
  dsimp only [State.setSafe] at here
  rw [IndexMap.get?_put] at here
  split at here
  · cases here
    exact added
  · exact readable.safes here

theorem congr (readable : Readable reader state)
    (accounts : done.accounts = state.accounts)
    (channels : done.channels = state.channels)
    (safes : done.deployedSafes = state.deployedSafes) :
    Readable reader done := by
  constructor
  · rw [accounts]
    exact readable.accounts
  · rw [channels]
    exact readable.channels
  · rw [safes]
    exact readable.safes

theorem write (readable : Readable reader state) (ledger : Ledger)
    (key : String) (entry : TokenValue) :
    Readable reader (state.write ledger key entry) := by
  cases ledger <;> exact readable.congr rfl rfl rfl

theorem debits (readable : Readable reader state) {ledger : Ledger}
    {key : Option String} {amount : Nat}
    (debits : Debits host ledger key amount state done) :
    Readable reader done := by
  cases debits
  exact readable.write _ _ _

theorem deposits (readable : Readable reader state) {ledger : Ledger}
    {key typename : String} {amount : Nat}
    (deposits : Deposits host ledger key amount typename state done) :
    Readable reader done := by
  cases deposits <;> exact readable.write _ _ _

theorem registerSafeAddress (agrees : Agrees reader host)
    (readable : Readable reader state) {safeAddress : Address}
    (performs : registerSafeAddress host sender safeAddress state =
      .ok () done) : Readable reader done := by
  unfold Blokli.registerSafeAddress at performs
  rw [get_bind_apply] at performs
  cases deployed : state.deployedSafes.get? (hexEncode safeAddress) with
  | none =>
      rw [deployed] at performs
      cases performs
  | some safe =>
      rw [deployed, okOr_some, pure_bind] at performs
      by_cases fresh : hexEncode sender ∉ safe.registeredNodes
      · rw [ensure_of_true fresh, pure_bind, modify_bind_apply,
          get_bind_apply] at performs
        have named : Readable reader (state.setSafe (hexEncode safeAddress)
            { safe with
              registeredNodes :=
                safe.registeredNodes ++ [hexEncode sender] }) := by
          have stands := readable.safes deployed
          apply readable.setSafe
          exact stands
        have unmoved : host.account (state.setSafe (hexEncode safeAddress)
            { safe with
              registeredNodes := safe.registeredNodes ++ [hexEncode sender] })
            sender = host.account state sender := rfl
        rw [unmoved] at performs
        cases known : host.account state sender with
        | none =>
            rw [known] at performs
            cases performs
            exact named
        | some place =>
            obtain ⟨key, account⟩ := place
            rw [known] at performs
            dsimp only at performs
            rw [modify_apply] at performs
            cases performs
            obtain ⟨packetKey, chainKey, _⟩ :=
              readable.accounts (account_eq_some known).2
            apply named.setAccount
            refine ⟨packetKey, chainKey, ?_⟩
            intro text same
            cases same
            exact ⟨safeAddress, agrees.address safeAddress⟩
      · rw [ensure_of_false fresh, refuse_bind_apply] at performs
        cases performs

theorem announce (agrees : Agrees reader host) (finds : host.FindsSafes)
    (readable : Readable reader state) {packetKey : PacketKey}
    {multiaddress : Option String}
    (performs : announce host sender packetKey multiaddress state =
      .ok () done) : Readable reader done := by
  unfold Blokli.announce at performs
  rw [get_bind_apply] at performs
  have isKey : ∃ key, reader.packetKey (hexEncode packetKey) = .ok key :=
    ⟨packetKey, agrees.packetKey packetKey⟩
  cases known : host.account state sender with
  | some place =>
      obtain ⟨key, account⟩ := place
      rw [known] at performs
      dsimp only at performs
      obtain ⟨_, chainKey, safes⟩ :=
        readable.accounts (account_eq_some known).2
      rw [modify_bind_apply] at performs
      cases multiaddress with
      | none =>
          cases performs
          apply readable.setAccount
          exact ⟨isKey, chainKey, safes⟩
      | some text =>
          by_cases nonempty : text ≠ ""
          · dsimp only at performs
            rw [ensure_of_true nonempty, pure_bind, modify_apply,
              setAccount_setAccount] at performs
            cases performs
            apply readable.setAccount
            exact ⟨isKey, chainKey, safes⟩
          · dsimp only at performs
            rw [ensure_of_false nonempty, refuse_bind_apply] at performs
            cases performs
  | none =>
      rw [known] at performs
      dsimp only at performs
      cases next : nextKeyId state.accounts with
      | none =>
          rw [next] at performs
          cases performs
      | some key =>
          rw [next, orPanic_some, pure_bind, modify_apply] at performs
          cases performs
          apply readable.setAccount
          refine ⟨isKey, ⟨sender, rfl, agrees.address sender⟩, ?_⟩
          intro text same
          obtain ⟨safe, first, rfl⟩ := Option.map_eq_some_iff.mp same
          have member := finds (List.mem_of_head? first)
          obtain ⟨place, here⟩ := IndexMap.get?_of_mem_values member
          exact readable.safes here

theorem initialized (agrees : Agrees reader host) {channel : Channel}
    {status : Connector.ChannelStatus} {balance : Nat} {ticketIndex : UInt64}
    (reads : channel.Reads reader status balance ticketIndex) (time : Nat) :
    ∃ closing, reader.dateTime (host.rfc3339 time) = .ok closing ∧
      Channel.Reads reader
        { channel with
          status := .pendingToClose
          closureTime := some (host.rfc3339 time) }
        (.pendingToClose closing) balance ticketIndex := by
  obtain ⟨closing, read⟩ := agrees.dateTime time
  refine ⟨closing, read, ?_, reads.balance, reads.ticketIndex⟩
  simp [convertStatus, read, Except.map]

end Readable

theorem Redeems.reads (agrees : Agrees reader host) {channelId : ChannelId}
    {ticketIndex : UInt64} {amount : Nat} {key : String}
    {channel paid : Channel} {status : Connector.ChannelStatus}
    {balance : Nat} {index : UInt64}
    (redeems : Redeems host state channelId ticketIndex amount key channel
      paid) (reads : channel.Reads reader status balance index) :
    index ≤ ticketIndex ∧ amount ≤ balance ∧
      ticketIndex.toNat + 1 < UInt64.size ∧
      paid.Reads reader status (balance - amount) (ticketIndex + 1) := by
  cases redeems with
  | intro found live indexed ahead parsed enough succ =>
      rw [reads.ticketIndex, Option.some.injEq] at indexed
      rw [agrees.parse reads.balance, Option.some.injEq] at parsed
      subst indexed parsed
      unfold u64Succ at succ
      split_ifs at succ with fits
      cases succ
      exact ⟨ahead, enough, fits, reads.status, agrees.balance _,
        parseU64_printU64 _⟩

end States

end HoprUtilities.Blokli
