import HoprUtilities.Blokli.ChannelMachine
import HoprUtilities.Blokli.Readable

/-!
# The emulator as the machine

The channels of a state, as the connector gives them to its builder, make a
book.  A successful transaction does to the book what the machine does, and one
that is not about channels leaves it as it is.  So a run of the emulator, with
all its texts, is a run of the machine.  Where the builder takes all channels,
the book is what the connector reads.
-/

namespace HoprUtilities.Blokli

open HoprUtilities.Lib
open Connector

/-- Channels are looked up by the text of their id. -/
def Host.FindsChannels (host : Host) : Prop :=
  ∀ {channels channelId key}, host.getChannelById channels channelId =
    some key → key = hexEncode channelId

section Reading

variable (reader : Reader) (state : State)

/-- The address of the account with a key id. -/
def State.ownerOf (keyid : Int32) : Option Address :=
  (state.accounts.get? keyid.toUInt32).bind fun account =>
    (reader.address account.chainKey).toOption

/-- What is given to the builder of channels. -/
def State.entryOf (channel : Channel) : Option ChannelEntry :=
  (state.ownerOf reader channel.source).bind fun source =>
    (state.ownerOf reader channel.destination).bind fun destination =>
      (draftChannel reader channel source destination).toOption

def State.entryAt (channelId : ChannelId) : Option ChannelEntry :=
  (state.channels.get? (hexEncode channelId)).bind (state.entryOf reader)

def State.readChannel (channelId : ChannelId) : Option ChannelEntry :=
  (state.entryAt reader channelId).bind fun entry =>
    (reader.build entry).toOption

end Reading

/-- The builder takes all channels. -/
def State.inRange (state : State) : Bool :=
  state.channels.values.all (·.inRange)

theorem State.inRange_of_stored {state : State}
    (inRange : state.inRange = true) {key : String} {channel : Channel}
    (here : state.channels.get? key = some channel) :
    channel.inRange = true :=
  List.all_eq_true.mp inRange channel (IndexMap.mem_values_of_get? here)

/-- A state that fits together and can be read. -/
structure Chain (host : Host) (reader : Reader) where
  state : State
  registry : Registry host state
  readable : Readable reader state

section Entries

variable {host : Host} {reader : Reader} {state : State}

theorem ownerOf_of_owns (agrees : Agrees reader host)
    (registry : Registry host state) {keyid : Int32} {address : Address}
    (owns : Owns state.accounts keyid address) :
    state.ownerOf reader keyid = some address := by
  obtain ⟨key, account, here, numbered, named⟩ := owns
  have keyed := registry.keyed here
  have place : keyid.toUInt32 = key := by
    rw [← numbered, keyed, UInt32.toUInt32_toInt32]
  rw [State.ownerOf, place, here, Option.bind_some, named,
    agrees.address address]
  rfl

theorem entryOf_of_reads (agrees : Agrees reader host)
    (registry : Registry host state) {channel : Channel}
    {source destination : Address}
    (first : Owns state.accounts channel.source source)
    (second : Owns state.accounts channel.destination destination)
    {status : Connector.ChannelStatus} {balance : Nat} {ticketIndex : UInt64}
    (reads : channel.Reads reader status balance ticketIndex) :
    state.entryOf reader channel =
      some (channel.entry source destination status balance ticketIndex) := by
  rw [State.entryOf, ownerOf_of_owns agrees registry first, Option.bind_some,
    ownerOf_of_owns agrees registry second, Option.bind_some,
    reads.drafts source destination]
  rfl

theorem Registry.stored_reads (registry : Registry host state)
    (readable : Readable reader state) {key : String} {channel : Channel}
    (here : state.channels.get? key = some channel) :
    ∃ source destination status balance ticketIndex,
      Owns state.accounts channel.source source ∧
      Owns state.accounts channel.destination destination ∧
      key = hexEncode (host.generateChannelId source destination) ∧
      channel.Reads reader status balance ticketIndex := by
  obtain ⟨source, destination, first, second, name⟩ := registry.stored here
  obtain ⟨status, balance, ticketIndex, reads⟩ := readable.channels here
  exact ⟨source, destination, status, balance, ticketIndex, first, second,
    name, reads⟩

theorem entryAt_eq_some (agrees : Agrees reader host)
    (registry : Registry host state) (readable : Readable reader state)
    {channelId : ChannelId} {entry : ChannelEntry}
    (here : state.entryAt reader channelId = some entry) :
    ∃ channel source destination status balance ticketIndex,
      state.channels.get? (hexEncode channelId) = some channel ∧
      Owns state.accounts channel.source source ∧
      Owns state.accounts channel.destination destination ∧
      channelId = host.generateChannelId source destination ∧
      channel.Reads reader status balance ticketIndex ∧
      entry = channel.entry source destination status balance ticketIndex := by
  obtain ⟨channel, stored, read⟩ := Option.bind_eq_some_iff.mp here
  obtain ⟨source, destination, status, balance, ticketIndex, first, second,
    name, reads⟩ := registry.stored_reads readable stored
  rw [entryOf_of_reads agrees registry first second reads] at read
  cases read
  exact ⟨channel, source, destination, status, balance, ticketIndex, stored,
    first, second, hexEncode_inj name, reads, rfl⟩

theorem entryAt_of_stored (agrees : Agrees reader host)
    (registry : Registry host state) {source destination : Address}
    {channel : Channel}
    (here : state.channels.get?
      (hexEncode (host.generateChannelId source destination)) = some channel)
    (first : Owns state.accounts channel.source source)
    (second : Owns state.accounts channel.destination destination)
    {status : Connector.ChannelStatus} {balance : Nat} {ticketIndex : UInt64}
    (reads : channel.Reads reader status balance ticketIndex) :
    state.entryAt reader (host.generateChannelId source destination) =
      some (channel.entry source destination status balance ticketIndex) := by
  rw [State.entryAt, here, Option.bind_some,
    entryOf_of_reads agrees registry first second reads]

end Entries

namespace Chain

variable {host : Host} {reader : Reader}

/-- The channels of a state, as the connector reads them. -/
def book (agrees : Agrees reader host) (chain : Chain host reader) :
    ChannelBook host.generateChannelId where
  entry := chain.state.entryAt reader
  filed := by
    intro channelId entry here
    obtain ⟨channel, source, destination, status, balance, ticketIndex, _, _,
      _, name, _, rfl⟩ :=
      entryAt_eq_some agrees chain.registry chain.readable here
    exact name.symm

theorem readChannel_eq_entry (agrees : Agrees reader host)
    (chain : Chain host reader) (inRange : chain.state.inRange = true)
    (channelId : ChannelId) :
    chain.state.readChannel reader channelId =
      (chain.book agrees).entry channelId := by
  change (chain.state.entryAt reader channelId).bind _ =
    chain.state.entryAt reader channelId
  cases here : chain.state.entryAt reader channelId with
  | none => rfl
  | some entry =>
      obtain ⟨channel, source, destination, status, balance, ticketIndex,
        stored, _, _, _, reads, rfl⟩ :=
        entryAt_eq_some agrees chain.registry chain.readable here
      rw [Option.bind_some, reads.builds agrees
        (State.inRange_of_stored inRange stored) source destination]
      rfl

section Changes

variable {chain : Chain host reader} {state : State}

theorem book_same (agrees : Agrees reader host) {sender : Address}
    (next : Chain host reader)
    (accounts : AccountStep host sender chain.state next.state.accounts)
    (channels : next.state.channels = chain.state.channels) :
    next.book agrees = chain.book agrees := by
  apply ChannelBook.ext
  funext channelId
  change next.state.entryAt reader channelId =
    chain.state.entryAt reader channelId
  unfold State.entryAt
  rw [channels]
  cases here : chain.state.channels.get? (hexEncode channelId) with
  | none => rfl
  | some channel =>
      obtain ⟨source, destination, status, balance, ticketIndex, first, second,
        _, reads⟩ := chain.registry.stored_reads chain.readable here
      rw [Option.bind_some, Option.bind_some,
        entryOf_of_reads agrees chain.registry first second reads,
        entryOf_of_reads agrees next.registry (first.grows accounts)
          (second.grows accounts) reads]

/-- A channel is written in the place of its two addresses. -/
def put (chain : Chain host reader) {source destination : Address}
    {channel : Channel} {status : Connector.ChannelStatus} {balance : Nat}
    {ticketIndex : UInt64}
    (reads : channel.Reads reader status balance ticketIndex)
    (first : Owns chain.state.accounts channel.source source)
    (second : Owns chain.state.accounts channel.destination destination) :
    Chain host reader where
  state := chain.state.setChannel
    (hexEncode (host.generateChannelId source destination)) channel
  registry := by
    refine ⟨⟨chain.registry.distinct, ?_⟩, chain.registry.keyed⟩
    intro key content here
    dsimp only [State.setChannel] at here
    rw [IndexMap.get?_put] at here
    split at here
    · next same =>
        cases here
        exact ⟨source, destination, first, second, same⟩
    · exact chain.registry.stored here
  readable := chain.readable.setChannel reads _

theorem book_put (agrees : Agrees reader host)
    {source destination : Address} {channel : Channel}
    {status : Connector.ChannelStatus} {balance : Nat} {ticketIndex : UInt64}
    (reads : channel.Reads reader status balance ticketIndex)
    (first : Owns chain.state.accounts channel.source source)
    (second : Owns chain.state.accounts channel.destination destination) :
    (chain.put reads first second).book agrees =
      (chain.book agrees).write
        (channel.entry source destination status balance ticketIndex) := by
  apply ChannelBook.ext
  funext channelId
  rw [ChannelBook.entry_write]
  have there : (chain.put reads first second).state.channels.get?
      (hexEncode (host.generateChannelId source destination)) =
        some channel := IndexMap.get?_put_self ..
  split
  · next same =>
      subst same
      exact entryAt_of_stored agrees
        (chain.put reads first second).registry there first second reads
  · next apart =>
      have elsewhere : hexEncode channelId ≠
          hexEncode (host.generateChannelId source destination) :=
        fun same => apart (hexEncode_inj same)
      change ((chain.put reads first second).state.channels.get?
        (hexEncode channelId)).bind _ = _
      dsimp only [put, State.setChannel]
      rw [IndexMap.get?_put_of_ne elsewhere]
      rfl

end Changes

end Chain

/-- The states differ in amounts, counts and statistics only. -/
structure SameContract (before after : State) : Prop where
  accounts : after.accounts = before.accounts
  channels : after.channels = before.channels
  deployedSafes : after.deployedSafes = before.deployedSafes

namespace SameContract

variable {host : Host} {first second third : State}

theorem refl (state : State) : SameContract state state := ⟨rfl, rfl, rfl⟩

theorem trans (left : SameContract first second)
    (right : SameContract second third) : SameContract first third :=
  ⟨right.accounts.trans left.accounts, right.channels.trans left.channels,
    right.deployedSafes.trans left.deployedSafes⟩

theorem write (state : State) (ledger : Ledger) (key : String)
    (entry : TokenValue) :
    SameContract state (state.write ledger key entry) := by
  cases ledger <;> exact ⟨rfl, rfl, rfl⟩

theorem countTx (state : State) (key : String) :
    SameContract state (state.countTx key) :=
  ⟨rfl, rfl, rfl⟩

theorem setStats (state : State) (key : String) (stats : RedeemedStats) :
    SameContract state (state.setStats key stats) :=
  ⟨rfl, rfl, rfl⟩

theorem debits {ledger : Ledger} {key : Option String} {amount : Nat}
    (debits : Debits host ledger key amount first second) :
    SameContract first second := by
  cases debits
  exact write _ _ _ _

theorem staked {sender dstAddr : Address} {stake : Nat}
    {source destination : Account}
    (staked : Staked host sender dstAddr stake first source destination
      second) : SameContract first second := by
  obtain ⟨_, _, _, debited, debit, allows⟩ := staked
  exact (debits debit).trans (debits allows)

end SameContract

namespace Chain

variable {host : Host} {reader : Reader}

/-- Another state with the same accounts, channels and Safes. -/
def congr (chain : Chain host reader) {state : State}
    (same : SameContract chain.state state) : Chain host reader where
  state := state
  registry := by
    constructor
    · constructor
      · rw [same.accounts]
        exact chain.registry.distinct
      · rw [same.channels, same.accounts]
        exact chain.registry.stored
    · rw [same.accounts]
      exact chain.registry.keyed
  readable :=
    chain.readable.congr same.accounts same.channels same.deployedSafes

theorem book_congr (agrees : Agrees reader host) (chain : Chain host reader)
    {state : State} (same : SameContract chain.state state) :
    (chain.congr same).book agrees = chain.book agrees := by
  have accounts : AccountStep host default chain.state state.accounts := by
    rw [same.accounts]
    exact .same
  exact book_same agrees (chain.congr same) accounts same.channels

theorem exists_put (agrees : Agrees reader host) (chain : Chain host reader)
    {state : State} (same : SameContract chain.state state)
    {source destination : Address} {channel : Channel}
    {status : Connector.ChannelStatus} {balance : Nat} {ticketIndex : UInt64}
    (reads : channel.Reads reader status balance ticketIndex)
    (first : Owns chain.state.accounts channel.source source)
    (second : Owns chain.state.accounts channel.destination destination) :
    ∃ next : Chain host reader,
      next.state = state.setChannel
        (hexEncode (host.generateChannelId source destination)) channel ∧
      next.book agrees = (chain.book agrees).write
        (channel.entry source destination status balance ticketIndex) := by
  rw [← same.accounts] at first second
  refine ⟨(chain.congr same).put reads first second, rfl, ?_⟩
  rw [← book_congr agrees chain same]
  exact book_put agrees reads first second

end Chain

section Lookup

variable {host : Host} {reader : Reader} {state : State}

theorem Registry.first?_connects (registry : Registry host state)
    (ids : host.DistinctIds state.accounts) {source destination : Int32}
    {first second : Address} (owns : Owns state.accounts source first)
    (other : Owns state.accounts destination second) :
    state.channels.first? (Channel.connects source destination) =
      (state.channels.get?
        (hexEncode (host.generateChannelId first second))).map
          (hexEncode (host.generateChannelId first second), ·) := by
  have place : ∀ {key channel}, state.channels.get? key = some channel →
      Channel.connects source destination channel = true →
      key = hexEncode (host.generateChannelId first second) := by
    intro key channel here connects
    simp only [Channel.connects, Bool.and_eq_true, beq_iff_eq] at connects
    obtain ⟨one, two, ownsOne, ownsTwo, name⟩ := registry.stored here
    rw [connects.1] at ownsOne
    rw [connects.2] at ownsTwo
    rw [name, registry.owns_unique ownsOne owns,
      registry.owns_unique ownsTwo other]
  cases found : state.channels.first? (Channel.connects source destination) with
  | some pair =>
      obtain ⟨key, channel⟩ := pair
      have here := IndexMap.get?_of_first? found
      have isPlace := place here (IndexMap.test_of_first? found)
      rw [← isPlace, here]
      rfl
  | none =>
      cases here : state.channels.get?
          (hexEncode (host.generateChannelId first second)) with
      | none => rfl
      | some channel =>
          obtain ⟨one, two, ownsOne, ownsTwo, name⟩ := registry.stored here
          obtain ⟨rfl, rfl⟩ := ids ⟨_, owns⟩ ⟨_, other⟩ ⟨_, ownsOne⟩
            ⟨_, ownsTwo⟩ (hexEncode_inj name)
          have unfound := IndexMap.not_test_of_first?_none found here
          have isSource := registry.owns_keyid ownsOne owns
          have isDestination := registry.owns_keyid ownsTwo other
          simp [Channel.connects, isSource, isDestination] at unfound

theorem get?_of_host_channel (finds : host.FindsChannels)
    {channelId : ChannelId} {key : String} {channel : Channel}
    (found : host.channel state channelId = some (key, channel)) :
    key = hexEncode channelId ∧
      state.channels.get? (hexEncode channelId) = some channel := by
  have here := get?_of_channel found
  obtain ⟨place, getter, rest⟩ := Option.bind_eq_some_iff.mp found
  obtain ⟨content, _, same⟩ := Option.bind_eq_some_iff.mp rest
  cases same
  have name := finds getter
  subst name
  exact ⟨rfl, here⟩

theorem Channel.Reads.pending {channel : Channel}
    {status : Connector.ChannelStatus} {balance : Nat} {ticketIndex : UInt64}
    (reads : channel.Reads reader status balance ticketIndex)
    (pending : channel.status = .pendingToClose) :
    ∃ time, status = .pendingToClose time := by
  have said := reads.status
  rw [convertStatus, pending] at said
  dsimp only at said
  cases written : channel.closureTime with
  | none =>
      rw [written] at said
      cases said
  | some text =>
      rw [written] at said
      dsimp only at said
      cases read : reader.dateTime text with
      | error =>
          rw [read] at said
          cases said
      | ok time =>
          rw [read] at said
          cases said
          exact ⟨time, rfl⟩

theorem Reopens.entry_fund {channel funded : Channel}
    (reopens : Reopens channel funded) {status : Connector.ChannelStatus}
    {balance : Nat} {ticketIndex : UInt64}
    (reads : channel.Reads reader status balance ticketIndex)
    (source destination : Address) (stake : Nat) :
    ¬((channel.entry source destination status balance ticketIndex).status =
          .closed ∧
        (channel.entry source destination status balance
          ticketIndex).channelEpoch = ChannelBook.lastEpoch) ∧
      ∃ moved index, funded.Reads reader moved balance index ∧
        (channel.entry source destination status balance ticketIndex).fund
            stake =
          funded.entry source destination moved (balance + stake) index := by
  cases reopens with
  | live live =>
      have open' : status ≠ .closed := fun closed =>
        live (reads.closed_iff.mp closed)
      refine ⟨fun closed => open' closed.1, status, ticketIndex, reads, ?_⟩
      rw [ChannelEntry.fund, Channel.entry, if_neg open']
      rfl
  | again closed next =>
      rename_i epoch
      have isClosed := reads.closed_iff.mpr closed
      subst isClosed
      unfold i32Succ at next
      split_ifs at next with largest
      cases next
      constructor
      · rintro ⟨_, last⟩
        apply largest
        have back : channel.epoch.toUInt32.toInt32 =
            ChannelBook.lastEpoch.toInt32 := congrArg UInt32.toInt32 last
        rw [Int32.toInt32_toUInt32] at back
        rw [back]
        rfl
      · refine ⟨.opened, 0, ⟨rfl, reads.balance, parseU64_printU64 0⟩, ?_⟩
        rw [ChannelEntry.fund, Channel.entry, if_pos rfl]
        simp only [Channel.entry, Int32.toUInt32_add]
        rfl

end Lookup

end HoprUtilities.Blokli
