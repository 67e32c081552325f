import HoprUtilities.Blokli.Emulator

/-!
# The view of the connector

The embedding of the accounts and channels that `TestChainConnector` of
`src/testing/blokli/connector.rs` keeps of the chain.  `connect` loads them
with two queries.  A background task then takes the updates of the graph one
after the other: it reads the cached channel, writes the new one and derives an
event from the two.

The parsers of addresses, keys, balances and times and the builder of channels
come from other crates: they are the fields of `Reader`.
-/

namespace HoprUtilities.Blokli.Connector

open HoprUtilities.Lib

inductive ChannelStatus where
  | closed
  | opened
  | pendingToClose (closureTime : Nat)
  deriving DecidableEq

structure ChannelEntry where
  source : Address
  destination : Address
  balance : Nat
  ticketIndex : UInt64
  status : ChannelStatus
  channelEpoch : UInt32
  deriving DecidableEq

/-- An epoch of 24 bits and a ticket index of 48 bits. -/
def ChannelEntry.InRange (channel : ChannelEntry) : Prop :=
  channel.channelEpoch < 0x1000000 ∧ channel.ticketIndex < 0x1000000000000

instance (channel : ChannelEntry) : Decidable channel.InRange :=
  inferInstanceAs (Decidable (_ ∧ _))

inductive AccountType where
  | notAnnounced
  | announced (multiaddrs : List String)
  deriving DecidableEq

structure AccountEntry where
  publicKey : PacketKey
  chainAddr : Address
  keyId : UInt32
  entryType : AccountType
  safeAddress : Option Address
  deriving DecidableEq

/-- The events of channels.  A redeemed ticket is reported without the
ticket. -/
inductive ChainEvent where
  | channelOpened (channel : ChannelEntry)
  | channelClosureInitiated (channel : ChannelEntry)
  | channelClosed (channel : ChannelEntry)
  | channelBalanceIncreased (channel : ChannelEntry) (diff : Nat)
  | channelBalanceDecreased (channel : ChannelEntry) (diff : Nat)
  | ticketRedeemed (channel : ChannelEntry)
  deriving DecidableEq

def ChainEvent.channel : ChainEvent → ChannelEntry
  | .channelOpened channel | .channelClosureInitiated channel
  | .channelClosed channel | .channelBalanceIncreased channel _
  | .channelBalanceDecreased channel _ | .ticketRedeemed channel => channel

/-- What the connector calls in other crates; `build` is `ChannelBuilder::build`
on all that has been set. -/
structure Reader where
  address : String → Except String Address
  packetKey : String → Except String PacketKey
  multiaddr : String → Option String
  balance : String → Except String Nat
  dateTime : String → Except String Nat
  generateChannelId : Address → Address → ChannelId
  build : ChannelEntry → Except String ChannelEntry

def ChannelEntry.getId (reader : Reader) (channel : ChannelEntry) : ChannelId :=
  reader.generateChannelId channel.source channel.destination

/-- The text of a failed parse of an unsigned integer. -/
def parseIntError (text : String) : String :=
  let digits := (unsignedDigits text.toList).takeWhile Char.isDigit
  if text = "" then "cannot parse integer from empty string"
  else if UInt64.size ≤ Nat.ofDigitChars 10 digits 0 then
    "number too large to fit in target type"
  else "invalid digit found in string"

def convertAccountModel (reader : Reader) (model : Account) :
    Except String AccountEntry := do
  let entryType :=
    if model.multiAddresses ≠ [] then
      AccountType.announced (model.multiAddresses.filterMap reader.multiaddr)
    else .notAnnounced
  let publicKey ← reader.packetKey model.packetKey
  let chainAddr ← reader.address model.chainKey
  let safeAddress ← model.safeAddress.mapM reader.address
  pure
    { publicKey := publicKey
      chainAddr := chainAddr
      keyId := model.keyid.toUInt32
      entryType := entryType
      safeAddress := safeAddress }

def convertStatus (reader : Reader) (model : Channel) :
    Except String ChannelStatus :=
  match model.status with
  | .opened => .ok .opened
  | .pendingToClose =>
      match model.closureTime with
      | some time => (reader.dateTime time).map .pendingToClose
      | none => .error "missing closure time on PendingToClose channel"
  | .closed => .ok .closed

def convertTicketIndex (model : Channel) : Except String UInt64 :=
  match parseU64 model.ticketIndex with
  | some index => .ok index
  | none =>
      .error ("invalid ticket index: " ++ parseIntError model.ticketIndex)

def draftChannel (reader : Reader) (model : Channel)
    (srcAddr dstAddr : Address) : Except String ChannelEntry := do
  let status ← convertStatus reader model
  let balance ← reader.balance model.balance
  let ticketIndex ← convertTicketIndex model
  pure
    { source := srcAddr
      destination := dstAddr
      balance := balance
      ticketIndex := ticketIndex
      status := status
      channelEpoch := model.epoch.toUInt32 }

def convertChannelModel (reader : Reader) (model : Channel)
    (srcAddr dstAddr : Address) : Except String ChannelEntry := do
  let draft ← draftChannel reader model srcAddr dstAddr
  reader.build draft

structure View where
  accounts : IndexMap Address AccountEntry
  channels : IndexMap ChannelId ChannelEntry

def View.setAccount (view : View) (account : AccountEntry) : View :=
  { view with accounts := view.accounts.put account.chainAddr account }

def View.setChannel (reader : Reader) (view : View) (channel : ChannelEntry) :
    View :=
  { view with channels := view.channels.put (channel.getId reader) channel }

/-- The accounts of the first query, with the address of each key id. -/
def loadAccounts (reader : Reader) :
    List Account → IndexMap UInt32 Address × View →
      Except String (IndexMap UInt32 Address × View)
  | [], loaded => .ok loaded
  | model :: rest, (keyidToAddr, view) => do
      let entry ← convertAccountModel reader model
      loadAccounts reader rest
        (keyidToAddr.put entry.keyId entry.chainAddr, view.setAccount entry)

def addressOf (keyidToAddr : IndexMap UInt32 Address) (role : String)
    (keyid : Int32) : Except String Address :=
  match keyidToAddr.get? keyid.toUInt32 with
  | some address => .ok address
  | none =>
      .error (role ++ " key_id " ++ toString keyid.toInt ++
        " not found in accounts")

/-- The channels of the second query. -/
def loadChannels (reader : Reader) (keyidToAddr : IndexMap UInt32 Address) :
    List Channel → View → Except String View
  | [], view => .ok view
  | model :: rest, view => do
      let srcAddr ← addressOf keyidToAddr "source" model.source
      let dstAddr ← addressOf keyidToAddr "destination" model.destination
      let channel ← convertChannelModel reader model srcAddr dstAddr
      loadChannels reader keyidToAddr rest (view.setChannel reader channel)

/-- The part of `connect` before the background task. -/
def load (reader : Reader) (accounts : List Account) (channels : List Channel)
    (view : View) : Except String View := do
  let (keyidToAddr, view) ← loadAccounts reader accounts (IndexMap.empty, view)
  loadChannels reader keyidToAddr channels view

structure GraphEntry where
  source : Account
  destination : Account
  channel : Channel
  deriving DecidableEq

/-- The event of a channel that was cached as `old`, if it was. -/
def eventOf (old : Option ChannelEntry) (new : ChannelEntry) :
    Option ChainEvent :=
  match old with
  | none =>
      if new.status = .opened then some (.channelOpened new) else none
  | some old =>
      if old.status = new.status ∧ old.balance = new.balance then none
      else if old.status ≠ new.status then
        match new.status with
        | .opened => some (.channelOpened new)
        | .pendingToClose _ => some (.channelClosureInitiated new)
        | .closed => some (.channelClosed new)
      else if new.balance > old.balance then
        some (.channelBalanceIncreased new (new.balance - old.balance))
      else if new.ticketIndex > old.ticketIndex then
        some (.ticketRedeemed new)
      else some (.channelBalanceDecreased new (old.balance - new.balance))

/-- The accounts and the channel of an update; one that does not convert is
logged and left out. -/
def GraphEntry.convert? (reader : Reader) (entry : GraphEntry) :
    Option (AccountEntry × AccountEntry × ChannelEntry) :=
  match convertAccountModel reader entry.source with
  | .error _ => none
  | .ok source =>
      match convertAccountModel reader entry.destination with
      | .error _ => none
      | .ok destination =>
          match convertChannelModel reader entry.channel source.chainAddr
              destination.chainAddr with
          | .error _ => none
          | .ok channel => some (source, destination, channel)

def View.ingest (reader : Reader) (view : View) (entry : GraphEntry) : View :=
  match entry.convert? reader with
  | some (source, destination, channel) =>
      ((view.setAccount source).setAccount destination).setChannel reader
        channel
  | none => view

/-- The event that an update broadcasts. -/
def View.event? (reader : Reader) (view : View) (entry : GraphEntry) :
    Option ChainEvent :=
  match entry.convert? reader with
  | some (_, _, channel) =>
      eventOf (view.channels.get? (channel.getId reader)) channel
  | none => none

end HoprUtilities.Blokli.Connector
