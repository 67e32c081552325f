import HoprUtilities.Lib.MapLookup
import HoprUtilities.Lib.Text

/-!
# The state emulator

The embedding of `FullStateEmulator::update_state` of
`src/testing/blokli/emulator.rs`.  One call reads a signed transaction and
writes its effect into the state, in place: what is written before a check
fails stays written.  The error is therefore raised in a monad that keeps the
state.

The maps of the state are keyed by texts, and amounts, ticket indices and
counts are texts that have to be read first.  Reading and printing balances,
the parser of transactions, the hash behind a channel id and the getters of
`BlokliTestState` come from other crates: they are the fields of `Host`.  A
getter returns the key under which it has found the entry.

Sums of machine integers are checked, as they are in a test build: a sum that
does not fit panics.  Balances are natural numbers.
-/

namespace HoprUtilities.Blokli

open HoprUtilities.Lib

abbrev Address := Vector UInt8 20

abbrev ChannelId := Vector UInt8 32

abbrev PacketKey := Vector UInt8 32

structure Account where
  chainKey : String
  keyid : Int32
  multiAddresses : List String
  packetKey : String
  safeAddress : Option String
  deriving DecidableEq

structure Safe where
  address : String
  owners : List String
  registeredNodes : List String
  deriving DecidableEq

/-- The entries of the balance and allowance maps: `HoprBalance`,
`NativeBalance` and `SafeHoprAllowance`. -/
structure TokenValue where
  typename : String
  value : String
  deriving DecidableEq

inductive ChannelStatus where
  | opened
  | pendingToClose
  | closed
  deriving DecidableEq

structure Channel where
  balance : String
  closureTime : Option String
  concreteChannelId : String
  destination : Int32
  epoch : Int32
  source : Int32
  status : ChannelStatus
  ticketIndex : String
  deriving DecidableEq

structure RedeemedStats where
  typename : String
  redeemedAmount : String
  redemptionCount : String
  rejectedAmount : String
  rejectionCount : String
  deriving DecidableEq

structure ChainInfo where
  contractAddresses : String
  channelClosureGracePeriod : String
  deriving DecidableEq

structure State where
  chainInfo : ChainInfo
  accounts : IndexMap UInt32 Account
  deployedSafes : IndexMap String Safe
  tokenBalances : IndexMap String TokenValue
  nativeBalances : IndexMap String TokenValue
  safeAllowances : IndexMap String TokenValue
  channels : IndexMap String Channel
  safeRedeemStats : IndexMap String RedeemedStats
  txCounts : IndexMap String Nat

inductive Currency where
  | wxHopr
  | xDai
  deriving DecidableEq

/-- The maps that hold amounts under addresses. -/
inductive Ledger where
  | tokenBalances
  | nativeBalances
  | safeAllowances
  deriving DecidableEq

def Ledger.currency : Ledger → Currency
  | .tokenBalances | .safeAllowances => .wxHopr
  | .nativeBalances => .xDai

namespace State

def ledger (state : State) : Ledger → IndexMap String TokenValue
  | .tokenBalances => state.tokenBalances
  | .nativeBalances => state.nativeBalances
  | .safeAllowances => state.safeAllowances

def write (state : State) (ledger : Ledger) (key : String)
    (entry : TokenValue) : State :=
  match ledger with
  | .tokenBalances =>
      { state with tokenBalances := state.tokenBalances.put key entry }
  | .nativeBalances =>
      { state with nativeBalances := state.nativeBalances.put key entry }
  | .safeAllowances =>
      { state with safeAllowances := state.safeAllowances.put key entry }

def setAccount (state : State) (key : UInt32) (account : Account) : State :=
  { state with accounts := state.accounts.put key account }

def setSafe (state : State) (key : String) (safe : Safe) : State :=
  { state with deployedSafes := state.deployedSafes.put key safe }

def setChannel (state : State) (key : String) (channel : Channel) : State :=
  { state with channels := state.channels.put key channel }

def setStats (state : State) (key : String) (stats : RedeemedStats) : State :=
  { state with safeRedeemStats := state.safeRedeemStats.put key stats }

/-- The first use of a sender starts its count at zero. -/
def countTx (state : State) (key : String) : State :=
  { state with
    txCounts := state.txCounts.put key ((state.txCounts.get? key).getD 0 + 1) }

end State

inductive Payer where
  | eoa
  | safe
  deriving DecidableEq

def Payer.text : Payer → String
  | .eoa => "Eoa"
  | .safe => "Safe"

inductive Action where
  | registerSafeAddress (safeAddress : Address)
  | announce (packetKey : PacketKey) (multiaddress : Option String)
  | withdrawNative (destination : Address) (amount : Nat) (payer : Payer)
  | withdrawToken (destination : Address) (amount : Nat) (payer : Payer)
  | approve (spender : Address) (amount : Nat) (payer : Payer)
  | fundChannel (dstAddr : Address) (stake : Nat)
  | initializeChannelClosure (channelId : ChannelId)
  | finalizeChannelClosure (channelId : ChannelId)
  | incomingChannelClosure (channelId : ChannelId)
  | redeemTicket (channelId : ChannelId) (ticketIndex : UInt64)
      (ticketAmount : Nat)
  deriving DecidableEq

/-- The only contract the emulator looks at. -/
structure ContractAddresses where
  channels : Address
  deriving DecidableEq

/-- What the emulator calls in other crates. -/
structure Host where
  contractAddresses : String → Option ContractAddresses
  parseTx : List UInt8 → Address → ContractAddresses →
    Except String (Action × Address)
  generateChannelId : Address → Address → ChannelId
  parse : Currency → String → Option Nat
  print : Currency → Nat → String
  /-- The sum of a time and a duration, both in milliseconds; `none` stands for
  a panic. -/
  later : Nat → Nat → Option Nat
  rfc3339 : Nat → String
  displayAddress : Address → String
  displayChannel : ChannelId → String
  getAccount : IndexMap UInt32 Account → Address → Option UInt32
  /-- The key of the Safe of an account in the maps of amounts. -/
  getAccountSafe : IndexMap UInt32 Account → Address → Option String
  getChannelById : IndexMap String Channel → ChannelId → Option String
  getSafeByOwner : IndexMap String Safe → Address → List Safe

/-- Amounts are read back as they were printed. -/
def Host.RoundTrips (host : Host) : Prop :=
  ∀ currency amount, host.parse currency (host.print currency amount) =
    some amount

/-- Accounts are looked up by the text of their address. -/
structure Host.FindsAccounts (host : Host) : Prop where
  found : ∀ {accounts address key}, host.getAccount accounts address =
    some key → ∃ account, accounts.get? key = some account ∧
      account.chainKey = hexEncode address
  missing : ∀ {accounts address}, host.getAccount accounts address = none →
    ∀ account ∈ accounts.values, account.chainKey ≠ hexEncode address

/-- The receiving end of the interceptor channel. -/
inductive Interceptor where
  | listening
  | dropped
  deriving DecidableEq

structure FullStateEmulator where
  moduleAddress : Address
  interceptor : Option Interceptor
  deriving DecidableEq

def emulatedTxPrice : Nat := 1

/-- A `MockClientError`; one of them wraps an `InternalTxError`. -/
structure ClientError where
  message : String
  internal : Bool := false
  deriving DecidableEq

inductive Failure where
  | err (error : ClientError)
  | panicked
  deriving DecidableEq

abbrev Update := EStateM Failure State

def refuse {α : Type} (message : String) : Update α :=
  throw (.err { message := message })

def okOr {α : Type} (value : Option α) (message : String) : Update α :=
  match value with
  | some value => pure value
  | none => refuse message

def ensure (holds : Prop) [Decidable holds] (message : String) : Update Unit :=
  if holds then pure () else refuse message

def orPanic {α : Type} (value : Option α) : Update α :=
  match value with
  | some value => pure value
  | none => throw .panicked

def u32Succ (value : UInt32) : Option UInt32 :=
  if value.toNat + 1 < UInt32.size then some (value + 1) else none

def u64Succ (value : UInt64) : Option UInt64 :=
  if value.toNat + 1 < UInt64.size then some (value + 1) else none

def i32Succ (value : Int32) : Option Int32 :=
  if value = Int32.maxValue then none else some (value + 1)

section Lookup

variable (host : Host)

def Host.account (state : State) (address : Address) :
    Option (UInt32 × Account) := do
  let key ← host.getAccount state.accounts address
  let account ← state.accounts.get? key
  pure (key, account)

/-- `get_channel_by_id_mut`, with the place of the channel. -/
def Host.channel (state : State) (channelId : ChannelId) :
    Option (String × Channel) := do
  let key ← host.getChannelById state.channels channelId
  let channel ← state.channels.get? key
  pure (key, channel)

def Host.payerKey (state : State) (sender : Address) : Payer → Option String
  | .eoa => some (hexEncode sender)
  | .safe => host.getAccountSafe state.accounts sender

end Lookup

/-- An entry of a map of amounts, with its place. -/
def State.entry (state : State) (ledger : Ledger) (key : Option String) :
    Option (String × TokenValue) := do
  let key ← key
  let entry ← (state.ledger ledger).get? key
  pure (key, entry)

section Actions

variable (host : Host)

/-- Take an amount out of an entry that has to hold it. -/
def debit (ledger : Ledger) (key : Option String) (amount : Nat)
    (missing unread : String) (low : Nat → String) : Update Unit := do
  let state ← get
  let (key, entry) ← okOr (state.entry ledger key) missing
  let balance ← okOr (host.parse ledger.currency entry.value) unread
  ensure (amount ≤ balance) (low balance)
  modify (·.write ledger key
    { entry with value := host.print ledger.currency (balance - amount) })

def debitSafe (ledger : Ledger) (sender : Address) (amount : Nat)
    (missing unread : String) (low : Nat → String) : Update Unit := do
  let state ← get
  debit host ledger (host.getAccountSafe state.accounts sender) amount missing
    unread low

/-- Add an amount to an entry, or make a new one. -/
def deposit (ledger : Ledger) (key : String) (amount : Nat)
    (typename unread : String) : Update Unit := do
  let state ← get
  match (state.ledger ledger).get? key with
  | some entry => do
      let balance ← okOr (host.parse ledger.currency entry.value) unread
      modify (·.write ledger key
        { entry with value := host.print ledger.currency (balance + amount) })
  | none =>
      modify (·.write ledger key
        { typename := typename, value := host.print ledger.currency amount })

/-- Add an amount to a channel, which is at the key. -/
def creditChannel (key : String) (channel : Channel) (amount : Nat)
    (unread : String) : Update Unit := do
  let balance ← okOr (host.parse .wxHopr channel.balance) unread
  modify (·.setChannel key
    { channel with balance := host.print .wxHopr (balance + amount) })

def registerSafeAddress (sender safeAddress : Address) : Update Unit := do
  let state ← get
  let safe ← okOr (state.deployedSafes.get? (hexEncode safeAddress))
    s!"safe address {host.displayAddress safeAddress} is not a deployed safe"
  ensure (hexEncode sender ∉ safe.registeredNodes)
    (s!"node {host.displayAddress sender} already registered " ++
      s!"at safe address {host.displayAddress safeAddress}")
  modify (·.setSafe (hexEncode safeAddress)
    { safe with registeredNodes := safe.registeredNodes ++ [hexEncode sender] })
  let state ← get
  match host.account state sender with
  | some (key, account) =>
      modify (·.setAccount key
        { account with safeAddress := some (hexEncode safeAddress) })
  | none => pure ()

def maxKey : List UInt32 → Option UInt32
  | [] => none
  | key :: rest =>
      match maxKey rest with
      | some other => some (if key < other then other else key)
      | none => some key

def nextKeyId (accounts : IndexMap UInt32 Account) : Option UInt32 :=
  match maxKey accounts.keys with
  | some key => u32Succ key
  | none => some 1

def announce (sender : Address) (packetKey : PacketKey)
    (multiaddress : Option String) : Update Unit := do
  let state ← get
  match host.account state sender with
  | some (key, account) => do
      let account := { account with packetKey := hexEncode packetKey }
      modify (·.setAccount key account)
      match multiaddress with
      | some multiaddress => do
          ensure (multiaddress ≠ "") "multiaddress must not be empty"
          modify (·.setAccount key
            { account with
              multiAddresses := account.multiAddresses ++ [multiaddress] })
      | none => pure ()
  | none => do
      let key ← orPanic (nextKeyId state.accounts)
      modify (·.setAccount key
        { chainKey := hexEncode sender
          -- a cast, which keeps the bits
          keyid := key.toInt32
          multiAddresses := multiaddress.toList
          packetKey := hexEncode packetKey
          safeAddress :=
            (host.getSafeByOwner state.deployedSafes sender).head?.map
              (·.address) })

/-- The two withdrawals.  Through the Safe the value moves out of the Safe,
though the signer still pays the fee. -/
def withdraw (ledger : Ledger) (name typename : String)
    (sender destination : Address) (amount : Nat) (payer : Payer) :
    Update Unit := do
  let state ← get
  let whose := s!"the {payer.text} payer of {host.displayAddress sender}"
  debit host ledger (host.payerKey state sender payer) amount
    s!"missing {name} balance for {whose}"
    s!"failed to parse {name} balance for {whose}"
    (fun balance => s!"balance {host.print ledger.currency balance} " ++
      s!"of {whose} is lower than amount {host.print ledger.currency amount}")
  deposit host ledger (hexEncode destination) amount typename
    s!"failed to parse {name} balance for {host.displayAddress destination}"

def withdrawNative (sender destination : Address) (amount : Nat)
    (payer : Payer) : Update Unit :=
  withdraw host .nativeBalances "native" "NativeBalance" sender destination
    amount payer

def withdrawToken (sender destination : Address) (amount : Nat)
    (payer : Payer) : Update Unit :=
  withdraw host .tokenBalances "token" "HoprBalance" sender destination amount
    payer

/-- Only the allowance of the Safe towards the channels contract is kept. -/
def approve (addresses : ContractAddresses) (sender spender : Address)
    (amount : Nat) (payer : Payer) : Update Unit := do
  if payer = .safe ∧ spender = addresses.channels then
    let state ← get
    let (key, entry) ← okOr
      (state.entry .safeAllowances (host.getAccountSafe state.accounts sender))
      s!"missing safe allowance for {host.displayAddress sender}"
    modify (·.write .safeAllowances key
      { entry with value := host.print .wxHopr amount })
  else pure ()

/-- The fields are written one after the other; the sum may panic. -/
def reopen (key : String) (channel : Channel) : Update Channel := do
  if channel.status = .closed then
    let channel :=
      { channel with
        status := .opened, ticketIndex := "0", closureTime := none }
    modify (·.setChannel key channel)
    let epoch ← orPanic (i32Succ channel.epoch)
    let channel := { channel with epoch := epoch }
    modify (·.setChannel key channel)
    pure channel
  else pure channel

def Channel.connects (source destination : Int32) (channel : Channel) : Bool :=
  channel.source == source && channel.destination == destination

/-- The channel that is opened between two accounts without one. -/
def Host.newChannel (sender dstAddr : Address) (source destination : Account)
    (stake : Nat) : Channel :=
  { balance := host.print .wxHopr stake
    closureTime := none
    concreteChannelId := hexEncode (host.generateChannelId sender dstAddr)
    destination := destination.keyid
    epoch := 1
    source := source.keyid
    status := .opened
    ticketIndex := "0" }

def fundChannel (sender dstAddr : Address) (stake : Nat) : Update Unit := do
  let state ← get
  let (_, source) ← okOr (host.account state sender)
    s!"missing account for {host.displayAddress sender}"
  let (_, destination) ← okOr (host.account state dstAddr)
    s!"missing account for {host.displayAddress dstAddr}"
  ensure (0 < stake) "stake must be greater than zero"
  debitSafe host .tokenBalances sender stake
    s!"missing safe balance for {host.displayAddress sender}"
    s!"failed to parse safe balance for safe of {host.displayAddress sender}"
    (fun _ => s!"safe balance of {host.displayAddress sender} " ++
      s!"for {host.displayAddress sender} " ++
      s!"is lower than stake {host.print .wxHopr stake}")
  debitSafe host .safeAllowances sender stake
    s!"missing safe allowance for {host.displayAddress sender}"
    s!"failed to parse safe allowance for {host.displayAddress sender}"
    (fun _ => s!"safe allowance for {host.displayAddress sender} " ++
      s!"is lower than stake {host.print .wxHopr stake}")
  let state ← get
  match state.channels.first?
      (Channel.connects source.keyid destination.keyid) with
  | some (key, existing) => do
      let existing ← reopen key existing
      creditChannel host key existing stake
        (s!"failed to parse balance on channel {host.displayAddress sender}" ++
          s!" -> {host.displayAddress dstAddr}")
  | none =>
      modify (·.setChannel
        (hexEncode (host.generateChannelId sender dstAddr))
        (host.newChannel sender dstAddr source destination stake))

def missingChannel (channelId : ChannelId) : String :=
  s!"missing channel {host.displayChannel channelId}"

/-- The grace period in milliseconds, at least a tenth of a second. -/
def gracePeriod (seconds : UInt64) : Nat := max (seconds.toNat * 1000) 100

def initializeChannelClosure (now : Nat) (channelId : ChannelId) :
    Update Unit := do
  let state ← get
  let seconds ← okOr (parseU64 state.chainInfo.channelClosureGracePeriod)
    "failed to parse channel closure grace period"
  let (key, channel) ← okOr (host.channel state channelId)
    (missingChannel host channelId)
  modify (·.setChannel key { channel with status := .pendingToClose })
  let closing ← orPanic (host.later now (gracePeriod seconds))
  modify (·.setChannel key
    { channel with
      status := .pendingToClose
      closureTime := some (host.rfc3339 closing) })

def finalizeChannelClosure (channelId : ChannelId) : Update Unit := do
  let state ← get
  let (key, channel) ← okOr (host.channel state channelId)
    (missingChannel host channelId)
  ensure (channel.status = .pendingToClose)
    s!"channel {host.displayChannel channelId} is not pending to close"
  modify (·.setChannel key { channel with status := .closed })

def incomingChannelClosure (channelId : ChannelId) : Update Unit := do
  let state ← get
  let (key, channel) ← okOr (host.channel state channelId)
    (missingChannel host channelId)
  modify (·.setChannel key { channel with status := .closed })

/-- The token balance of the Safe of the account at the end of a channel. -/
def State.destinationSafe (state : State) (channel : Channel) :
    Option (String × TokenValue) := do
  -- a cast, which keeps the bits
  let account ← state.accounts.get? channel.destination.toUInt32
  state.entry .tokenBalances account.safeAddress

def countRedeemed (safeAddr : String) (amount : Nat) : Update Unit := do
  let state ← get
  match state.safeRedeemStats.get? safeAddr with
  | some stats => do
      let redeemed ← okOr (host.parse .wxHopr stats.redeemedAmount)
        s!"failed to parse redeemed value on {safeAddr}"
      let count ← okOr (parseU64 stats.redemptionCount)
        s!"failed to parse redeemed count on {safeAddr}"
      let stats :=
        { stats with redeemedAmount := host.print .wxHopr (redeemed + amount) }
      modify (·.setStats safeAddr stats)
      let count ← orPanic (u64Succ count)
      modify (·.setStats safeAddr
        { stats with redemptionCount := printU64 count })
  | none =>
      modify (·.setStats safeAddr
        { typename := "RedeemedStats"
          redeemedAmount := host.print .wxHopr amount
          redemptionCount := "1"
          rejectedAmount := "0"
          rejectionCount := "0" })

/-- Where a redeemed amount goes: to the opposite channel, else to the Safe of
the destination, else nowhere. -/
def payOut (channelId : ChannelId) (channel : Channel) (amount : Nat) :
    Update Unit := do
  let state ← get
  match state.channels.first?
      (Channel.connects channel.destination channel.source) with
  | some (key, opposite) =>
      creditChannel host key opposite amount
        (s!"failed to parse balance on opposite channel " ++
          s!"{host.displayChannel channelId}")
  | none =>
      match state.destinationSafe channel with
      | some (safeAddr, entry) => do
          let balance ← okOr (host.parse .wxHopr entry.value)
            s!"failed to parse balance on safe {safeAddr}"
          modify (·.write .tokenBalances safeAddr
            { entry with value := host.print .wxHopr (balance + amount) })
          countRedeemed host safeAddr amount
      | none => pure ()

def redeemTicket (channelId : ChannelId) (ticketIndex : UInt64)
    (ticketAmount : Nat) : Update Unit := do
  let state ← get
  let name := host.displayChannel channelId
  let (key, channel) ← okOr (host.channel state channelId)
    (missingChannel host channelId)
  ensure (channel.status ≠ .closed) s!"channel {name} is closed"
  let channelTicketIndex ← okOr (parseU64 channel.ticketIndex)
    s!"failed to parse ticket index of {name}"
  if ticketIndex < channelTicketIndex then
    throw (.err
      { message :=
          s!"ticket index of {name} ({printU64 channelTicketIndex}) is " ++
            s!"greater than redeemed ticket index {printU64 ticketIndex}"
        internal := true })
  else do
    let balance ← okOr (host.parse .wxHopr channel.balance)
      s!"failed to parse balance on channel {name}"
    ensure (ticketAmount ≤ balance)
      (s!"balance of channel {name} ({host.print .wxHopr balance}) is " ++
        s!"lower than ticket amount {host.print .wxHopr ticketAmount}")
    let nextIndex ← orPanic (u64Succ ticketIndex)
    let channel :=
      { channel with
        ticketIndex := printU64 nextIndex
        balance := host.print .wxHopr (balance - ticketAmount) }
    modify (·.setChannel key channel)
    payOut host channelId channel ticketAmount

def perform (addresses : ContractAddresses) (now : Nat) (sender : Address) :
    Action → Update Unit
  | .registerSafeAddress safeAddress =>
      registerSafeAddress host sender safeAddress
  | .announce packetKey multiaddress =>
      announce host sender packetKey multiaddress
  | .withdrawNative destination amount payer =>
      withdrawNative host sender destination amount payer
  | .withdrawToken destination amount payer =>
      withdrawToken host sender destination amount payer
  | .approve spender amount payer =>
      approve host addresses sender spender amount payer
  | .fundChannel dstAddr stake => fundChannel host sender dstAddr stake
  | .initializeChannelClosure channelId =>
      initializeChannelClosure host now channelId
  | .finalizeChannelClosure channelId => finalizeChannelClosure host channelId
  | .incomingChannelClosure channelId => incomingChannelClosure host channelId
  | .redeemTicket channelId ticketIndex ticketAmount =>
      redeemTicket host channelId ticketIndex ticketAmount

/-- The transaction is counted and its price is charged. -/
def chargeFee (sender : Address) : Update Unit := do
  modify (·.countTx (hexEncode sender))
  debit host .nativeBalances (some (hexEncode sender)) emulatedTxPrice
    s!"missing native balance for {host.displayAddress sender}"
    s!"failed to parse native balance for {host.displayAddress sender}"
    (fun _ => "insufficient native funds for tx")

def intercept (interceptor : Option Interceptor) (action : Action) :
    Update (Option Action) :=
  match interceptor with
  | none => pure none
  | some .listening => pure (some action)
  | some .dropped => refuse "failed to send tx to tx interceptor"

/-- The effect of an action that has been parsed. -/
def execute (interceptor : Option Interceptor) (addresses : ContractAddresses)
    (now : Nat) (sender : Address) (action : Action) :
    Update (Option Action) := do
  perform host addresses now sender action
  chargeFee host sender
  intercept interceptor action

def updateState (emulator : FullStateEmulator) (now : Nat)
    (signedTx : List UInt8) : Update (Option Action) := do
  let state ← get
  let addresses ← okOr
    (host.contractAddresses state.chainInfo.contractAddresses)
    "failed to parse contract addresses"
  match host.parseTx signedTx emulator.moduleAddress addresses with
  | .ok (action, sender) =>
      execute host emulator.interceptor addresses now sender action
  | .error text => refuse text

end Actions

end HoprUtilities.Blokli
