import HoprUtilities.Blokli.StateBuilder

/-!
# From the builder to the connector

The connector loads the accounts and channels of a state that the builder has
written.  It takes the key ids of a channel back to addresses through the
accounts, so that the entries of both caches can be compared with those given
to the builder.

The client answers the two queries with all accounts and all channels, in any
order.
-/

namespace HoprUtilities.Blokli.BlokliTestStateBuilder

open HoprUtilities.Lib
open Connector

/-- The connector reads what the builder prints. -/
structure ReadsBack (reader : Reader) (host : Host) : Prop where
  address : ∀ address : Address,
    reader.address (hexEncode address) = .ok address
  packetKey : ∀ key : PacketKey, reader.packetKey (hexEncode key) = .ok key
  balance : ∀ amount,
    reader.balance (host.print .wxHopr amount) = .ok amount
  generateChannelId : reader.generateChannelId = host.generateChannelId

def emptyView : View where
  accounts := .empty
  channels := .empty

section Accounts

variable {host : Host} {reader : Reader}

/-- An account after a round trip. -/
def reread (reader : Reader) (account : AccountEntry) : AccountEntry :=
  { account with
    entryType :=
      if getMultiaddrs account ≠ [] then
        .announced ((getMultiaddrs account).filterMap reader.multiaddr)
      else .notAnnounced }

theorem convertAccountModel_accountModel (reads : ReadsBack reader host)
    (account : AccountEntry) :
    convertAccountModel reader (accountModel account) =
      .ok (reread reader account) := by
  have safes : (account.safeAddress.map hexEncode).mapM reader.address =
      .ok account.safeAddress := by
    cases account.safeAddress with
    | none => rfl
    | some safe =>
        have read := reads.address safe
        simp [read]
  have key := reads.packetKey account.publicKey
  have address := reads.address account.chainAddr
  simp [convertAccountModel, accountModel, safes, key, address]
  rfl

theorem loadAccounts_accountModels (reads : ReadsBack reader host)
    (accounts : List AccountEntry) (keyids : IndexMap UInt32 Address)
    (view : View) :
    loadAccounts reader (accounts.map accountModel) (keyids, view) =
      .ok (keyids.extend (accounts.map fun account =>
          (account.keyId, account.chainAddr)),
        { view with
          accounts := view.accounts.extend (accounts.map fun account =>
            (account.chainAddr, reread reader account)) }) := by
  induction accounts generalizing keyids view with
  | nil => rfl
  | cons account rest induction =>
      have converted := convertAccountModel_accountModel reads account
      rw [List.map_cons, loadAccounts, converted]
      exact induction _ _

end Accounts

section Channels

variable {host : Host} {reader : Reader}

/-- The time of a closing channel is read as it was printed. -/
def TimeReadsBack (reader : Reader) (host : Host) (channel : ChannelEntry) :
    Prop :=
  ∀ time, channel.status = .pendingToClose time →
    reader.dateTime (host.rfc3339 time) = .ok time

theorem convertStatus_channelModel {channel : ChannelEntry}
    (time : TimeReadsBack reader host channel) (source destination : Int32) :
    convertStatus reader (channelModel host channel source destination) =
      .ok channel.status := by
  unfold convertStatus channelModel closureTime
  cases status : channel.status with
  | closed => rfl
  | opened => rfl
  | pendingToClose closing =>
      have read := time closing status
      simp [statusModel, read, Except.map]

theorem convertChannelModel_channelModel (reads : ReadsBack reader host)
    {channel : ChannelEntry} (time : TimeReadsBack reader host channel)
    (builds : reader.build channel = .ok channel)
    (source destination : Int32) :
    convertChannelModel reader (channelModel host channel source destination)
      channel.source channel.destination = .ok channel := by
  have status := convertStatus_channelModel time source destination
  have balance := reads.balance channel.balance
  have index : convertTicketIndex
      (channelModel host channel source destination) =
        .ok channel.ticketIndex := by
    simp [convertTicketIndex, channelModel, parseU64_printU64]
  rw [convertChannelModel, draftChannel, status, index]
  simp only [channelModel, balance, bind, Except.bind, pure, Except.pure,
    UInt32.toUInt32_toInt32]
  exact builds

/-- The accounts of a built state. -/
def accountModels (accounts : List AccountEntry) : IndexMap UInt32 Account :=
  (IndexMap.collect AccountEntry.keyId accounts).translate
    (.refl UInt32) accountModel

/-- The addresses under their key ids, as `connect` collects them. -/
def addresses (accounts : List AccountEntry) : IndexMap UInt32 Address :=
  (IndexMap.collect AccountEntry.keyId accounts).translate
    (.refl UInt32) AccountEntry.chainAddr

/-- The address of an account leads to a key id, and the key id back to the
address: to that of the first account that has it. -/
theorem keyidOf_known {accounts others : List AccountEntry}
    (distinct : (accounts.map AccountEntry.keyId).Nodup)
    (permuted : others.Perm accounts) {address : Address}
    (known : ∃ account ∈ accounts, account.chainAddr = address)
    (role : String) :
    ∃ keyid, keyidOf (accountModels accounts) address = some keyid ∧
      addressOf (addresses others) role keyid = .ok address := by
  have values : (accountModels accounts).values =
      accounts.map accountModel := by
    rw [accountModels, IndexMap.values_translate,
      IndexMap.values_collect distinct]
  obtain ⟨owner, owns, rfl⟩ := known
  have found : ∃ account, accounts.find? (fun account =>
      (accountModel account).chainKey = hexEncode owner.chainAddr) =
        some account := by
    apply Option.isSome_iff_exists.mp
    rw [List.find?_isSome]
    exact ⟨owner, owns, by simp [accountModel]⟩
  obtain ⟨account, found⟩ := found
  have member := List.mem_of_find?_eq_some found
  have same : account.chainAddr = owner.chainAddr := by
    have passes := List.find?_some found
    simp only [decide_eq_true_eq] at passes
    exact hexEncode_inj passes
  refine ⟨account.keyId.toInt32, ?_, ?_⟩
  · rw [keyidOf, values, List.find?_map, Function.comp_def, found]
    rfl
  · have unique : (others.map AccountEntry.keyId).Nodup :=
      (permuted.map _).nodup_iff.mpr distinct
    have here := IndexMap.get?_translate
      (IndexMap.collect AccountEntry.keyId others) (.refl UInt32)
      AccountEntry.chainAddr account.keyId
    have collected := (IndexMap.get?_collect_eq_some unique).mpr
      ⟨permuted.mem_iff.mpr member, rfl⟩
    rw [collected, Function.Embedding.refl_apply, Option.map_some, same]
      at here
    rw [addressOf, UInt32.toUInt32_toInt32, addresses, here]

/-- A channel as it stands in a built state. -/
def encoded (host : Host) (accounts : IndexMap UInt32 Account)
    (channel : ChannelEntry) : Channel :=
  channelModel host channel ((keyidOf accounts channel.source).getD 0)
    ((keyidOf accounts channel.destination).getD 0)

/-- Both ends of the channel are addresses of the accounts. -/
def Between (accounts : List AccountEntry) (channel : ChannelEntry) : Prop :=
  (∃ account ∈ accounts, account.chainAddr = channel.source) ∧
    ∃ account ∈ accounts, account.chainAddr = channel.destination

theorem withChannels_ok (host : Host) {accounts : List AccountEntry}
    {state : State}
    (distinct : (accounts.map AccountEntry.keyId).Nodup)
    (stored : state.accounts = accountModels accounts)
    {channels : List ChannelEntry}
    (between : ∀ channel ∈ channels, Between accounts channel) :
    withChannels host channels state =
      .ok { state with
        channels := state.channels.extend (channels.map fun channel =>
          (hexEncode (getId host channel),
            encoded host (accountModels accounts) channel)) } := by
  have entries : channels.mapM (channelEntry host state.accounts) =
      .ok (channels.map fun channel =>
        (hexEncode (getId host channel),
          encoded host (accountModels accounts) channel)) := by
    apply mapM_ok
    intro channel member
    obtain ⟨source, destination⟩ := between channel member
    obtain ⟨sourceId, foundSource, _⟩ :=
      keyidOf_known distinct (.refl _) source "source"
    obtain ⟨destinationId, foundDestination, _⟩ :=
      keyidOf_known distinct (.refl _) destination "destination"
    simp [channelEntry, stored, encoded, foundSource, foundDestination]
  rw [withChannels, entries]
  rfl

theorem loadChannels_cons {keyids : IndexMap UInt32 Address}
    {model : Channel} {srcAddr dstAddr : Address} {channel : ChannelEntry}
    (source : addressOf keyids "source" model.source = .ok srcAddr)
    (destination : addressOf keyids "destination" model.destination =
      .ok dstAddr)
    (converts : convertChannelModel reader model srcAddr dstAddr =
      .ok channel)
    (rest : List Channel) (view : View) :
    loadChannels reader keyids (model :: rest) view =
      loadChannels reader keyids rest (view.setChannel reader channel) := by
  rw [loadChannels, source, destination]
  simp only [bind, Except.bind, converts]

theorem loadChannels_encoded (reads : ReadsBack reader host)
    {accounts others : List AccountEntry}
    (distinct : (accounts.map AccountEntry.keyId).Nodup)
    (permuted : others.Perm accounts) {channels : List ChannelEntry}
    (between : ∀ channel ∈ channels, Between accounts channel)
    (times : ∀ channel ∈ channels, TimeReadsBack reader host channel)
    (builds : ∀ channel ∈ channels, reader.build channel = .ok channel)
    (view : View) :
    loadChannels reader (addresses others)
        (channels.map (encoded host (accountModels accounts))) view =
      .ok { view with
        channels := view.channels.extend (channels.map fun channel =>
          (channel.getId reader, channel)) } := by
  induction channels generalizing view with
  | nil => rfl
  | cons channel rest induction =>
      obtain ⟨source, destination⟩ := between channel List.mem_cons_self
      obtain ⟨sourceId, foundSource, backSource⟩ :=
        keyidOf_known distinct permuted source "source"
      obtain ⟨destinationId, foundDestination, backDestination⟩ :=
        keyidOf_known distinct permuted destination "destination"
      have converted := convertChannelModel_channelModel reads
        (times channel List.mem_cons_self) (builds channel List.mem_cons_self)
        sourceId destinationId
      have model : encoded host (accountModels accounts) channel =
          channelModel host channel sourceId destinationId := by
        rw [encoded, foundSource, foundDestination]
        rfl
      rw [List.map_cons, model,
        loadChannels_cons backSource backDestination converted]
      exact induction
        (fun other member => between other (List.mem_cons_of_mem _ member))
        (fun other member => times other (List.mem_cons_of_mem _ member))
        (fun other member => builds other (List.mem_cons_of_mem _ member))
        (view.setChannel reader channel)

end Channels

section Caches

variable {host : Host} {reader : Reader} {start : State}

def channelKey : ChannelId ↪ String :=
  ⟨hexEncode, fun _ _ same => hexEncode_inj same⟩

theorem withAccounts_empty (host : Host)
    (noAccounts : start.accounts = .empty)
    (accounts : List (AccountEntry × Nat × Nat))
    (distinct : (accounts.map (·.1.keyId)).Nodup) :
    ∃ built, withAccounts host accounts start = .ok built ∧
      built.accounts = accountModels (accounts.map Prod.fst) ∧
      built.channels = start.channels := by
  have fresh : ∀ account ∈ accounts,
      start.accounts.get? account.1.keyId = none := by
    intro account _
    rw [noAccounts]
    rfl
  obtain ⟨built, builds, written, kept⟩ :=
    withAccounts_ok host accounts distinct fresh
  refine ⟨built, builds, ?_, kept⟩
  have encoded := IndexMap.extend_encoded (.refl UInt32) accountModel
    AccountEntry.keyId (accounts.map Prod.fst)
  rw [List.map_map] at encoded
  rw [written, noAccounts, accountModels, ← encoded]
  rfl

/-- The caches after the first query. -/
def accountsView (reader : Reader) (accounts : List AccountEntry) : View where
  accounts := (IndexMap.collect AccountEntry.chainAddr accounts).translate
    (.refl Address) (reread reader)
  channels := .empty

theorem load_accountModels (reads : ReadsBack reader host)
    {accounts : List AccountEntry}
    (distinct : (accounts.map AccountEntry.keyId).Nodup)
    {models : List Account}
    (answer : models.Perm (accountModels accounts).values)
    (channels : List Channel) :
    ∃ others, others.Perm accounts ∧
      load reader models channels emptyView =
        loadChannels reader (addresses others) channels
          (accountsView reader others) := by
  rw [accountModels, IndexMap.values_translate,
    IndexMap.values_collect distinct] at answer
  obtain ⟨others, rfl, permuted⟩ := IndexMap.exists_perm_of_map answer
  refine ⟨others, permuted, ?_⟩
  have keyids := IndexMap.extend_encoded (.refl UInt32)
    AccountEntry.chainAddr AccountEntry.keyId others
  have cache := IndexMap.extend_encoded (.refl Address) (reread reader)
    AccountEntry.chainAddr others
  rw [load, loadAccounts_accountModels reads, addresses, accountsView,
    ← keyids, ← cache]
  rfl

theorem withChannels_built (host : Host)
    (noAccounts : start.accounts = .empty)
    (noChannels : start.channels = .empty)
    (accounts : List (AccountEntry × Nat × Nat))
    (distinct : ((accounts.map Prod.fst).map AccountEntry.keyId).Nodup)
    {channels : List ChannelEntry}
    (between : ∀ channel ∈ channels,
      Between (accounts.map Prod.fst) channel) :
    ∃ built,
      (withAccounts host accounts start >>= withChannels host channels) =
        .ok built ∧
      built.accounts = accountModels (accounts.map Prod.fst) ∧
      built.channels = (IndexMap.collect (getId host) channels).translate
        channelKey
        (encoded host (accountModels (accounts.map Prod.fst))) := by
  have keys := distinct
  rw [List.map_map] at keys
  obtain ⟨listed, builds, stored, kept⟩ :=
    withAccounts_empty host noAccounts accounts keys
  have written := withChannels_ok host distinct stored between
  have cache := IndexMap.extend_encoded channelKey
    (encoded host (accountModels (accounts.map Prod.fst))) (getId host)
    channels
  rw [kept, noChannels] at written
  have both := congrArg (· >>= withChannels host channels) builds
  exact ⟨_, both.trans written, stored, cache⟩

theorem loadChannels_answer (reads : ReadsBack reader host)
    {accounts others : List AccountEntry}
    (distinct : (accounts.map AccountEntry.keyId).Nodup)
    (permuted : others.Perm accounts) {channels : List ChannelEntry}
    (between : ∀ channel ∈ channels, Between accounts channel)
    (times : ∀ channel ∈ channels, TimeReadsBack reader host channel)
    (builds : ∀ channel ∈ channels, reader.build channel = .ok channel)
    {models : List Channel}
    (answer : models.Perm ((IndexMap.collect (getId host) channels).translate
      channelKey (encoded host (accountModels accounts))).values)
    (view : View) (noChannels : view.channels = .empty) :
    ∃ loaded, loadChannels reader (addresses others) models view =
        .ok { view with channels := loaded } ∧
      ∀ channelId, loaded.get? channelId =
        channels.reverse.find? fun channel =>
          channel.getId reader = channelId := by
  rw [IndexMap.values_translate] at answer
  obtain ⟨listed, rfl, reordered⟩ := IndexMap.exists_perm_of_map answer
  have given : ∀ channel ∈ listed, channel ∈ channels := fun channel member =>
    IndexMap.mem_of_mem_values_collect (reordered.mem_iff.mp member)
  have ids : ChannelEntry.getId reader = getId host := by
    funext channel
    rw [ChannelEntry.getId, reads.generateChannelId, getId]
  refine ⟨IndexMap.collect (ChannelEntry.getId reader) listed, ?_, ?_⟩
  · rw [loadChannels_encoded reads distinct permuted
      (fun channel member => between channel (given channel member))
      (fun channel member => times channel (given channel member))
      (fun channel member => builds channel (given channel member)),
      noChannels]
    rfl
  · intro channelId
    have order := IndexMap.get?_collect_perm reordered
      (IndexMap.nodup_keys_collect (getId host) channels) channelId
    rw [ids, order, IndexMap.collect_values, IndexMap.get?_collect]

/-- The channel cache holds the channels given to the test builder, the last one
of each id, if the builder of channels builds what it is given. -/
theorem channels_survive (reads : ReadsBack reader host)
    (noAccounts : start.accounts = .empty)
    (noChannels : start.channels = .empty)
    (accounts : List (AccountEntry × Nat × Nat))
    (distinct : ((accounts.map Prod.fst).map AccountEntry.keyId).Nodup)
    (channels : List ChannelEntry)
    (between : ∀ channel ∈ channels,
      Between (accounts.map Prod.fst) channel)
    (times : ∀ channel ∈ channels, TimeReadsBack reader host channel)
    (builds : ∀ channel ∈ channels, reader.build channel = .ok channel) :
    ∃ built,
      (withAccounts host accounts start >>= withChannels host channels) =
        .ok built ∧
      ∀ accountAnswer channelAnswer,
        accountAnswer.Perm built.accounts.values →
        channelAnswer.Perm built.channels.values →
        ∃ view,
          load reader accountAnswer channelAnswer emptyView = .ok view ∧
          ∀ channelId, view.channels.get? channelId =
            channels.reverse.find? fun channel =>
              channel.getId reader = channelId := by
  obtain ⟨built, writes, stored, written⟩ :=
    withChannels_built host noAccounts noChannels accounts distinct between
  refine ⟨built, writes, ?_⟩
  intro accountAnswer channelAnswer accountsListed channelsListed
  rw [stored] at accountsListed
  rw [written] at channelsListed
  obtain ⟨others, permuted, loads⟩ := load_accountModels reads distinct
    accountsListed channelAnswer
  obtain ⟨loaded, channelsLoad, cached⟩ := loadChannels_answer reads distinct
    permuted between times builds channelsListed (accountsView reader others) rfl
  exact ⟨_, loads.trans channelsLoad, cached⟩

def silent : Host := .reference fun _ => none

/-- The reader that goes with it; it knows one time only. -/
def oneTime : Reader :=
  { Reader.reference with
    dateTime := fun text =>
      if text = printTime 1000 then .ok 1000 else .error "invalid time" }

def noNodes : State := { twoNodes with accounts := .empty }

theorem oneTime_readsBack : ReadsBack oneTime silent where
  address := hexDecode_hexEncode
  packetKey := hexDecode_hexEncode
  balance amount := by
    have read := parseAmount_printAmount .wxHopr amount
    simp [oneTime, Reader.reference, silent, Host.reference, read]
  generateChannelId := rfl

def aliceEntry : AccountEntry where
  publicKey := Vector.replicate 32 0x01
  chainAddr := alice
  keyId := 4294967295
  entryType := .notAnnounced
  safeAddress := some aliceSafe

def bobEntry : AccountEntry where
  publicKey := Vector.replicate 32 0x02
  chainAddr := bob
  keyId := 2147483648
  entryType := .announced ["/ip4/1.2.3.4/udp/10000"]
  safeAddress := none

def closingChannel : ChannelEntry where
  source := alice
  destination := bob
  balance := 5
  ticketIndex := 7
  status := .pendingToClose 1000
  channelEpoch := 16777215

def openChannel : ChannelEntry := { closingChannel with status := .opened }

theorem closingChannel_timeReadsBack :
    TimeReadsBack oneTime silent closingChannel := by
  intro time closing
  cases closing
  have printed : silent.rfc3339 1000 = printTime 1000 := rfl
  rw [printed]
  simp [oneTime]

/-- Both channels have the same id. -/
theorem channels_survive_twice : ∃ built,
    (withAccounts silent [(aliceEntry, 0, 0), (bobEntry, 0, 0)] noNodes >>=
      withChannels silent [openChannel, closingChannel]) = .ok built ∧
    ∃ view, load oneTime built.accounts.values built.channels.values
        emptyView = .ok view ∧
      view.channels.get? (joinAddresses alice bob) = some closingChannel := by
  have between : ∀ channel ∈ [openChannel, closingChannel],
      Between [aliceEntry, bobEntry] channel := by
    intro channel member
    have ends : channel.source = alice ∧ channel.destination = bob := by
      simp only [List.mem_cons, List.not_mem_nil, or_false] at member
      rcases member with rfl | rfl <;> exact ⟨rfl, rfl⟩
    rw [Between, ends.1, ends.2]
    exact ⟨⟨aliceEntry, by simp, rfl⟩, ⟨bobEntry, by simp, rfl⟩⟩
  have times : ∀ channel ∈ [openChannel, closingChannel],
      TimeReadsBack oneTime silent channel := by
    intro channel member
    simp only [List.mem_cons, List.not_mem_nil, or_false] at member
    rcases member with rfl | rfl
    · intro time closing
      cases closing
    · exact closingChannel_timeReadsBack
  have builds : ∀ channel ∈ [openChannel, closingChannel],
      oneTime.build channel = .ok channel := by
    intro channel member
    simp only [List.mem_cons, List.not_mem_nil, or_false] at member
    rcases member with rfl | rfl <;> rfl
  have empty : noNodes.accounts = .empty := rfl
  obtain ⟨built, writes, loads⟩ := channels_survive oneTime_readsBack empty
    rfl [(aliceEntry, 0, 0), (bobEntry, 0, 0)] (by decide) _ between times
    builds
  obtain ⟨view, loaded, cached⟩ := loads _ _ (.refl _) (.refl _)
  refine ⟨built, writes, view, loaded, ?_⟩
  rw [cached]
  decide +kernel

/-- An account that is announced without an address looks in the state like one
that is not announced. -/
def cachedAs (account : AccountEntry) : AccountEntry :=
  if account.entryType = .announced [] then
    { account with entryType := .notAnnounced }
  else account

theorem cachedAs_eq_self_iff (account : AccountEntry) :
    cachedAs account = account ↔ account.entryType ≠ .announced [] := by
  obtain ⟨publicKey, chainAddr, keyId, entryType, safeAddress⟩ := account
  by_cases hollow : entryType = .announced []
  · simp [cachedAs, hollow]
  · simp [cachedAs, hollow]

/-- The texts of the multiaddresses are read as they are. -/
def ParsesBack (reader : Reader) (account : AccountEntry) : Prop :=
  ∀ multiaddr ∈ getMultiaddrs account,
    reader.multiaddr multiaddr = some multiaddr

theorem reread_of_parsesBack {account : AccountEntry}
    (parses : ParsesBack reader account) :
    reread reader account = cachedAs account := by
  obtain ⟨publicKey, chainAddr, keyId, entryType, safeAddress⟩ := account
  cases entryType with
  | notAnnounced => simp [reread, cachedAs, getMultiaddrs]
  | announced multiaddrs =>
      have kept : multiaddrs.filterMap reader.multiaddr = multiaddrs := by
        have same := List.filterMap_congr (f := reader.multiaddr)
          (g := some) parses
        rw [getMultiaddrs] at same
        rw [same, List.filterMap_some]
      by_cases hollow : multiaddrs = []
      · simp [reread, cachedAs, getMultiaddrs, hollow]
      · simp [reread, cachedAs, getMultiaddrs, hollow, kept]

theorem get?_accountsView {accounts others : List AccountEntry}
    (apart : (accounts.map AccountEntry.chainAddr).Nodup)
    (permuted : others.Perm accounts)
    (parses : ∀ account ∈ accounts, ParsesBack reader account)
    (address : Address) :
    (accountsView reader others).accounts.get? address =
      (accounts.find? fun account => account.chainAddr = address).map
        cachedAs := by
  have translated := IndexMap.get?_translate
    (IndexMap.collect AccountEntry.chainAddr others) (.refl Address)
    (reread reader) address
  rw [Function.Embedding.refl_apply, IndexMap.get?_collect_perm permuted apart,
    IndexMap.get?_collect_of_nodup apart] at translated
  rw [accountsView, translated]
  cases found : accounts.find? fun account => account.chainAddr = address with
  | none => rfl
  | some account =>
      have member := List.mem_of_find?_eq_some found
      exact congrArg some (reread_of_parsesBack (parses account member))

theorem find?_cachedAs_iff {accounts : List AccountEntry}
    (apart : (accounts.map AccountEntry.chainAddr).Nodup) :
    (∀ address,
      (accounts.find? fun account => account.chainAddr = address).map
        cachedAs =
          accounts.find? fun account => account.chainAddr = address) ↔
      ∀ account ∈ accounts, account.entryType ≠ .announced [] := by
  constructor
  · intro same account member
    have found : accounts.find? (fun other =>
        other.chainAddr = account.chainAddr) = some account := by
      rw [← IndexMap.get?_collect_of_nodup apart,
        IndexMap.get?_collect_eq_some apart]
      exact ⟨member, rfl⟩
    have kept := same account.chainAddr
    rw [found, Option.map_some, Option.some.injEq] at kept
    exact (cachedAs_eq_self_iff account).mp kept
  · intro addressed address
    cases found : accounts.find? fun account =>
        account.chainAddr = address with
    | none => rfl
    | some account =>
        have member := List.mem_of_find?_eq_some found
        exact congrArg some
          ((cachedAs_eq_self_iff account).mpr (addressed account member))

/-- The account cache holds the accounts given to the builder, but for those
announced without an address, which come back as not announced. -/
theorem accounts_survive (reads : ReadsBack reader host)
    (noAccounts : start.accounts = .empty)
    (noChannels : start.channels = .empty)
    (accounts : List (AccountEntry × Nat × Nat))
    (distinct : ((accounts.map Prod.fst).map AccountEntry.keyId).Nodup)
    (apart : ((accounts.map Prod.fst).map AccountEntry.chainAddr).Nodup)
    (parses : ∀ account ∈ accounts.map Prod.fst,
      ParsesBack reader account) :
    ∃ built, withAccounts host accounts start = .ok built ∧
      ∀ accountAnswer channelAnswer,
        accountAnswer.Perm built.accounts.values →
        channelAnswer.Perm built.channels.values →
        ∃ view,
          load reader accountAnswer channelAnswer emptyView = .ok view ∧
          (∀ address, view.accounts.get? address =
            ((accounts.map Prod.fst).find? fun account =>
              account.chainAddr = address).map cachedAs) ∧
          ((∀ address, view.accounts.get? address =
              (accounts.map Prod.fst).find? fun account =>
                account.chainAddr = address) ↔
            ∀ account ∈ accounts.map Prod.fst,
              account.entryType ≠ .announced []) := by
  have keys := distinct
  rw [List.map_map] at keys
  obtain ⟨built, builds, stored, kept⟩ :=
    withAccounts_empty host noAccounts accounts keys
  refine ⟨built, builds, ?_⟩
  intro accountAnswer channelAnswer accountsListed channelsListed
  rw [stored] at accountsListed
  rw [kept, noChannels] at channelsListed
  have none : channelAnswer = [] := channelsListed.eq_nil
  obtain ⟨others, permuted, loads⟩ := load_accountModels reads distinct
    accountsListed channelAnswer
  have cached := get?_accountsView apart permuted parses
  refine ⟨accountsView reader others, ?_, cached, ?_⟩
  · rw [loads, none]
    rfl
  · simp only [cached]
    exact find?_cachedAs_iff apart

theorem accounts_survive_announced : ∃ built,
    withAccounts silent [(aliceEntry, 3, 2), (bobEntry, 0, 1)] noNodes =
      .ok built ∧
    ∃ view, load oneTime built.accounts.values built.channels.values
        emptyView = .ok view ∧
      view.accounts.get? bob = some bobEntry := by
  have empty : noNodes.accounts = .empty := rfl
  obtain ⟨built, builds, loads⟩ := accounts_survive oneTime_readsBack empty rfl
    [(aliceEntry, 3, 2), (bobEntry, 0, 1)] (by decide) (by decide +kernel)
    fun _ _ _ _ => rfl
  obtain ⟨view, loaded, cached, _⟩ := loads _ _ (.refl _) (.refl _)
  refine ⟨built, builds, view, loaded, ?_⟩
  rw [cached]
  decide +kernel

def hollowEntry : AccountEntry := { aliceEntry with entryType := .announced [] }

theorem announcement_without_address_forgotten :
    ¬∀ accounts : List (AccountEntry × Nat × Nat),
      ((accounts.map Prod.fst).map AccountEntry.keyId).Nodup →
      ((accounts.map Prod.fst).map AccountEntry.chainAddr).Nodup →
      (∀ account ∈ accounts.map Prod.fst, ParsesBack oneTime account) →
      ∃ built view, withAccounts silent accounts noNodes = .ok built ∧
        load oneTime built.accounts.values built.channels.values emptyView =
          .ok view ∧
        ∀ address, view.accounts.get? address =
          (accounts.map Prod.fst).find? fun account =>
            account.chainAddr = address := by
  intro survive
  obtain ⟨built, view, builds, loads, cached⟩ :=
    survive [(hollowEntry, 0, 0)] (by decide) (by decide) fun _ _ _ _ => rfl
  have seen : ((withAccounts silent [(hollowEntry, 0, 0)]
      noNodes).toOption.bind fun built =>
        (load oneTime built.accounts.values built.channels.values
          emptyView).toOption.bind fun view =>
            view.accounts.get? alice) = some aliceEntry := by
    decide +kernel
  have given : [hollowEntry].find? (fun account =>
      account.chainAddr = alice) = some hollowEntry := by
    decide +kernel
  rw [builds, Except.toOption, Option.bind_some, loads, Except.toOption,
    Option.bind_some, cached] at seen
  have same := seen.symm.trans given
  simp [hollowEntry, aliceEntry] at same

end Caches

end HoprUtilities.Blokli.BlokliTestStateBuilder
