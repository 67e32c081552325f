import HoprUtilities.Blokli.ChannelSimulation
import HoprUtilities.Blokli.Loading

/-!
# From the builder through the emulator to the connector

A test writes accounts and channels with the builder, sends transactions to the
emulator and lets a connector read the result.  What is built fits together and
can be read, and so does everything that comes out of it, as long as the
builder of channels takes the epochs and ticket indices.
-/

namespace HoprUtilities.Blokli

open HoprUtilities.Lib
open Connector
open BlokliTestStateBuilder

/-- What a test gives to the builder. -/
structure Scenario (host : Host) (reader : Reader) where
  accounts : List (AccountEntry × Nat × Nat)
  channels : List ChannelEntry
  keyIds : ((accounts.map Prod.fst).map AccountEntry.keyId).Nodup
  addresses : ((accounts.map Prod.fst).map AccountEntry.chainAddr).Nodup
  between : ∀ channel ∈ channels, Between (accounts.map Prod.fst) channel
  times : ∀ channel ∈ channels, TimeReadsBack reader host channel

/-- No accounts, channels or Safes. -/
structure State.Bare (state : State) : Prop where
  accounts : state.accounts = .empty
  channels : state.channels = .empty
  deployedSafes : state.deployedSafes = .empty

def Scenario.build {host : Host} {reader : Reader}
    (scenario : Scenario host reader) (start : State) : Except String State :=
  withAccounts host scenario.accounts start >>=
    withChannels host scenario.channels

def Connector.ChannelBook.ofList
    (generateChannelId : Address → Address → ChannelId)
    (channels : List ChannelEntry) : ChannelBook generateChannelId where
  entry channelId := channels.reverse.find? fun channel =>
    generateChannelId channel.source channel.destination = channelId
  filed := by
    intro channelId channel here
    simpa using List.find?_some here

section Built

variable {host : Host} {reader : Reader} {accounts : List AccountEntry}

theorem of_get?_accountModels
    (distinct : (accounts.map AccountEntry.keyId).Nodup) {key : UInt32}
    {account : Account}
    (here : (accountModels accounts).get? key = some account) :
    ∃ entry ∈ accounts, entry.keyId = key ∧ accountModel entry = account := by
  have translated := IndexMap.get?_translate
    (IndexMap.collect AccountEntry.keyId accounts) (.refl UInt32)
    accountModel key
  rw [Function.Embedding.refl_apply] at translated
  rw [accountModels, translated, Option.map_eq_some_iff] at here
  obtain ⟨entry, found, same⟩ := here
  obtain ⟨member, isKey⟩ := (IndexMap.get?_collect_eq_some distinct).mp found
  exact ⟨entry, member, isKey, same⟩

theorem owns_of_keyidOf {models : IndexMap UInt32 Account}
    {address : Address} {keyid : Int32}
    (found : keyidOf models address = some keyid) :
    Owns models keyid address := by
  obtain ⟨account, first, numbered⟩ := Option.map_eq_some_iff.mp found
  obtain ⟨key, here⟩ :=
    IndexMap.get?_of_mem_values (List.mem_of_find?_eq_some first)
  exact ⟨key, account, here, numbered, by simpa using List.find?_some first⟩

theorem owns_encoded (host : Host)
    (distinct : (accounts.map AccountEntry.keyId).Nodup)
    {channel : ChannelEntry} (between : Between accounts channel) :
    Owns (accountModels accounts)
        (encoded host (accountModels accounts) channel).source
        channel.source ∧
      Owns (accountModels accounts)
        (encoded host (accountModels accounts) channel).destination
        channel.destination := by
  obtain ⟨source, foundSource, _⟩ :=
    keyidOf_known distinct (.refl _) between.1 "source"
  obtain ⟨destination, foundDestination, _⟩ :=
    keyidOf_known distinct (.refl _) between.2 "destination"
  rw [encoded, foundSource, foundDestination]
  exact ⟨owns_of_keyidOf foundSource, owns_of_keyidOf foundDestination⟩

theorem reads_encoded (agrees : Agrees reader host)
    (models : IndexMap UInt32 Account) {channel : ChannelEntry}
    (time : TimeReadsBack reader host channel) :
    (encoded host models channel).Reads reader channel.status channel.balance
      channel.ticketIndex :=
  ⟨convertStatus_channelModel time _ _, agrees.balance channel.balance,
    parseU64_printU64 channel.ticketIndex⟩

theorem entry_encoded (models : IndexMap UInt32 Account)
    (channel : ChannelEntry) :
    (encoded host models channel).entry channel.source channel.destination
      channel.status channel.balance channel.ticketIndex = channel := by
  simp [encoded, channelModel, Channel.entry]

theorem readableBy_accountModel (agrees : Agrees reader host)
    (account : AccountEntry) : (accountModel account).ReadableBy reader := by
  refine ⟨⟨_, agrees.packetKey account.publicKey⟩,
    ⟨account.chainAddr, rfl, agrees.address account.chainAddr⟩, ?_⟩
  intro text same
  obtain ⟨safe, _, rfl⟩ := Option.map_eq_some_iff.mp same
  exact ⟨safe, agrees.address safe⟩

theorem insertAccount_deployedSafes (account : AccountEntry)
    (hoprBalance nativeBalance : Nat) (state : State) :
    (insertAccount host account hoprBalance nativeBalance
      state).deployedSafes = (deploySafe account state).deployedSafes := by
  cases safe : account.safeAddress <;>
    simp [insertAccount, creditSafe, deploySafe, safe, State.write,
      State.setAccount, State.setSafe]

theorem safes_withAccounts (agrees : Agrees reader host)
    {given : List (AccountEntry × Nat × Nat)} {state built : State}
    (builds : withAccounts host given state = .ok built)
    (safes : ∀ {key safe}, state.deployedSafes.get? key = some safe →
      ∃ address, reader.address safe.address = .ok address) :
    ∀ {key safe}, built.deployedSafes.get? key = some safe →
      ∃ address, reader.address safe.address = .ok address := by
  induction given generalizing state with
  | nil =>
      cases builds
      exact safes
  | cons account rest induction =>
      obtain ⟨account, hoprBalance, nativeBalance⟩ := account
      rw [withAccounts] at builds
      split at builds
      · cases builds
      · apply induction builds
        intro key safe here
        rw [insertAccount_deployedSafes] at here
        unfold deploySafe at here
        split at here
        · next own _ =>
            dsimp only [State.setSafe] at here
            rw [IndexMap.get?_put] at here
            split at here
            · cases here
              exact ⟨own, agrees.address own⟩
            · exact safes here
        · exact safes here

theorem deployedSafes_withChannels {channels : List ChannelEntry}
    {state built : State}
    (builds : withChannels host channels state = .ok built) :
    built.deployedSafes = state.deployedSafes := by
  unfold withChannels at builds
  cases entries : channels.mapM (channelEntry host state.accounts) with
  | error text =>
      rw [entries] at builds
      cases builds
  | ok list =>
      rw [entries] at builds
      cases builds
      rfl

end Built

namespace Scenario

variable {host : Host} {reader : Reader} {start built : State}
  {scenario : Scenario host reader}

/-- The state has the accounts and the channels of the scenario. -/
structure Fills (scenario : Scenario host reader) (built : State) : Prop where
  accounts : built.accounts =
    accountModels (scenario.accounts.map Prod.fst)
  channels : built.channels =
    (IndexMap.collect (getId host) scenario.channels).translate channelKey
      (encoded host built.accounts)

namespace Fills

theorem given_of_stored (fills : scenario.Fills built) {key : String}
    {channel : Channel} (here : built.channels.get? key = some channel) :
    ∃ entry ∈ scenario.channels, key = hexEncode (getId host entry) ∧
      channel = encoded host built.accounts entry := by
  rw [fills.channels, IndexMap.get?_eq_some] at here
  obtain ⟨⟨channelId, entry⟩, listed, same⟩ := List.mem_map.mp here
  have found := IndexMap.get?_eq_some.mpr listed
  have member := IndexMap.mem_of_mem_values_collect
    (IndexMap.mem_values_of_get? found)
  have isId := IndexMap.keyOf_of_get?_collect found
  cases same
  exact ⟨entry, member, by rw [← isId]; rfl, rfl⟩

theorem owns_ends (fills : scenario.Fills built) {entry : ChannelEntry}
    (member : entry ∈ scenario.channels) :
    Owns built.accounts (encoded host built.accounts entry).source
        entry.source ∧
      Owns built.accounts (encoded host built.accounts entry).destination
        entry.destination := by
  rw [fills.accounts]
  exact owns_encoded host scenario.keyIds (scenario.between entry member)

theorem registry (fills : scenario.Fills built) : Registry host built := by
  constructor
  · constructor
    · intro key other account another here there same
      rw [fills.accounts] at here there
      obtain ⟨first, member, isKey, rfl⟩ :=
        of_get?_accountModels scenario.keyIds here
      obtain ⟨second, memberToo, isOther, rfl⟩ :=
        of_get?_accountModels scenario.keyIds there
      rw [← isKey, ← isOther, List.inj_on_of_nodup_map scenario.addresses
        member memberToo (hexEncode_inj same)]
    · intro key channel here
      obtain ⟨entry, member, name, rfl⟩ := fills.given_of_stored here
      obtain ⟨first, second⟩ := fills.owns_ends member
      exact ⟨entry.source, entry.destination, first, second, name⟩
  · intro key account here
    rw [fills.accounts] at here
    obtain ⟨entry, _, rfl, rfl⟩ :=
      of_get?_accountModels scenario.keyIds here
    rfl

theorem readable (agrees : Agrees reader host) (fills : scenario.Fills built)
    (safes : ∀ {key safe}, built.deployedSafes.get? key = some safe →
      ∃ address, reader.address safe.address = .ok address) :
    Readable reader built := by
  refine ⟨?_, ?_, safes⟩
  · intro key account here
    rw [fills.accounts] at here
    obtain ⟨entry, _, _, rfl⟩ := of_get?_accountModels scenario.keyIds here
    exact readableBy_accountModel agrees entry
  · intro key channel here
    obtain ⟨entry, member, _, rfl⟩ := fills.given_of_stored here
    exact ⟨_, _, _, reads_encoded agrees _ (scenario.times entry member)⟩

/-- What is read of such a state are the channels of the scenario. -/
theorem entryAt (agrees : Agrees reader host)
    (fills : scenario.Fills built) (channelId : ChannelId) :
    built.entryAt reader channelId =
      scenario.channels.reverse.find? fun channel =>
        getId host channel = channelId := by
  have here := IndexMap.get?_translate
    (IndexMap.collect (getId host) scenario.channels) channelKey
    (encoded host built.accounts) channelId
  rw [← fills.channels, IndexMap.get?_collect] at here
  change built.channels.get? (hexEncode channelId) = _ at here
  rw [State.entryAt, here]
  cases found : scenario.channels.reverse.find? fun channel =>
      decide (getId host channel = channelId) with
  | none => rfl
  | some entry =>
      have member := List.mem_reverse.mp (List.mem_of_find?_eq_some found)
      obtain ⟨first, second⟩ := fills.owns_ends member
      have read := entryOf_of_reads agrees fills.registry first second
        (reads_encoded agrees _ (scenario.times entry member))
      rw [entry_encoded] at read
      exact read

end Fills

theorem safes_build (agrees : Agrees reader host) (bare : start.Bare)
    (builds : scenario.build start = .ok built) :
    ∀ {key safe}, built.deployedSafes.get? key = some safe →
      ∃ address, reader.address safe.address = .ok address := by
  unfold build at builds
  cases listed : withAccounts host scenario.accounts start with
  | error text =>
      rw [listed] at builds
      cases builds
  | ok middle =>
      rw [listed] at builds
      rw [deployedSafes_withChannels builds]
      apply safes_withAccounts agrees listed
      rw [bare.deployedSafes]
      intro key safe here
      cases here

theorem builds (agrees : Agrees reader host) (scenario : Scenario host reader)
    (bare : start.Bare) :
    ∃ chain : Chain host reader, scenario.build start = .ok chain.state ∧
      chain.book agrees =
        ChannelBook.ofList host.generateChannelId scenario.channels := by
  obtain ⟨built, builds, accounts, stored⟩ := withChannels_built host
    bare.accounts bare.channels scenario.accounts scenario.keyIds
    scenario.between
  rw [← accounts] at stored
  have fills : scenario.Fills built := ⟨accounts, stored⟩
  have readable := fills.readable agrees (safes_build agrees bare builds)
  refine ⟨⟨built, fills.registry, readable⟩, builds, ?_⟩
  apply ChannelBook.ext
  funext channelId
  exact fills.entryAt agrees channelId

end Scenario

/-- The channels of the emulated contract, as the connector gives them to its
builder, go through a run of the machine, and so every channel holds what has
been paid into it and not out of it.  They are what the connector reads of a
state whose channels the builder takes. -/
theorem emulator_refines_channel_machine (host : Host) (reader : Reader)
    (agrees : Agrees reader host) (finds : host.Finds)
    (emulator : FullStateEmulator) (calls : List Call)
    (chain : Chain host reader) (final : State)
    (ended : run (emulator.succeeds host) calls chain.state = some final)
    (ids : host.DistinctIds final.accounts) :
    ∃ last : Chain host reader, last.state = final ∧
      run ChannelBook.step (emulator.onChannels host reader calls chain.state)
        (chain.book agrees) = some (last.book agrees) ∧
      (∀ channelId, (last.book agrees).balanceOf channelId +
          ChannelBook.outflow channelId
            (emulator.onChannels host reader calls chain.state) =
        (chain.book agrees).balanceOf channelId +
          ChannelBook.inflow channelId
            (emulator.onChannels host reader calls chain.state)
            (chain.book agrees)) ∧
      (chain.state.inRange = true → ∀ channelId,
        chain.state.readChannel reader channelId =
          (chain.book agrees).entry channelId) ∧
      (final.inRange = true → ∀ channelId,
        final.readChannel reader channelId =
          (last.book agrees).entry channelId) := by
  obtain ⟨last, rfl, follows⟩ := run_follows agrees finds ended ids
  exact ⟨last, rfl, follows, ChannelBook.balanceOf_run follows,
    chain.readChannel_eq_entry agrees, last.readChannel_eq_entry agrees⟩

/-- From whatever scenario, and after every run of successful transactions that
leaves epochs and ticket indices in range, a connector loads without an error,
in every order of the answers, and its cache is what the machine makes of the
channels of the scenario. -/
theorem connector_reads_channel_machine (host : Host) (reader : Reader)
    (agrees : Agrees reader host) (finds : host.Finds)
    (emulator : FullStateEmulator) (scenario : Scenario host reader)
    (start : State) (bare : start.Bare) (calls : List Call)
    (built final : State) (builds : scenario.build start = .ok built)
    (ended : run (emulator.succeeds host) calls built = some final)
    (ids : host.DistinctIds final.accounts)
    (inRange : final.inRange = true)
    (accountAnswer : List Account) (channelAnswer : List Channel)
    (accounts : accountAnswer.Perm final.accounts.values)
    (channels : channelAnswer.Perm final.channels.values) :
    ∃ view book, load reader accountAnswer channelAnswer emptyView = .ok view ∧
      run ChannelBook.step (emulator.onChannels host reader calls built)
        (ChannelBook.ofList host.generateChannelId scenario.channels) =
          some book ∧
      (∀ channelId, view.channels.get? channelId = book.entry channelId) ∧
      ∀ address, view.accounts.get? address =
        final.readAccount reader address := by
  obtain ⟨chain, isBuilt, begun⟩ := scenario.builds agrees bare
  rw [builds] at isBuilt
  cases isBuilt
  obtain ⟨last, rfl, follows⟩ := run_follows agrees finds ended ids
  rw [begun] at follows
  obtain ⟨view, loads, seen, cached⟩ :=
    last.load agrees inRange accounts channels
  exact ⟨view, last.book agrees, loads, follows, cached, seen⟩

/-- The reader of the reference, which takes any text it cannot read as the
first time. -/
def patient : Reader :=
  { Reader.reference with
    dateTime := fun text => .ok ((parseTime text).toOption.getD 0) }

theorem reference_finds (parsed : List UInt8 → Option (Action × Address)) :
    (Host.reference parsed).Finds := by
  refine ⟨reference_findsAccounts parsed, ?_, ?_⟩
  · intro channels channelId key found
    obtain ⟨channel, _, same⟩ := Option.map_eq_some_iff.mp found
    exact same.symm
  · intro safes owner safe member
    exact (List.mem_filter.mp member).1

theorem patient_agrees (parsed : List UInt8 → Option (Action × Address)) :
    Agrees patient (.reference parsed) := by
  refine ⟨⟨hexDecode_hexEncode, hexDecode_hexEncode, ?_, rfl⟩, ?_, ?_, ?_, ?_⟩
  · intro amount
    have read := parseAmount_printAmount .wxHopr amount
    simp [patient, Reader.reference, Host.reference, read]
  · intro text amount read
    change parseAmount .wxHopr text = some amount
    simp only [patient, Reader.reference] at read
    split at read
    · next parsed =>
        cases read
        exact parsed
    · cases read
  · intro time
    exact ⟨_, rfl⟩
  · intro channel inRange
    exact if_pos inRange
  · intro channel outside
    exact ⟨_, if_neg outside⟩

theorem distinctIds_of_names (parsed : List UInt8 → Option (Action × Address))
    {accounts : IndexMap UInt32 Account}
    (names : accounts.entries.all (fun entry =>
      entry.2.chainKey = hexEncode alice ||
        entry.2.chainKey = hexEncode bob) = true) :
    (Host.reference parsed).DistinctIds accounts := by
  have known : ∀ {address : Address}, (∃ keyid, Owns accounts keyid address) →
      ∃ keyid, Owns twoNodes.accounts keyid address := by
    rintro address ⟨keyid, key, account, here, _, named⟩
    simp only [List.all_eq_true, decide_eq_true_eq, Bool.or_eq_true] at names
    rcases names _ (IndexMap.get?_eq_some.mp here) with isAlice | isBob
    · rw [hexEncode_inj (named.symm.trans isAlice)]
      exact ⟨1, 1, _, rfl, rfl, rfl⟩
    · rw [hexEncode_inj (named.symm.trans isBob)]
      exact ⟨2, 2, _, rfl, rfl, rfl⟩
  intro first second third fourth one two three four same
  exact twoNodes_distinctIds parsed (known one) (known two) (known three)
    (known four) same

/-- The Safe of one node funds a channel, and the other node redeems a
ticket. -/
def fundThenRedeem (signedTx : List UInt8) : Option (Action × Address) :=
  match signedTx with
  | [] => some (.fundChannel bob (2 * baseUnit), alice)
  | _ => some (.redeemTicket (joinAddresses alice bob) 7 baseUnit, bob)

def aliceAndBob (host : Host) (reader : Reader)
    (times : TimeReadsBack reader host openChannel) :
    Scenario host reader where
  accounts := [(aliceEntry, 5 * baseUnit, 2), (bobEntry, 0, 1)]
  channels := [openChannel]
  keyIds := by decide
  addresses := by decide +kernel
  between := by
    intro channel member
    cases List.mem_singleton.mp member
    exact ⟨⟨aliceEntry, by simp, rfl⟩, ⟨bobEntry, by simp, rfl⟩⟩
  times := by
    intro channel member
    cases List.mem_singleton.mp member
    exact times

def trading : Host := .reference fundThenRedeem

theorem trading_agrees : Agrees patient trading := patient_agrees _

def aliceToBobOpen : Scenario trading patient :=
  aliceAndBob trading patient (by
    intro time closing
    cases closing)

def trades : List Call := [⟨0, []⟩, ⟨0, [0]⟩]

theorem noNodes_bare : noNodes.Bare := ⟨rfl, rfl, rfl⟩

theorem trades_succeed : ∃ built final,
    aliceToBobOpen.build noNodes = .ok built ∧
      run (plain.succeeds trading) trades built = some final ∧
      trading.DistinctIds final.accounts ∧ final.inRange = true := by
  have passed : ((aliceToBobOpen.build noNodes).toOption.bind
      (run (plain.succeeds trading) trades)).any (fun final =>
        (final.accounts.entries.all fun entry =>
          entry.2.chainKey = hexEncode alice ||
            entry.2.chainKey = hexEncode bob) && final.inRange) = true := by
    decide +kernel
  obtain ⟨final, reached, facts⟩ := (Option.any_eq_true _ _).mp passed
  obtain ⟨names, inRange⟩ := Bool.and_eq_true_iff.mp facts
  obtain ⟨built, builds, ended⟩ := Option.bind_eq_some_iff.mp reached
  refine ⟨built, final, ?_, ended, distinctIds_of_names _ names, inRange⟩
  cases result : aliceToBobOpen.build noNodes with
  | error text =>
      rw [result] at builds
      cases builds
  | ok state =>
      rw [result] at builds
      cases builds
      rfl

theorem traded_channel_is_accounted_for :
    ∃ first last : Chain trading patient,
      aliceToBobOpen.build noNodes = .ok first.state ∧
      run (plain.succeeds trading) trades first.state = some last.state ∧
      (last.book trading_agrees).balanceOf (joinAddresses alice bob) +
          ChannelBook.outflow (joinAddresses alice bob)
            (plain.onChannels trading patient trades first.state) =
        (first.book trading_agrees).balanceOf (joinAddresses alice bob) +
          ChannelBook.inflow (joinAddresses alice bob)
            (plain.onChannels trading patient trades first.state)
            (first.book trading_agrees) ∧
      last.state.readChannel patient (joinAddresses alice bob) =
        (last.book trading_agrees).entry (joinAddresses alice bob) := by
  obtain ⟨built, final, builds, ended, ids, inRange⟩ := trades_succeed
  obtain ⟨first, isBuilt, _⟩ :=
    aliceToBobOpen.builds trading_agrees noNodes_bare
  rw [isBuilt] at builds
  cases builds
  obtain ⟨last, rfl, _, accounts, _, reads⟩ :=
    emulator_refines_channel_machine trading patient trading_agrees
      (reference_finds _) plain trades first final ended ids
  exact ⟨first, last, isBuilt, ended, accounts _, reads inRange _⟩

theorem traded_channel_is_read :
    ∃ built final view book, aliceToBobOpen.build noNodes = .ok built ∧
      run (plain.succeeds trading) trades built = some final ∧
      load patient final.accounts.values final.channels.values emptyView =
        .ok view ∧
      run ChannelBook.step (plain.onChannels trading patient trades built)
        (ChannelBook.ofList trading.generateChannelId [openChannel]) =
          some book ∧
      view.channels.get? (joinAddresses alice bob) =
        book.entry (joinAddresses alice bob) := by
  obtain ⟨built, final, builds, ended, ids, inRange⟩ := trades_succeed
  obtain ⟨view, book, loads, follows, cached, _⟩ :=
    connector_reads_channel_machine trading patient trading_agrees
      (reference_finds _) plain aliceToBobOpen noNodes noNodes_bare trades
      built final builds ended ids inRange _ _ (.refl _) (.refl _)
  exact ⟨built, final, view, book, builds, ended, loads, follows, cached _⟩

end HoprUtilities.Blokli
