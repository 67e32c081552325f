import HoprUtilities.Blokli.ChannelRefinement

/-!
# Loading a chain

`connect` asks for all accounts and then for all channels, and takes the key
ids of the channels back to addresses through the accounts.  In a state that
fits together and can be read nothing goes wrong if the builder takes all
channels, and the caches hold what the state holds, in whatever order the
answers come.
-/

namespace HoprUtilities.Blokli

open HoprUtilities.Lib
open Connector
open BlokliTestStateBuilder (emptyView)

def State.readAccount (reader : Reader) (state : State) (address : Address) :
    Option AccountEntry :=
  (state.accounts.first? (·.chainKey == hexEncode address)).bind fun place =>
    (convertAccountModel reader place.2).toOption

def accountEntries (reader : Reader) (models : List Account) :
    List AccountEntry :=
  models.filterMap fun model => (convertAccountModel reader model).toOption

section Accounts

variable {host : Host} {reader : Reader} {state : State}

theorem loadAccounts_ok {models : List Account}
    (readable : ∀ model ∈ models, model.ReadableBy reader)
    (keyids : IndexMap UInt32 Address) (view : View) :
    loadAccounts reader models (keyids, view) =
      .ok (keyids.extend ((accountEntries reader models).map fun entry =>
          (entry.keyId, entry.chainAddr)),
        { view with
          accounts := view.accounts.extend
            ((accountEntries reader models).map fun entry =>
              (entry.chainAddr, entry)) }) := by
  induction models generalizing keyids view with
  | nil => rfl
  | cons model rest induction =>
      obtain ⟨entry, converts, _⟩ :=
        (readable model List.mem_cons_self).converts
      have entries : accountEntries reader (model :: rest) =
          entry :: accountEntries reader rest := by
        rw [accountEntries, List.filterMap_cons, converts]
        rfl
      rw [loadAccounts, converts, entries]
      exact induction
        (fun other member => readable other (List.mem_cons_of_mem _ member))
        _ _

theorem of_mem_accountEntries (readable : Readable reader state)
    {models : List Account}
    (stored : ∀ model ∈ models, model ∈ state.accounts.values)
    {entry : AccountEntry} (member : entry ∈ accountEntries reader models) :
    ∃ key account, state.accounts.get? key = some account ∧
      convertAccountModel reader account = .ok entry ∧
      entry.keyId = account.keyid.toUInt32 ∧
      account.chainKey = hexEncode entry.chainAddr := by
  obtain ⟨model, listed, read⟩ := List.mem_filterMap.mp member
  obtain ⟨key, here⟩ := IndexMap.get?_of_mem_values (stored model listed)
  obtain ⟨content, converts, numbered, named⟩ :=
    (readable.accounts here).converts
  rw [converts] at read
  cases read
  exact ⟨key, model, here, converts, numbered, named⟩

theorem mem_accountEntries (readable : Readable reader state)
    {models : List Account}
    (stored : ∀ model ∈ state.accounts.values, model ∈ models)
    {key : UInt32} {account : Account}
    (here : state.accounts.get? key = some account) :
    ∃ entry ∈ accountEntries reader models,
      convertAccountModel reader account = .ok entry ∧
      entry.keyId = account.keyid.toUInt32 ∧
      account.chainKey = hexEncode entry.chainAddr := by
  obtain ⟨entry, converts, numbered, named⟩ :=
    (readable.accounts here).converts
  refine ⟨entry, ?_, converts, numbered, named⟩
  apply List.mem_filterMap.mpr
  refine ⟨account, stored account (IndexMap.mem_values_of_get? here), ?_⟩
  rw [converts]
  rfl

/-- The addresses under their key ids. -/
def keyidToAddr (reader : Reader) (models : List Account) :
    IndexMap UInt32 Address :=
  IndexMap.empty.extend ((accountEntries reader models).map fun entry =>
    (entry.keyId, entry.chainAddr))

theorem Registry.names (registry : Registry host state)
    (readable : Readable reader state) {models : List Account}
    (answer : models.Perm state.accounts.values) {keyid : Int32}
    {address : Address} (owns : Owns state.accounts keyid address) :
    (keyidToAddr reader models).get? keyid.toUInt32 = some address := by
  obtain ⟨key, account, here, numbered, named⟩ := owns
  obtain ⟨entry, listed, _, number, name⟩ := mem_accountEntries readable
    (fun model => answer.mem_iff.mpr) here
  have isAddress : entry.chainAddr = address :=
    hexEncode_inj (name.symm.trans named)
  rw [numbered] at number
  apply IndexMap.get?_extend_of_alone
  · exact List.mem_map.mpr ⟨entry, listed, by rw [number, isAddress]⟩
  · intro other member
    obtain ⟨another, listedToo, same⟩ := List.mem_map.mp member
    simp only [Prod.mk.injEq] at same
    obtain ⟨place, content, there, _, numberToo, nameToo⟩ :=
      of_mem_accountEntries readable (fun model => answer.mem_iff.mp) listedToo
    have isKey : place = key := by
      apply toInt32_inj
      rw [← registry.keyed here, ← registry.keyed there, numbered]
      have bits := congrArg UInt32.toInt32 (numberToo.symm.trans same.1)
      rwa [Int32.toInt32_toUInt32, Int32.toInt32_toUInt32] at bits
    rw [isKey, here] at there
    cases there
    rw [← same.2]
    exact hexEncode_inj (nameToo.symm.trans named)

theorem owns_of_keyidToAddr (readable : Readable reader state)
    {models : List Account}
    (answer : models.Perm state.accounts.values) {keyid : UInt32}
    {address : Address}
    (found : (keyidToAddr reader models).get? keyid = some address) :
    Owns state.accounts keyid.toInt32 address := by
  have member : (keyid, address) ∈ (accountEntries reader models).map
      fun entry => (entry.keyId, entry.chainAddr) := by
    rcases IndexMap.mem_or_of_get?_extend found with listed | before
    · exact listed
    · cases before
  obtain ⟨entry, listed, same⟩ := List.mem_map.mp member
  cases same
  obtain ⟨key, account, here, _, numbered, named⟩ :=
    of_mem_accountEntries readable (fun model => answer.mem_iff.mp) listed
  refine ⟨key, account, here, ?_, named⟩
  rw [numbered, Int32.toInt32_toUInt32]

theorem Registry.loads_accounts (registry : Registry host state)
    (readable : Readable reader state) {models : List Account}
    (answer : models.Perm state.accounts.values) (address : Address) :
    (IndexMap.empty.extend ((accountEntries reader models).map fun entry =>
      (entry.chainAddr, entry))).get? address =
        state.readAccount reader address := by
  unfold State.readAccount
  cases found : state.accounts.first? (·.chainKey == hexEncode address) with
  | none =>
      rw [IndexMap.get?_extend_of_absent]
      · rfl
      · intro entry member
        obtain ⟨another, listed, same⟩ := List.mem_map.mp member
        obtain ⟨key, account, here, _, _, named⟩ := of_mem_accountEntries
          readable (fun model => answer.mem_iff.mp) listed
        have unnamed := IndexMap.not_test_of_first?_none found here
        cases same
        simp [named] at unnamed
  | some place =>
      obtain ⟨key, account⟩ := place
      have here := IndexMap.get?_of_first? found
      have named : account.chainKey = hexEncode address := by
        simpa using IndexMap.test_of_first? found
      obtain ⟨entry, listed, converts, _, name⟩ := mem_accountEntries readable
        (fun model => answer.mem_iff.mpr) here
      have isAddress : entry.chainAddr = address :=
        hexEncode_inj (name.symm.trans named)
      rw [Option.bind_some, converts]
      apply IndexMap.get?_extend_of_alone
      · exact List.mem_map.mpr ⟨entry, listed, by rw [isAddress]⟩
      · intro other member
        obtain ⟨another, listedToo, same⟩ := List.mem_map.mp member
        cases same
        obtain ⟨place, content, there, convertsToo, _, nameToo⟩ :=
          of_mem_accountEntries readable (fun model => answer.mem_iff.mp)
            listedToo
        have isKey := registry.distinct there here (nameToo.trans named.symm)
        rw [isKey, here] at there
        cases there
        rw [converts] at convertsToo
        cases convertsToo
        rfl

end Accounts

section Channels

variable {host : Host} {reader : Reader} {state : State}

/-- The ends of the channel are found among the addresses, and the builder takes
it. -/
structure Resolves (keyids : IndexMap UInt32 Address) (state : State)
    (channel : Channel) : Prop where
  source : ∃ address, keyids.get? channel.source.toUInt32 = some address ∧
    Owns state.accounts channel.source address
  destination : ∃ address,
    keyids.get? channel.destination.toUInt32 = some address ∧
      Owns state.accounts channel.destination address
  inRange : channel.inRange = true

theorem loadChannels_ok (agrees : Agrees reader host)
    (registry : Registry host state) (readable : Readable reader state)
    {keyids : IndexMap UInt32 Address} {models : List Channel}
    (stored : ∀ model ∈ models, model ∈ state.channels.values)
    (resolves : ∀ model ∈ models, Resolves keyids state model) (view : View) :
    loadChannels reader keyids models view =
      .ok { view with
        channels := view.channels.extend
          ((models.filterMap (state.entryOf reader)).map fun channel =>
            (channel.getId reader, channel)) } := by
  induction models generalizing view with
  | nil => rfl
  | cons model rest induction =>
      obtain ⟨key, here⟩ := IndexMap.get?_of_mem_values
        (stored model List.mem_cons_self)
      obtain ⟨⟨source, first, ownsSource⟩, ⟨destination, second, ownsOther⟩,
        inRange⟩ := resolves model List.mem_cons_self
      obtain ⟨status, balance, ticketIndex, reads⟩ := readable.channels here
      have isSource : addressOf keyids "source" model.source =
          .ok source := by
        rw [addressOf, first]
      have isDestination : addressOf keyids "destination" model.destination =
          .ok destination := by
        rw [addressOf, second]
      have entry := entryOf_of_reads agrees registry ownsSource ownsOther reads
      rw [BlokliTestStateBuilder.loadChannels_cons isSource isDestination
        (reads.converts agrees inRange source destination),
        List.filterMap_cons, entry]
      exact induction
        (fun other member => stored other (List.mem_cons_of_mem _ member))
        (fun other member => resolves other (List.mem_cons_of_mem _ member)) _

/-- A channel with an unknown end, or one that does not convert, makes the whole
query fail. -/
theorem loadChannels_error {keyids : IndexMap UInt32 Address}
    {models : List Channel}
    (unresolved : ∃ model ∈ models,
      keyids.get? model.source.toUInt32 = none ∨
        keyids.get? model.destination.toUInt32 = none ∨
        ∀ srcAddr dstAddr, ∃ text,
          convertChannelModel reader model srcAddr dstAddr = .error text)
    (view : View) :
    ∃ text, loadChannels reader keyids models view = .error text := by
  induction models generalizing view with
  | nil =>
      obtain ⟨model, member, _⟩ := unresolved
      cases member
  | cons model rest induction =>
      cases source : keyids.get? model.source.toUInt32 with
      | none =>
          rw [loadChannels, addressOf, source]
          exact ⟨_, rfl⟩
      | some srcAddr =>
          cases destination : keyids.get? model.destination.toUInt32 with
          | none =>
              rw [loadChannels, addressOf, source, addressOf, destination]
              exact ⟨_, rfl⟩
          | some dstAddr =>
              rw [loadChannels, addressOf, source, addressOf, destination]
              cases converted :
                  convertChannelModel reader model srcAddr dstAddr with
              | error text =>
                  refine ⟨text, ?_⟩
                  simp only [bind, Except.bind, converted]
              | ok channel =>
                  simp only [bind, Except.bind, converted]
                  apply induction
                  obtain ⟨other, member, unknown⟩ := unresolved
                  rcases List.mem_cons.mp member with rfl | inRest
                  · rw [source, destination] at unknown
                    rcases unknown with absent | absent | refused
                    · cases absent
                    · cases absent
                    · obtain ⟨text, fails⟩ := refused srcAddr dstAddr
                      rw [converted] at fails
                      cases fails
                  · exact ⟨other, inRest, unknown⟩

theorem Registry.loads_channels (agrees : Agrees reader host)
    (registry : Registry host state) (readable : Readable reader state)
    {models : List Channel} (answer : models.Perm state.channels.values)
    (channelId : ChannelId) :
    (IndexMap.empty.extend
      ((models.filterMap (state.entryOf reader)).map fun channel =>
        (channel.getId reader, channel))).get? channelId =
          state.entryAt reader channelId := by
  have back : ∀ {entry}, (channelId, entry) ∈
      (models.filterMap (state.entryOf reader)).map (fun channel =>
        (channel.getId reader, channel)) →
      state.entryAt reader channelId = some entry := by
    intro entry member
    obtain ⟨another, listed, same⟩ := List.mem_map.mp member
    cases same
    obtain ⟨model, inAnswer, read⟩ := List.mem_filterMap.mp listed
    obtain ⟨key, here⟩ :=
      IndexMap.get?_of_mem_values (answer.mem_iff.mp inAnswer)
    obtain ⟨source, destination, status, balance, ticketIndex, first, second,
      rfl, reads⟩ := registry.stored_reads readable here
    rw [entryOf_of_reads agrees registry first second reads] at read
    cases read
    rw [ChannelEntry.getId, agrees.generateChannelId]
    exact entryAt_of_stored agrees registry here first second reads
  cases found : state.entryAt reader channelId with
  | none =>
      rw [IndexMap.get?_extend_of_absent]
      · rfl
      · intro entry member
        rw [back member] at found
        cases found
  | some entry =>
      apply IndexMap.get?_extend_of_alone
      · obtain ⟨channel, here, read⟩ := Option.bind_eq_some_iff.mp found
        have listed : channel ∈ models :=
          answer.mem_iff.mpr (IndexMap.mem_values_of_get? here)
        refine List.mem_map.mpr
          ⟨entry, List.mem_filterMap.mpr ⟨channel, listed, read⟩, ?_⟩
        obtain ⟨_, source, destination, _, _, _, _, _, _, rfl, _, rfl⟩ :=
          entryAt_eq_some agrees registry readable found
        rw [ChannelEntry.getId, agrees.generateChannelId]
        rfl
      · intro other member
        rw [back member] at found
        exact Option.some.inj found

/-- The second query with the key ids of the first: it takes all channels, or
fails on one with an unknown end or out of range. -/
theorem Registry.loadChannels_cases (agrees : Agrees reader host)
    (registry : Registry host state) (readable : Readable reader state)
    {keyids : IndexMap UInt32 Address}
    (right : ∀ {keyid address}, keyids.get? keyid = some address →
      Owns state.accounts keyid.toInt32 address) {models : List Channel}
    (answer : models.Perm state.channels.values) {view : View}
    (fresh : view.channels = .empty) :
    ((∀ model ∈ models, Resolves keyids state model) ∧
      ∃ channels, loadChannels reader keyids models view =
          .ok { view with channels := channels } ∧
        ∀ channelId, channels.get? channelId =
          state.entryAt reader channelId) ∨
      (∃ model ∈ models, ¬Resolves keyids state model) ∧
        ∃ text, loadChannels reader keyids models view = .error text := by
  by_cases all : ∀ model ∈ models, Resolves keyids state model
  · refine .inl ⟨all, _, loadChannels_ok agrees registry readable
      (fun model => answer.mem_iff.mp) all view, ?_⟩
    rw [fresh]
    exact registry.loads_channels agrees readable answer
  · push Not at all
    refine .inr ⟨all, ?_⟩
    obtain ⟨model, member, unresolved⟩ := all
    obtain ⟨key, here⟩ :=
      IndexMap.get?_of_mem_values (answer.mem_iff.mp member)
    obtain ⟨status, balance, ticketIndex, reads⟩ := readable.channels here
    apply loadChannels_error
    refine ⟨model, member, ?_⟩
    have owned : ∀ {keyid : Int32} {address},
        keyids.get? keyid.toUInt32 = some address →
        Owns state.accounts keyid address := by
      intro keyid address found
      have owns := right found
      rwa [Int32.toInt32_toUInt32] at owns
    cases isSource : keyids.get? model.source.toUInt32 with
    | none => exact .inl rfl
    | some source =>
        cases isDestination : keyids.get? model.destination.toUInt32 with
        | none => exact .inr (.inl rfl)
        | some destination =>
            cases inRange : model.inRange with
            | false => exact .inr (.inr (reads.refused agrees inRange))
            | true =>
                exact (unresolved ⟨⟨source, isSource, owned isSource⟩,
                  ⟨destination, isDestination, owned isDestination⟩,
                  inRange⟩).elim

theorem Chain.load_accounts (chain : Chain host reader)
    {accountAnswer : List Account}
    (accounts : accountAnswer.Perm chain.state.accounts.values) :
    ∃ view : View, view.channels = .empty ∧
      (∀ address, view.accounts.get? address =
        chain.state.readAccount reader address) ∧
      ∀ channelAnswer,
        Connector.load reader accountAnswer channelAnswer emptyView =
          loadChannels reader (keyidToAddr reader accountAnswer) channelAnswer
            view := by
  have readable : ∀ model ∈ accountAnswer, model.ReadableBy reader := by
    intro model member
    obtain ⟨key, here⟩ :=
      IndexMap.get?_of_mem_values (accounts.mem_iff.mp member)
    exact chain.readable.accounts here
  refine ⟨{ emptyView with accounts := _ }, rfl,
    chain.registry.loads_accounts chain.readable accounts, ?_⟩
  intro channelAnswer
  rw [Connector.load, loadAccounts_ok readable]
  rfl

theorem Chain.load (agrees : Agrees reader host) (chain : Chain host reader)
    (inRange : chain.state.inRange = true)
    {accountAnswer : List Account} {channelAnswer : List Channel}
    (accounts : accountAnswer.Perm chain.state.accounts.values)
    (channels : channelAnswer.Perm chain.state.channels.values) :
    ∃ view, Connector.load reader accountAnswer channelAnswer emptyView =
        .ok view ∧
      (∀ address, view.accounts.get? address =
        chain.state.readAccount reader address) ∧
      ∀ channelId, view.channels.get? channelId =
        (chain.book agrees).entry channelId := by
  have resolves : ∀ model ∈ channelAnswer,
      Resolves (keyidToAddr reader accountAnswer) chain.state model := by
    intro model member
    obtain ⟨key, here⟩ :=
      IndexMap.get?_of_mem_values (channels.mem_iff.mp member)
    obtain ⟨source, destination, first, second, _⟩ :=
      chain.registry.stored here
    exact ⟨⟨source, chain.registry.names chain.readable accounts first, first⟩,
      ⟨destination, chain.registry.names chain.readable accounts second,
        second⟩, State.inRange_of_stored inRange here⟩
  obtain ⟨view, fresh, seen, loads⟩ := chain.load_accounts accounts
  rw [loads]
  refine ⟨_, loadChannels_ok agrees chain.registry chain.readable
    (fun model => channels.mem_iff.mp) resolves _, seen, ?_⟩
  rw [fresh]
  exact chain.registry.loads_channels agrees chain.readable channels

end Channels

end HoprUtilities.Blokli
