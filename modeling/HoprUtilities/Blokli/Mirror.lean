import HoprUtilities.Blokli.BuiltChains
import HoprUtilities.Lib.Replica

/-!
# The connector beside the chain

`connect` asks for the accounts, then for the channels, and then starts a task
that subscribes to the graph.  Transactions go on meanwhile.  An account may be
announced after the first query and have a channel before the second one, and
the subscription starts with all channels once more.

The client is in another crate.  It answers a query with what the chain holds,
in any order, and tells a subscriber about every channel that a transaction
has changed; it may tell about others, too, and in any order.
-/

namespace HoprUtilities.Blokli

open HoprUtilities.Lib
open Connector
open BlokliTestStateBuilder (emptyView noNodes)

/-- The update for a stored channel. -/
def State.graphEntry? (state : State) (key : String) : Option GraphEntry := do
  let channel ← state.channels.get? key
  let source ← state.accounts.get? channel.source.toUInt32
  let destination ← state.accounts.get? channel.destination.toUInt32
  pure { source := source, destination := destination, channel := channel }

/-- The updates are about channels of the state, and all those that have
changed are among them. -/
def State.tells (state : State) (changed : String → Bool)
    (updates : List GraphEntry) : Bool :=
  updates.all (fun update => state.channels.keys.any fun key =>
      state.graphEntry? key = some update) &&
    state.channels.keys.all fun key =>
      !changed key || (state.graphEntry? key).any (· ∈ updates)

/-- What updates write into the channel cache. -/
def writesOf (reader : Reader) (updates : List GraphEntry) :
    List (ChannelId × ChannelEntry) :=
  updates.filterMap fun update => (update.convert? reader).map fun parts =>
    (parts.2.2.getId reader, parts.2.2)

section Updates

variable {host : Host} {reader : Reader}

theorem Chain.converts (agrees : Agrees reader host)
    (chain : Chain host reader) (inRange : chain.state.inRange = true)
    {key : String} {update : GraphEntry}
    (graph : chain.state.graphEntry? key = some update) :
    ∃ source destination entry,
      update.convert? reader = some (source, destination, entry) ∧
      key = hexEncode (entry.getId reader) ∧
      chain.state.entryAt reader (entry.getId reader) = some entry := by
  obtain ⟨channel, here, graph⟩ := Option.bind_eq_some_iff.mp graph
  obtain ⟨first, isFirst, graph⟩ := Option.bind_eq_some_iff.mp graph
  obtain ⟨second, isSecond, graph⟩ := Option.bind_eq_some_iff.mp graph
  cases graph
  obtain ⟨source, destination, status, balance, ticketIndex, ownsOne, ownsTwo,
    name, reads⟩ := chain.registry.stored_reads chain.readable here
  -- the owner of a key id is the account under it
  have owner : ∀ {keyid : Int32} {address account},
      Owns chain.state.accounts keyid address →
      chain.state.accounts.get? keyid.toUInt32 = some account →
      account.chainKey = hexEncode address := by
    rintro keyid address account ⟨place, content, there, numbered, named⟩ found
    have isPlace : keyid.toUInt32 = place := by
      rw [← numbered, chain.registry.keyed there, UInt32.toUInt32_toInt32]
    rw [isPlace, there] at found
    cases found
    exact named
  obtain ⟨left, convertsLeft, _, namedLeft⟩ :=
    (chain.readable.accounts isFirst).converts
  obtain ⟨right, convertsRight, _, namedRight⟩ :=
    (chain.readable.accounts isSecond).converts
  have isSource : left.chainAddr = source :=
    hexEncode_inj (namedLeft.symm.trans (owner ownsOne isFirst))
  have isDestination : right.chainAddr = destination :=
    hexEncode_inj (namedRight.symm.trans (owner ownsTwo isSecond))
  subst isSource isDestination name
  have isId : (channel.entry left.chainAddr right.chainAddr status balance
      ticketIndex).getId reader =
        host.generateChannelId left.chainAddr right.chainAddr := by
    rw [ChannelEntry.getId, agrees.generateChannelId]
    rfl
  have stands := entryAt_of_stored agrees chain.registry here ownsOne
    ownsTwo reads
  rw [← isId] at stands
  refine ⟨left, right, _, ?_, by rw [isId], stands⟩
  rw [GraphEntry.convert?, convertsLeft]
  dsimp only
  rw [convertsRight]
  dsimp only
  rw [reads.converts agrees (State.inRange_of_stored inRange here)
    left.chainAddr right.chainAddr]

theorem Chain.exists_graphEntry (chain : Chain host reader) {key : String}
    {channel : Channel} (here : chain.state.channels.get? key = some channel) :
    ∃ update, chain.state.graphEntry? key = some update := by
  have found : ∀ {keyid : Int32} {address},
      Owns chain.state.accounts keyid address →
      ∃ account, chain.state.accounts.get? keyid.toUInt32 = some account := by
    rintro keyid address ⟨place, content, there, numbered, _⟩
    have isPlace : keyid.toUInt32 = place := by
      rw [← numbered, chain.registry.keyed there, UInt32.toUInt32_toInt32]
    rw [isPlace]
    exact ⟨content, there⟩
  obtain ⟨_, _, ownsOne, ownsTwo, _⟩ := chain.registry.stored here
  obtain ⟨first, isFirst⟩ := found ownsOne
  obtain ⟨second, isSecond⟩ := found ownsTwo
  exact ⟨⟨first, second, channel⟩, by simp [State.graphEntry?, here, isFirst,
    isSecond]⟩

theorem mem_writesOf {updates : List GraphEntry}
    {write : ChannelId × ChannelEntry} :
    write ∈ writesOf reader updates ↔
      ∃ update ∈ updates, ∃ source destination entry,
        update.convert? reader = some (source, destination, entry) ∧
          write = (entry.getId reader, entry) := by
  constructor
  · intro member
    obtain ⟨update, listed, converts⟩ := List.mem_filterMap.mp member
    obtain ⟨⟨source, destination, entry⟩, converted, same⟩ :=
      Option.map_eq_some_iff.mp converts
    exact ⟨update, listed, source, destination, entry, converted, same.symm⟩
  · rintro ⟨update, listed, source, destination, entry, converts, rfl⟩
    apply List.mem_filterMap.mpr
    exact ⟨update, listed, by rw [converts, Option.map_some]⟩

theorem graphEntry_of_tells {state : State} {changed : String → Bool}
    {updates : List GraphEntry} (tells : state.tells changed updates = true)
    {update : GraphEntry} (member : update ∈ updates) :
    ∃ key, state.graphEntry? key = some update := by
  simp only [State.tells, Bool.and_eq_true, List.all_eq_true, List.any_eq_true,
    decide_eq_true_eq] at tells
  obtain ⟨key, _, graph⟩ := tells.1 update member
  exact ⟨key, graph⟩

theorem Chain.converts_of_tells (agrees : Agrees reader host)
    (chain : Chain host reader) (inRange : chain.state.inRange = true)
    {changed : String → Bool}
    {updates : List GraphEntry}
    (tells : chain.state.tells changed updates = true) :
    ∀ update ∈ updates, (update.convert? reader).isSome = true := by
  intro update member
  obtain ⟨key, graph⟩ := graphEntry_of_tells tells member
  obtain ⟨source, destination, entry, converts, _⟩ :=
    chain.converts agrees inRange graph
  rw [converts, Option.isSome_some]

theorem Chain.current_of_tells (agrees : Agrees reader host)
    (chain : Chain host reader) (inRange : chain.state.inRange = true)
    {changed : String → Bool}
    {updates : List GraphEntry}
    (tells : chain.state.tells changed updates = true) :
    ∀ write ∈ writesOf reader updates,
      chain.state.entryAt reader write.1 = some write.2 := by
  intro write member
  obtain ⟨update, listed, source, destination, entry, converts, rfl⟩ :=
    mem_writesOf.mp member
  obtain ⟨key, graph⟩ := graphEntry_of_tells tells listed
  obtain ⟨_, _, other, converted, _, reads⟩ := chain.converts agrees inRange graph
  rw [converts] at converted
  cases converted
  exact reads

theorem Chain.named_of_tells (agrees : Agrees reader host)
    (chain : Chain host reader) (inRange : chain.state.inRange = true)
    {changed : String → Bool}
    {updates : List GraphEntry}
    (tells : chain.state.tells changed updates = true) {channelId : ChannelId}
    {channel : Channel}
    (here : chain.state.channels.get? (hexEncode channelId) = some channel)
    (isChanged : changed (hexEncode channelId) = true) :
    ∃ write ∈ writesOf reader updates, write.1 = channelId := by
  obtain ⟨update, graph⟩ := chain.exists_graphEntry here
  have listed : update ∈ updates := by
    simp only [State.tells, Bool.and_eq_true, List.all_eq_true] at tells
    have told := tells.2 _ (IndexMap.mem_keys.mpr ⟨channel, here⟩)
    simpa [isChanged, graph] using told
  obtain ⟨source, destination, entry, converts, name, _⟩ :=
    chain.converts agrees inRange graph
  exact ⟨(entry.getId reader, entry),
    mem_writesOf.mpr ⟨update, listed, source, destination, entry, converts,
      rfl⟩, (hexEncode_inj name).symm⟩

theorem writesOf_cons_of_converts {update : GraphEntry}
    {source destination : AccountEntry} {entry : ChannelEntry}
    (converts : update.convert? reader = some (source, destination, entry))
    (rest : List GraphEntry) :
    writesOf reader (update :: rest) =
      (entry.getId reader, entry) :: writesOf reader rest := by
  rw [writesOf, List.filterMap_cons, converts]
  rfl

theorem ingest_channels (view : View) {update : GraphEntry}
    {source destination : AccountEntry} {entry : ChannelEntry}
    (converts : update.convert? reader = some (source, destination, entry)) :
    (fun channelId => (view.ingest reader update).channels.get? channelId) =
      Function.update (fun channelId => view.channels.get? channelId)
        (entry.getId reader) (some entry) := by
  obtain ⟨channels, _⟩ := ingest_of_convert view converts
  funext channelId
  rw [channels, IndexMap.get?_put, Function.update_apply]

theorem ingestAll_channels (reader : Reader) (view : View)
    (updates : List GraphEntry) :
    (fun channelId =>
      (view.ingestAll reader updates).channels.get? channelId) =
        applied (writesOf reader updates) fun channelId =>
          view.channels.get? channelId := by
  induction updates generalizing view with
  | nil => rfl
  | cons update rest induction =>
      have first := induction (view.ingest reader update)
      rw [View.ingestAll, List.foldl_cons, ← View.ingestAll, first]
      cases converts : update.convert? reader with
      | none =>
          rw [View.ingest, converts, writesOf, writesOf, List.filterMap_cons,
            converts]
          rfl
      | some parts =>
          obtain ⟨source, destination, entry⟩ := parts
          rw [ingest_channels view converts,
            writesOf_cons_of_converts converts, applied]

end Updates

/-- Addresses keep their key ids, and channels their places. -/
structure Grows (before after : State) : Prop where
  owns : ∀ {keyid address}, Owns before.accounts keyid address →
    Owns after.accounts keyid address
  channels : ∀ {key channel}, before.channels.get? key = some channel →
    ∃ moved, after.channels.get? key = some moved

section Transactions

variable {host : Host} {reader : Reader} {emulator : FullStateEmulator}

theorem grows_of_succeeds {state after : State} {call : Call}
    (taken : emulator.succeeds host state call = some after) :
    Grows state after := by
  obtain ⟨addresses, action, sender, done, _, performs, same⟩ :=
    performs_of_succeeds taken
  have performed := performed_of_perform performs
  constructor
  · intro keyid address owns
    rw [same.accounts]
    exact owns.grows performed.accountStep
  · intro key channel here
    rw [same.channels]
    obtain ⟨moved, there, _⟩ := performed.channelStep.forward here
    exact ⟨moved, there⟩

theorem Chain.reads_same (agrees : Agrees reader host)
    {chain next : Chain host reader} (grows : Grows chain.state next.state)
    {channelId : ChannelId} {channel : Channel}
    (before : chain.state.channels.get? (hexEncode channelId) = some channel)
    (after : next.state.channels.get? (hexEncode channelId) = some channel) :
    next.state.entryAt reader channelId =
      chain.state.entryAt reader channelId := by
  obtain ⟨source, destination, status, balance, ticketIndex, first, second,
    name, reads⟩ := chain.registry.stored_reads chain.readable before
  have isId := hexEncode_inj name
  subst isId
  rw [entryAt_of_stored agrees chain.registry before first second reads,
    entryAt_of_stored agrees next.registry after (grows.owns first)
      (grows.owns second) reads]

theorem Chain.accurate (agrees : Agrees reader host)
    {chain next : Chain host reader} (grows : Grows chain.state next.state)
    (inRange : next.state.inRange = true) {updates : List GraphEntry}
    (tells : next.state.tells (fun key => chain.state.channels.get? key ≠
      next.state.channels.get? key) updates = true) :
    Accurate (chain.state.entryAt reader) (next.state.entryAt reader)
      (writesOf reader updates) := by
  refine ⟨next.current_of_tells agrees inRange tells, ?_⟩
  intro channelId differs
  cases after : next.state.channels.get? (hexEncode channelId) with
  | none =>
      cases before : chain.state.channels.get? (hexEncode channelId) with
      | none =>
          rw [State.entryAt, State.entryAt, after, before] at differs
          exact (differs rfl).elim
      | some channel =>
          obtain ⟨moved, there⟩ := grows.channels before
          rw [after] at there
          cases there
  | some channel =>
      apply next.named_of_tells agrees inRange tells after
      rw [decide_eq_true_eq, after]
      intro before
      exact differs (Chain.reads_same agrees grows before after)

end Transactions

/-- How far `connect` and its task have come. -/
inductive Phase where
  | idle
  | queried (keyidToAddr : IndexMap UInt32 Address) (view : View)
  | loaded (view : View)
  | failed (error : String)
  | subscribed (view : View) (updates : List GraphEntry)

structure Link where
  state : State
  phase : Phase

inductive LinkStep where
  | transact (call : Call) (updates : List GraphEntry)
  | queryAccounts (answer : List Account)
  | queryChannels (answer : List Channel)
  | subscribe (snapshot : List GraphEntry)
  | ingest

section System

variable (host : Host) (reader : Reader) (emulator : FullStateEmulator)

/-- The updates of a transaction go to a connector that has subscribed. -/
def Phase.told (next : State) (changed : String → Bool)
    (updates : List GraphEntry) : Phase → Option Phase
  | .subscribed view waiting =>
      if next.tells changed updates then
        some (.subscribed view (waiting ++ updates))
      else none
  | phase => some phase

def Link.step (link : Link) : LinkStep → Option Link
  | .transact call updates => do
      let next ← emulator.succeeds host link.state call
      let phase ← link.phase.told next (fun key =>
        link.state.channels.get? key ≠ next.channels.get? key) updates
      some { state := next, phase := phase }
  | .queryAccounts answer =>
      match link.phase with
      | .idle =>
          if answer.Perm link.state.accounts.values then
            match loadAccounts reader answer (.empty, emptyView) with
            | .ok (keyids, view) =>
                some { link with phase := .queried keyids view }
            | .error error => some { link with phase := .failed error }
          else none
      | _ => none
  | .queryChannels answer =>
      match link.phase with
      | .queried keyids view =>
          if answer.Perm link.state.channels.values then
            match loadChannels reader keyids answer view with
            | .ok view => some { link with phase := .loaded view }
            | .error error => some { link with phase := .failed error }
          else none
      | _ => none
  | .subscribe snapshot =>
      match link.phase with
      | .loaded view =>
          if link.state.tells (fun _ => true) snapshot then
            some { link with phase := .subscribed view snapshot }
          else none
      | _ => none
  | .ingest =>
      match link.phase with
      | .subscribed view (update :: rest) =>
          some
            { link with
              phase := .subscribed (view.ingest reader update) rest }
      | _ => none

/-- A transaction leaves channels that the builder takes. -/
def Link.keepsInRange (link : Link) : LinkStep → Bool
  | .transact call _ =>
      (emulator.succeeds host link.state call).all (·.inRange)
  | _ => true

/-- What is known of the connector beside the chain. -/
def Phase.Fits (state : State) : Phase → Prop
  | .queried keyids view =>
      (∀ {keyid address}, keyids.get? keyid = some address →
        Owns state.accounts keyid.toInt32 address) ∧
        view.channels = .empty
  | .loaded view =>
      ∀ channelId, state.entryAt reader channelId = none →
        view.channels.get? channelId = none
  | .subscribed view updates =>
      (∀ update ∈ updates, (update.convert? reader).isSome = true) ∧
        Mirrors (state.entryAt reader)
          (fun channelId => view.channels.get? channelId)
          (writesOf reader updates)
  | _ => True

end System

section Invariant

variable {host : Host} {reader : Reader} {emulator : FullStateEmulator}

/-- A chain whose channels the builder takes, and a connector that fits it. -/
def Link.Sound (host : Host) (reader : Reader) (link : Link) : Prop :=
  ∃ chain : Chain host reader, chain.state = link.state ∧
    link.state.inRange = true ∧ link.phase.Fits reader link.state

theorem Chain.unstored (agrees : Agrees reader host)
    (chain : Chain host reader) {channelId : ChannelId} :
    chain.state.entryAt reader channelId = none ↔
      chain.state.channels.get? (hexEncode channelId) = none := by
  constructor
  · intro unread
    cases here : chain.state.channels.get? (hexEncode channelId) with
    | none => rfl
    | some channel =>
        obtain ⟨source, destination, status, balance, ticketIndex, first,
          second, name, reads⟩ :=
          chain.registry.stored_reads chain.readable here
        have isId := hexEncode_inj name
        subst isId
        rw [entryAt_of_stored agrees chain.registry here first second
          reads] at unread
        cases unread
  · intro missing
    rw [State.entryAt, missing]
    rfl

theorem Phase.Fits.transact (agrees : Agrees reader host)
    {chain next : Chain host reader} (grows : Grows chain.state next.state)
    (inRange : next.state.inRange = true) {phase told : Phase} (fits : phase.Fits reader chain.state)
    {updates : List GraphEntry}
    (tells : phase.told next.state (fun key =>
      chain.state.channels.get? key ≠ next.state.channels.get? key) updates =
        some told) : told.Fits reader next.state := by
  cases phase with
  | idle | failed =>
      cases tells
      trivial
  | queried keyids view =>
      cases tells
      exact ⟨fun found => grows.owns (fits.1 found), fits.2⟩
  | loaded view =>
      cases tells
      intro channelId unread
      apply fits channelId
      rw [chain.unstored agrees]
      cases before : chain.state.channels.get? (hexEncode channelId) with
      | none => rfl
      | some channel =>
          obtain ⟨moved, there⟩ := grows.channels before
          rw [(next.unstored agrees).mp unread] at there
          cases there
  | subscribed view waiting =>
      simp only [Phase.told] at tells
      split_ifs at tells with all
      cases tells
      obtain ⟨convert, mirrors⟩ := fits
      constructor
      · intro update member
        rcases List.mem_append.mp member with earlier | fresh
        · exact convert update earlier
        · exact next.converts_of_tells agrees inRange all update fresh
      · rw [writesOf, List.filterMap_append]
        exact mirrors.report (Chain.accurate agrees grows inRange all)

theorem Phase.Fits.subscribe (agrees : Agrees reader host)
    (chain : Chain host reader) (inRange : chain.state.inRange = true) {view : View}
    (fits : (Phase.loaded view).Fits reader chain.state)
    {snapshot : List GraphEntry}
    (tells : chain.state.tells (fun _ => true) snapshot = true) :
    (Phase.subscribed view snapshot).Fits reader chain.state := by
  refine ⟨chain.converts_of_tells agrees inRange tells, ?_⟩
  apply Mirrors.of_snapshot fits
  intro channelId entry
  constructor
  · intro member
    exact chain.current_of_tells agrees inRange tells _ member
  · intro reads
    cases here : chain.state.channels.get? (hexEncode channelId) with
    | none =>
        rw [(chain.unstored agrees).mpr here] at reads
        cases reads
    | some channel =>
        obtain ⟨write, member, isId⟩ :=
          chain.named_of_tells agrees inRange tells here rfl
        have current := chain.current_of_tells agrees inRange tells write member
        rw [isId, reads, Option.some.injEq] at current
        rw [current, ← isId]
        exact member

theorem Phase.Fits.ingest {state : State} {view : View} {update : GraphEntry}
    {rest : List GraphEntry}
    (fits : (Phase.subscribed view (update :: rest)).Fits reader state) :
    (Phase.subscribed (view.ingest reader update) rest).Fits reader state := by
  obtain ⟨convert, mirrors⟩ := fits
  refine ⟨fun other member => convert other (List.mem_cons_of_mem _ member),
    ?_⟩
  obtain ⟨⟨source, destination, entry⟩, converts⟩ :=
    Option.isSome_iff_exists.mp (convert update List.mem_cons_self)
  rw [ingest_channels view converts]
  rw [writesOf_cons_of_converts converts] at mirrors
  exact mirrors.take

theorem Link.Sound.step (agrees : Agrees reader host) (finds : host.Finds)
    {link next : Link} (sound : link.Sound host reader)
    (ids : host.DistinctIds link.state.accounts) {label : LinkStep}
    (keeps : link.keepsInRange host emulator label = true)
    (taken : link.step host reader emulator label = some next) :
    next.Sound host reader := by
  obtain ⟨state, phase⟩ := link
  obtain ⟨chain, isState, inRange, fits⟩ := sound
  dsimp only at isState
  subst isState
  cases label with
  | transact call updates =>
      obtain ⟨after, succeeds, rest⟩ := Option.bind_eq_some_iff.mp taken
      obtain ⟨told, tells, same⟩ := Option.bind_eq_some_iff.mp rest
      cases same
      have grows := grows_of_succeeds succeeds
      obtain ⟨later, rfl, _⟩ := succeeds_follows agrees finds ids succeeds
      have within : later.state.inRange = true := by
        simpa [Link.keepsInRange, succeeds] using keeps
      exact ⟨later, rfl, within, fits.transact agrees grows within tells⟩
  | queryAccounts answer =>
      cases phase with
      | idle =>
          simp only [Link.step] at taken
          split_ifs at taken with listed
          have readable : ∀ model ∈ answer, model.ReadableBy reader := by
            intro model member
            obtain ⟨key, here⟩ :=
              IndexMap.get?_of_mem_values (listed.mem_iff.mp member)
            exact chain.readable.accounts here
          rw [loadAccounts_ok readable] at taken
          cases taken
          exact ⟨chain, rfl, inRange, owns_of_keyidToAddr chain.readable listed,
            rfl⟩
      | _ => cases taken
  | queryChannels answer =>
      cases phase with
      | queried keyids view =>
          simp only [Link.step] at taken
          split_ifs at taken with listed
          rcases chain.registry.loadChannels_cases agrees chain.readable fits.1
            listed fits.2 with ⟨_, channels, loads, reads⟩ | ⟨_, text, fails⟩
          · rw [loads] at taken
            cases taken
            refine ⟨chain, rfl, inRange, ?_⟩
            intro channelId unread
            exact (reads channelId).trans unread
          · rw [fails] at taken
            cases taken
            exact ⟨chain, rfl, inRange, trivial⟩
      | _ => cases taken
  | subscribe snapshot =>
      cases phase with
      | loaded view =>
          simp only [Link.step] at taken
          split_ifs at taken with tells
          cases taken
          exact ⟨chain, rfl, inRange, .subscribe agrees chain inRange fits tells⟩
      | _ => cases taken
  | ingest =>
      cases phase with
      | subscribed view updates =>
          cases updates with
          | nil => cases taken
          | cons update rest =>
              cases taken
              exact ⟨chain, rfl, inRange, fits.ingest⟩
      | _ => cases taken

theorem Link.state_of_step {link next : Link} {label : LinkStep}
    (taken : link.step host reader emulator label = some next) :
    next.state = link.state ∨
      ∃ call, emulator.succeeds host link.state call = some next.state := by
  obtain ⟨state, phase⟩ := link
  cases label with
  | transact call updates =>
      obtain ⟨after, succeeds, rest⟩ := Option.bind_eq_some_iff.mp taken
      obtain ⟨told, _, same⟩ := Option.bind_eq_some_iff.mp rest
      cases same
      exact .inr ⟨call, succeeds⟩
  | queryAccounts answer =>
      cases phase with
      | idle =>
          simp only [Link.step] at taken
          split_ifs at taken
          split at taken <;> cases taken <;> exact .inl rfl
      | _ => cases taken
  | queryChannels answer =>
      cases phase with
      | queried keyids view =>
          simp only [Link.step] at taken
          split_ifs at taken
          split at taken <;> cases taken <;> exact .inl rfl
      | _ => cases taken
  | subscribe snapshot =>
      cases phase with
      | loaded view =>
          simp only [Link.step] at taken
          split_ifs at taken
          cases taken
          exact .inl rfl
      | _ => cases taken
  | ingest =>
      cases phase with
      | subscribed view updates =>
          cases updates with
          | nil => cases taken
          | cons update rest =>
              cases taken
              exact .inl rfl
      | _ => cases taken

theorem Link.owns_of_step {link next : Link} {label : LinkStep}
    (taken : link.step host reader emulator label = some next)
    {keyid : Int32} {address : Address}
    (owns : Owns link.state.accounts keyid address) :
    Owns next.state.accounts keyid address := by
  rcases Link.state_of_step taken with same | ⟨call, succeeds⟩
  · rw [same]
    exact owns
  · exact (grows_of_succeeds succeeds).owns owns

/-- At any time after it has subscribed, in whatever order transactions,
queries and updates come, the channels that the connector has cached and those
that wait make up the channels of the chain, as long as epochs and ticket
indices stay in range. -/
theorem cache_and_updates_mirror_chain (host : Host) (reader : Reader)
    (agrees : Agrees reader host) (finds : host.Finds)
    (emulator : FullStateEmulator) (chain : Chain host reader)
    (inRange : chain.state.inRange = true)
    (labels : List LinkStep) (final : Link)
    (ended : run (restrict (Link.keepsInRange host emulator)
      (Link.step host reader emulator)) labels ⟨chain.state, .idle⟩ =
        some final) (ids : host.DistinctIds final.state.accounts)
    (view : View) (updates : List GraphEntry)
    (subscribed : final.phase = .subscribed view updates) :
    (∀ update ∈ updates, (update.convert? reader).isSome = true) ∧
      ∀ channelId, (view.ingestAll reader updates).channels.get? channelId =
        final.state.readChannel reader channelId := by
  have sound : final.Sound host reader := by
    let known : Link → Prop := fun link =>
      host.DistinctIds link.state.accounts
    have back : ∀ link label next,
        restrict (Link.keepsInRange host emulator)
          (Link.step host reader emulator) link label = some next →
        known next → known link := by
      intro link label next taken later
      exact Host.DistinctIds.mono later
        (Link.owns_of_step (step_of_restrict taken).2)
    have closed : ∀ link label next,
        restrict (Link.keepsInRange host emulator)
          (Link.step host reader emulator) link label = some next →
        known link → link.Sound host reader → next.Sound host reader := by
      intro link label next taken now sound
      obtain ⟨keeps, stepped⟩ := step_of_restrict taken
      exact sound.step agrees finds now keeps stepped
    have last : known final := ids
    exact run_invariant_of_good back closed ended last
      ⟨chain, rfl, inRange, trivial⟩
  obtain ⟨last, isState, within, fits⟩ := sound
  rw [subscribed] at fits
  obtain ⟨convert, mirrors⟩ := fits
  refine ⟨convert, ?_⟩
  intro channelId
  have caught := ingestAll_channels reader view updates
  rw [mirrors] at caught
  rw [← isState] at within caught ⊢
  rw [last.readChannel_eq_entry agrees within]
  exact congrFun caught channelId

/-- Transactions may come between the two queries of `connect`.  It fails
exactly if there is a channel then with an end that was not known before, or
out of range; otherwise it has the channels of the later state and the accounts
of the earlier one. -/
theorem connect_fails_iff_end_unknown_or_refused (host : Host) (reader : Reader)
    (agrees : Agrees reader host) (finds : host.Finds)
    (emulator : FullStateEmulator) (chain : Chain host reader)
    (calls : List Call) (later : State)
    (ended : run (emulator.succeeds host) calls chain.state = some later)
    (ids : host.DistinctIds later.accounts) (accountAnswer : List Account)
    (channelAnswer : List Channel)
    (accounts : accountAnswer.Perm chain.state.accounts.values)
    (channels : channelAnswer.Perm later.channels.values) :
    ((∃ text, load reader accountAnswer channelAnswer emptyView =
          .error text) ↔
        ∃ key channel, later.channels.get? key = some channel ∧
          ((∀ address, ¬Owns chain.state.accounts channel.source address) ∨
            (∀ address,
              ¬Owns chain.state.accounts channel.destination address) ∨
            channel.inRange = false)) ∧
      ∀ view, load reader accountAnswer channelAnswer emptyView = .ok view →
        (∀ channelId, view.channels.get? channelId =
          later.readChannel reader channelId) ∧
        ∀ address, view.accounts.get? address =
          chain.state.readAccount reader address := by
  have owned : ∀ {keyid address},
      (keyidToAddr reader accountAnswer).get? keyid = some address →
      Owns chain.state.accounts keyid.toInt32 address :=
    owns_of_keyidToAddr chain.readable accounts
  obtain ⟨last, rfl, _⟩ := run_follows agrees finds ended ids
  obtain ⟨view, fresh, seen, queried⟩ := chain.load_accounts accounts
  rw [queried]
  rcases last.registry.loadChannels_cases agrees last.readable
      (fun found => owns_of_run ended (owned found)) channels fresh with
    ⟨resolves, cached, loads, reads⟩ | ⟨unresolved, text, fails⟩
  · rw [loads]
    constructor
    · constructor
      · rintro ⟨text, error⟩
        cases error
      · rintro ⟨key, channel, here, unknown⟩
        obtain ⟨⟨source, isSource, _⟩, ⟨destination, isDestination, _⟩,
          within⟩ := resolves channel
            (channels.mem_iff.mpr (IndexMap.mem_values_of_get? here))
        have first := owned isSource
        have second := owned isDestination
        rw [Int32.toInt32_toUInt32] at first second
        rcases unknown with unknown | unknown | outside
        · exact (unknown source first).elim
        · exact (unknown destination second).elim
        · rw [within] at outside
          cases outside
    · intro view same
      cases same
      have inRange : last.state.inRange = true := by
        apply List.all_eq_true.mpr
        intro channel member
        exact (resolves channel (channels.mem_iff.mpr member)).inRange
      refine ⟨fun channelId => ?_, seen⟩
      rw [last.readChannel_eq_entry agrees inRange]
      exact reads channelId
  · rw [fails]
    refine ⟨iff_of_true ⟨text, rfl⟩ ?_, fun view same => by cases same⟩
    obtain ⟨channel, member, unresolved⟩ := unresolved
    obtain ⟨key, here⟩ :=
      IndexMap.get?_of_mem_values (channels.mem_iff.mp member)
    refine ⟨key, channel, here, ?_⟩
    by_contra known
    push Not at known
    obtain ⟨⟨source, first⟩, ⟨destination, second⟩, within⟩ := known
    have isSource := chain.registry.names chain.readable accounts first
    have isDestination := chain.registry.names chain.readable accounts second
    exact unresolved
      ⟨⟨source, isSource, owns_of_run ended first⟩,
        ⟨destination, isDestination, owns_of_run ended second⟩,
        by simpa using within⟩

end Invariant

section TwoNodes

/-- The state after one more call. -/
def afterCall (state : State) (call : Call) : State :=
  (plain.succeeds trading state call).getD state

def builtState : State :=
  (aliceToBobOpen.build noNodes).toOption.getD noNodes

def fundedState : State := afterCall builtState ⟨0, []⟩

def redeemedState : State := afterCall fundedState ⟨0, [0]⟩

def updatesOf (state : State) : List GraphEntry :=
  state.channels.keys.filterMap state.graphEntry?

/-- The channel is funded before the subscription, and the ticket is redeemed
while the snapshot waits. -/
def following : List LinkStep :=
  [.queryAccounts builtState.accounts.values,
    .queryChannels builtState.channels.values, .transact ⟨0, []⟩ [],
    .subscribe (updatesOf fundedState),
    .transact ⟨0, [0]⟩ (updatesOf redeemedState), .ingest]

theorem builtState_chain : ∃ chain : Chain trading patient,
    chain.state = builtState := by
  obtain ⟨chain, builds, _⟩ := aliceToBobOpen.builds trading_agrees noNodes_bare
  refine ⟨chain, ?_⟩
  rw [builtState, builds]
  rfl

def Phase.waiting : Phase → Option (List GraphEntry)
  | .subscribed _ updates => some updates
  | _ => none

theorem redeemed_ticket_waits_for_the_cache :
    ∃ final view updates,
      run (restrict (Link.keepsInRange trading plain)
        (Link.step trading patient plain)) following ⟨builtState, .idle⟩ =
        some final ∧
      final.phase = .subscribed view updates ∧ updates.length = 1 ∧
      (view.ingestAll patient updates).channels.get?
          (joinAddresses alice bob) =
        final.state.readChannel patient (joinAddresses alice bob) := by
  have inRange : builtState.inRange = true := by
    decide +kernel
  have passed : (run (restrict (Link.keepsInRange trading plain)
      (Link.step trading patient plain)) following
      ⟨builtState, .idle⟩).any (fun final =>
        (final.phase.waiting.any fun updates => updates.length = 1) &&
          final.state.accounts.entries.all fun entry =>
            entry.2.chainKey = hexEncode alice ||
              entry.2.chainKey = hexEncode bob) = true := by
    decide +kernel
  obtain ⟨final, ended, facts⟩ := exists_run _ passed
  simp only [Bool.and_eq_true] at facts
  obtain ⟨state, phase⟩ := final
  cases phase with
  | subscribed view updates =>
      obtain ⟨chain, isBuilt⟩ := builtState_chain
      have begun := ended
      rw [← isBuilt] at begun inRange
      have mirrors := cache_and_updates_mirror_chain trading patient
        trading_agrees (reference_finds _) plain chain inRange following _
        begun (distinctIds_of_names _ facts.2) view updates rfl
      exact ⟨_, view, updates, ended, rfl, by simpa [Phase.waiting] using
        facts.1, mirrors.2 _⟩
  | _ => cases facts.1

/-- No account is announced between the two queries. -/
theorem connect_after_funding :
    ∃ view, load patient builtState.accounts.values
        fundedState.channels.values emptyView = .ok view ∧
      view.channels.get? (joinAddresses alice bob) =
        fundedState.readChannel patient (joinAddresses alice bob) := by
  have passed : (run (plain.succeeds trading) [⟨0, []⟩] builtState).any
      (fun final => final.accounts.entries.all fun entry =>
        entry.2.chainKey = hexEncode alice ||
          entry.2.chainKey = hexEncode bob) = true := by
    decide +kernel
  obtain ⟨final, ended, names⟩ := exists_run _ passed
  have isFunded : fundedState = final := by
    obtain ⟨next, taken, same⟩ := Option.bind_eq_some_iff.mp ended
    cases same
    rw [fundedState, afterCall, taken]
    rfl
  obtain ⟨chain, isBuilt⟩ := builtState_chain
  rw [← isBuilt] at ended
  have loaded : (load patient builtState.accounts.values
      fundedState.channels.values emptyView).toOption.isSome = true := by
    decide +kernel
  obtain ⟨view, here⟩ := Option.isSome_iff_exists.mp loaded
  have loads : load patient builtState.accounts.values
      fundedState.channels.values emptyView = .ok view := by
    generalize load patient builtState.accounts.values
      fundedState.channels.values emptyView = result at here
    cases result with
    | error text => cases here
    | ok other =>
        cases here
        rfl
  rw [isFunded] at loads ⊢
  rw [← isBuilt] at loads ⊢
  have reads := (connect_fails_iff_end_unknown_or_refused trading patient
    trading_agrees (reference_finds _) plain chain [⟨0, []⟩] final ended
    (distinctIds_of_names _ names) _ _ (.refl _) (.refl _)).2 view loads
  exact ⟨view, loads, reads.1 _⟩

end TwoNodes

end HoprUtilities.Blokli
