import HoprUtilities.Blokli.ChannelRefinement

/-!
# Runs of the emulator and of the machine

What each action does to the book, and from it what a run of successful
transactions does.  The accounts of the machine then hold for the emulated
contract: the balance of a channel is what has been paid in less what has been
paid out.
-/

namespace HoprUtilities.Blokli

open HoprUtilities.Lib
open Connector

/-- What the proofs rely on of the crates behind the emulator. -/
structure Host.Finds (host : Host) : Prop where
  accounts : host.FindsAccounts
  channels : host.FindsChannels
  safes : host.FindsSafes

/-- The machine takes the action, or there is none and nothing happens. -/
def Chain.Follows {host : Host} {reader : Reader}
    (agrees : Agrees reader host) (chain next : Chain host reader) :
    Option ChannelAction → Prop
  | none => next.book agrees = chain.book agrees
  | some action => (chain.book agrees).step action = some (next.book agrees)

section Actions

variable {host : Host} {reader : Reader} {addresses : ContractAddresses}
  {now : Nat} {sender : Address} {chain : Chain host reader} {done : State}

theorem entry_of_book (agrees : Agrees reader host)
    {source destination : Address} {channel : Channel}
    (here : chain.state.channels.get?
      (hexEncode (host.generateChannelId source destination)) = some channel)
    (first : Owns chain.state.accounts channel.source source)
    (second : Owns chain.state.accounts channel.destination destination)
    {status : Connector.ChannelStatus} {balance : Nat} {ticketIndex : UInt64}
    (reads : channel.Reads reader status balance ticketIndex) :
    (chain.book agrees).entry (host.generateChannelId source destination) =
      some (channel.entry source destination status balance ticketIndex) :=
  entryAt_of_stored agrees chain.registry here first second reads

theorem entry_of_channel (agrees : Agrees reader host)
    (finds : host.FindsChannels) {channelId : ChannelId} {key : String}
    {channel : Channel}
    (found : host.channel chain.state channelId = some (key, channel)) :
    ∃ source destination status balance ticketIndex,
      Owns chain.state.accounts channel.source source ∧
      Owns chain.state.accounts channel.destination destination ∧
      channelId = host.generateChannelId source destination ∧
      key = hexEncode (host.generateChannelId source destination) ∧
      channel.Reads reader status balance ticketIndex ∧
      (chain.book agrees).entry channelId =
        some (channel.entry source destination status balance ticketIndex) := by
  obtain ⟨name, here⟩ := get?_of_host_channel finds found
  obtain ⟨source, destination, status, balance, ticketIndex, first, second,
    title, reads⟩ := chain.registry.stored_reads chain.readable here
  have isId := hexEncode_inj title
  subst isId
  exact ⟨source, destination, status, balance, ticketIndex, first, second, rfl,
    name, reads, entry_of_book agrees here first second reads⟩

theorem entry_of_alone (agrees : Agrees reader host)
    (ids : host.DistinctIds chain.state.accounts) {source destination : Int32}
    {first second : Address} (owns : Owns chain.state.accounts source first)
    (other : Owns chain.state.accounts destination second)
    (alone : chain.state.channels.first?
      (Channel.connects source destination) = none) :
    (chain.book agrees).entry (host.generateChannelId first second) =
      none := by
  rw [chain.registry.first?_connects ids owns other,
    Option.map_eq_none_iff] at alone
  change chain.state.entryAt reader _ = none
  rw [State.entryAt, alone]
  rfl

theorem reads_of_connects (ids : host.DistinctIds chain.state.accounts)
    {source destination : Int32} {first second : Address}
    (owns : Owns chain.state.accounts source first)
    (other : Owns chain.state.accounts destination second) {key : String}
    {channel : Channel}
    (found : chain.state.channels.first?
      (Channel.connects source destination) = some (key, channel)) :
    key = hexEncode (host.generateChannelId first second) ∧
      chain.state.channels.get?
        (hexEncode (host.generateChannelId first second)) = some channel ∧
      Owns chain.state.accounts channel.source first ∧
      Owns chain.state.accounts channel.destination second ∧
      ∃ status balance ticketIndex,
        channel.Reads reader status balance ticketIndex := by
  rw [chain.registry.first?_connects ids owns other,
    Option.map_eq_some_iff] at found
  obtain ⟨content, here, same⟩ := found
  cases same
  obtain ⟨_, _, status, balance, ticketIndex, ownsOne, ownsTwo, name, reads⟩ :=
    chain.registry.stored_reads chain.readable here
  obtain ⟨rfl, rfl⟩ := ids ⟨_, owns⟩ ⟨_, other⟩ ⟨_, ownsOne⟩ ⟨_, ownsTwo⟩
    (hexEncode_inj name)
  exact ⟨rfl, here, ownsOne, ownsTwo, status, balance, ticketIndex, reads⟩

theorem Staked.owns {dstAddr : Address} {stake : Nat} {state allowed : State}
    {source destination : Account} (finds : host.FindsAccounts)
    (staked : Staked host sender dstAddr stake state source destination
      allowed) :
    Owns state.accounts source.keyid sender ∧
      Owns state.accounts destination.keyid dstAddr := by
  obtain ⟨_, sends⟩ := staked.sends
  obtain ⟨_, receives⟩ := staked.receives
  exact ⟨owns_of_account finds sends, owns_of_account finds receives⟩

theorem fund_follows (agrees : Agrees reader host) (finds : host.Finds)
    (ids : host.DistinctIds chain.state.accounts) {dstAddr : Address}
    {stake : Nat}
    (performed : Performed host addresses now sender chain.state
      (.fundChannel dstAddr stake) (.ok () done)) :
    ∃ next : Chain host reader, next.state = done ∧
      chain.Follows agrees next (some (.fund sender dstAddr stake)) := by
  generalize ended : EStateM.Result.ok () done = result at performed
  cases performed with
  | withdrawn kind | undeposited kind => cases kind
  | unallowed | epochOverflows | unreadChannel => cases ended
  | funded staked found reopens parsed =>
      rename_i former allowed source destination key channel funded
      cases ended
      obtain ⟨first, second⟩ := staked.owns finds.accounts
      obtain ⟨rfl, here, ownsOne, ownsTwo, status, balance, ticketIndex,
        reads⟩ := reads_of_connects ids first second found
      rw [agrees.parse reads.balance, Option.some.injEq] at parsed
      subst parsed
      obtain ⟨unlast, moved, index, reread, entry⟩ :=
        reopens.entry_fund reads sender dstAddr stake
      have same := SameContract.staked staked
      have ends : funded.source = channel.source ∧
          funded.destination = channel.destination := by
        cases reopens <;> exact ⟨rfl, rfl⟩
      have rewritten := reread.rebalance agrees (balance + stake)
      have begun := entry_of_book agrees here ownsOne ownsTwo reads
      rw [← ends.1] at ownsOne
      rw [← ends.2] at ownsTwo
      obtain ⟨next, isState, book⟩ := chain.exists_put agrees same rewritten
        ownsOne ownsTwo
      refine ⟨next, isState, ?_⟩
      rw [Chain.Follows, book]
      have positive : stake ≠ 0 := Nat.ne_of_gt staked.positive
      rw [ChannelBook.step, ChannelBook.fund, if_neg positive, begun]
      dsimp only
      rw [if_neg unlast, entry]
      rfl
  | opened staked missing =>
      rename_i allowed source destination
      cases ended
      obtain ⟨first, second⟩ := staked.owns finds.accounts
      have unread := entry_of_alone agrees ids first second missing
      have same := SameContract.staked staked
      have reads : (host.newChannel sender dstAddr source destination
          stake).Reads reader .opened stake 0 :=
        ⟨rfl, agrees.balance stake, parseU64_printU64 0⟩
      obtain ⟨next, isState, book⟩ := chain.exists_put agrees same reads first
        second
      refine ⟨next, isState, ?_⟩
      rw [Chain.Follows, book]
      have positive : stake ≠ 0 := Nat.ne_of_gt staked.positive
      rw [ChannelBook.step, ChannelBook.fund, if_neg positive, unread]
      rfl

theorem initialize_follows (agrees : Agrees reader host)
    (finds : host.Finds) {channelId : ChannelId}
    (performed : Performed host addresses now sender chain.state
      (.initializeChannelClosure channelId) (.ok () done)) :
    ∃ (next : Chain host reader) (time closing : Nat),
      next.state = done ∧
      chain.state.closingTime host now = some time ∧
      reader.dateTime (host.rfc3339 time) = .ok closing ∧
      chain.Follows agrees next (some (.initiate channelId closing)) := by
  generalize ended : EStateM.Result.ok () done = result at performed
  cases performed with
  | withdrawn kind | undeposited kind => cases kind
  | timeOverflows => cases ended
  | initialized found fits =>
      cases ended
      obtain ⟨source, destination, status, balance, ticketIndex, first, second,
        rfl, rfl, reads, begun⟩ :=
        entry_of_channel agrees finds.channels found
      obtain ⟨closing, read, pending⟩ := Readable.initialized agrees reads _
      obtain ⟨next, isState, book⟩ := chain.exists_put agrees (.refl _) pending
        first second
      refine ⟨next, _, closing, isState, fits, read, ?_⟩
      rw [Chain.Follows, book, ChannelBook.step, ChannelBook.setStatus, begun]
      rfl

theorem finalize_follows (agrees : Agrees reader host) (finds : host.Finds)
    {channelId : ChannelId}
    (performed : Performed host addresses now sender chain.state
      (.finalizeChannelClosure channelId) (.ok () done)) :
    ∃ next : Chain host reader, next.state = done ∧
      chain.Follows agrees next (some (.finalize channelId)) := by
  generalize ended : EStateM.Result.ok () done = result at performed
  cases performed with
  | withdrawn kind | undeposited kind => cases kind
  | finalized found pending =>
      cases ended
      obtain ⟨source, destination, status, balance, ticketIndex, first, second,
        rfl, rfl, reads, begun⟩ :=
        entry_of_channel agrees finds.channels found
      obtain ⟨time, rfl⟩ := reads.pending pending
      obtain ⟨next, isState, book⟩ := chain.exists_put agrees (.refl _)
        reads.close first second
      refine ⟨next, isState, ?_⟩
      rw [Chain.Follows, book, ChannelBook.step, ChannelBook.finalize, begun]
      rfl

theorem incoming_follows (agrees : Agrees reader host) (finds : host.Finds)
    {channelId : ChannelId}
    (performed : Performed host addresses now sender chain.state
      (.incomingChannelClosure channelId) (.ok () done)) :
    ∃ next : Chain host reader, next.state = done ∧
      chain.Follows agrees next (some (.incoming channelId)) := by
  generalize ended : EStateM.Result.ok () done = result at performed
  cases performed with
  | withdrawn kind | undeposited kind => cases kind
  | incoming found =>
      cases ended
      obtain ⟨source, destination, status, balance, ticketIndex, first, second,
        rfl, rfl, reads, begun⟩ :=
        entry_of_channel agrees finds.channels found
      obtain ⟨next, isState, book⟩ := chain.exists_put agrees (.refl _)
        reads.close first second
      refine ⟨next, isState, ?_⟩
      rw [Chain.Follows, book, ChannelBook.step, ChannelBook.setStatus, begun]
      rfl

theorem taken_follows (agrees : Agrees reader host) (finds : host.Finds)
    {channelId : ChannelId} {ticketIndex : UInt64} {amount : Nat}
    {key : String} {channel paid : Channel}
    (redeems : Redeems host chain.state channelId ticketIndex amount key
      channel paid) :
    ∃ (middle : Chain host reader) (source destination : Address),
      middle.state = chain.state.setChannel key paid ∧
      Owns middle.state.accounts channel.source source ∧
      Owns middle.state.accounts channel.destination destination ∧
      (chain.book agrees).redeem channelId ticketIndex amount =
        some ((middle.book agrees).credit
          (host.generateChannelId destination source) amount) := by
  obtain ⟨source, destination, status, balance, index, first, second, rfl, rfl,
    reads, begun⟩ := entry_of_channel agrees finds.channels redeems.found
  obtain ⟨ahead, enough, fits, after⟩ := redeems.reads agrees reads
  have live : status ≠ .closed := by
    intro closed
    cases redeems with
    | intro _ live => exact live (reads.closed_iff.mp closed)
  have ends : paid.source = channel.source ∧
      paid.destination = channel.destination ∧ paid.epoch = channel.epoch := by
    cases redeems
    exact ⟨rfl, rfl, rfl⟩
  have one := first
  have two := second
  rw [← ends.1] at first
  rw [← ends.2.1] at second
  obtain ⟨middle, isState, book⟩ := chain.exists_put agrees (.refl _) after
    first second
  refine ⟨middle, source, destination, isState, ?_, ?_, ?_⟩
  · rw [isState]
    exact one
  · rw [isState]
    exact two
  · rw [ChannelBook.redeem, begun]
    dsimp only
    rw [if_pos ⟨live, ahead, enough, fits⟩, book, Channel.entry, Channel.entry,
      ends.2.2]

theorem credit_follows (agrees : Agrees reader host)
    (ids : host.DistinctIds chain.state.accounts) {source destination : Int32}
    {first second : Address} (owns : Owns chain.state.accounts source first)
    (other : Owns chain.state.accounts destination second) {key : String}
    {channel : Channel} {balance : Nat}
    (found : chain.state.channels.first?
      (Channel.connects source destination) = some (key, channel))
    (parsed : host.parse .wxHopr channel.balance = some balance)
    (amount : Nat) :
    ∃ next : Chain host reader,
      next.state = chain.state.setChannel key
        { channel with
          balance := host.print .wxHopr (balance + amount) } ∧
      next.book agrees = (chain.book agrees).credit
        (host.generateChannelId first second) amount := by
  obtain ⟨rfl, here, ownsOne, ownsTwo, status, held, ticketIndex, reads⟩ :=
    reads_of_connects ids owns other found
  rw [agrees.parse reads.balance, Option.some.injEq] at parsed
  subst parsed
  obtain ⟨next, isState, book⟩ := chain.exists_put agrees (.refl _)
    (reads.rebalance agrees (held + amount)) ownsOne ownsTwo
  refine ⟨next, isState, ?_⟩
  rw [book, ChannelBook.credit,
    entry_of_book agrees here ownsOne ownsTwo reads]
  rfl

theorem redeem_follows (agrees : Agrees reader host) (finds : host.Finds)
    (ids : host.DistinctIds chain.state.accounts) {channelId : ChannelId}
    {ticketIndex : UInt64} {amount : Nat}
    (performed : Performed host addresses now sender chain.state
      (.redeemTicket channelId ticketIndex amount) (.ok () done)) :
    ∃ next : Chain host reader, next.state = done ∧
      chain.Follows agrees next
        (some (.redeem channelId ticketIndex amount)) := by
  generalize ended : EStateM.Result.ok () done = result at performed
  cases performed with
  | withdrawn kind | undeposited kind => cases kind
  | unreadOpposite | unreadSafe => cases ended
  | rebalanced redeems found reads =>
      cases ended
      obtain ⟨middle, source, destination, isState, first, second, takes⟩ :=
        taken_follows agrees finds redeems
      have known : host.DistinctIds middle.state.accounts := by
        rw [isState]
        exact ids
      rw [← isState] at found
      obtain ⟨next, isNext, book⟩ :=
        credit_follows agrees known second first found reads amount
      refine ⟨next, ?_, ?_⟩
      · rw [isNext, isState]
      · rw [Chain.Follows, ChannelBook.step, takes, book]
  | credited redeems alone safe reads counts =>
      obtain ⟨middle, source, destination, isState, first, second, takes⟩ :=
        taken_follows agrees finds redeems
      have known : host.DistinctIds middle.state.accounts := by
        rw [isState]
        exact ids
      rw [← isState] at alone
      have missing := entry_of_alone agrees known second first alone
      obtain ⟨stats, rfl⟩ :=
        eq_setStats_of_countRedeemed (counts.trans ended.symm)
      rw [← isState]
      refine ⟨middle.congr ((SameContract.write ..).trans (.setStats ..)), rfl,
        ?_⟩
      rw [Chain.Follows, ChannelBook.step, takes,
        ChannelBook.credit_of_none missing, Chain.book_congr]
  | nowhere redeems alone homeless =>
      cases ended
      obtain ⟨middle, source, destination, isState, first, second, takes⟩ :=
        taken_follows agrees finds redeems
      have known : host.DistinctIds middle.state.accounts := by
        rw [isState]
        exact ids
      rw [← isState] at alone
      have missing := entry_of_alone agrees known second first alone
      refine ⟨middle, isState, ?_⟩
      rw [Chain.Follows, ChannelBook.step, takes,
        ChannelBook.credit_of_none missing]

/-- The actions that are not about channels. -/
def Action.leavesChannels : Action → Bool
  | .registerSafeAddress _ | .announce _ _ | .withdrawNative _ _ _
  | .withdrawToken _ _ _ | .approve _ _ _ => true
  | _ => false

theorem channels_of_leaves {action : Action} {state : State}
    (leaves : action.leavesChannels = true)
    (performed : Performed host addresses now sender state action
      (.ok () done)) : done.channels = state.channels := by
  generalize ended : EStateM.Result.ok () done = result at performed
  cases performed with
  | registered | assigned | reannounced | announced | approved | untracked =>
      cases ended
      rfl
  | withdrawn kind debit deposit =>
      cases ended
      exact deposit.channels.trans debit.channels
  | unaddressed | undeposited => cases ended
  | _ => cases leaves

theorem other_follows (agrees : Agrees reader host) (finds : host.Finds)
    {action : Action} (leaves : action.leavesChannels = true)
    (performed : Performed host addresses now sender chain.state action
      (.ok () done)) (readable : Readable reader done) :
    ∃ next : Chain host reader, next.state = done ∧
      chain.Follows agrees next none := by
  have accounts := performed.accountStep
  have channels := channels_of_leaves leaves performed
  have registry : Registry host done :=
    chain.registry.step finds.accounts accounts performed.channelStep
  exact ⟨⟨done, registry, readable⟩, rfl,
    Chain.book_same agrees ⟨done, registry, readable⟩ accounts channels⟩

def Action.onChannels? (reader : Reader) (host : Host) (now : Nat)
    (sender : Address) (state : State) : Action → Option ChannelAction
  | .fundChannel dstAddr stake => some (.fund sender dstAddr stake)
  | .initializeChannelClosure channelId => do
      let time ← state.closingTime host now
      let closing ← (reader.dateTime (host.rfc3339 time)).toOption
      some (.initiate channelId closing)
  | .finalizeChannelClosure channelId => some (.finalize channelId)
  | .incomingChannelClosure channelId => some (.incoming channelId)
  | .redeemTicket channelId ticketIndex ticketAmount =>
      some (.redeem channelId ticketIndex ticketAmount)
  | _ => none

theorem performed_of_perform {action : Action} {state : State}
    (performs : perform host addresses now sender action state =
      .ok () done) :
    Performed host addresses now sender state action (.ok () done) := by
  rcases perform_ends host addresses now sender action state with
    ⟨_, failure, blocked⟩ | ⟨_, performed⟩
  · rw [performs] at blocked
    cases blocked
  · rw [performs] at performed
    exact performed

/-- The texts are still readable after an action without channels. -/
theorem readable_of_leaves (agrees : Agrees reader host) (finds : host.Finds)
    {action : Action} (leaves : action.leavesChannels = true)
    (performs : perform host addresses now sender action chain.state =
      .ok () done) : Readable reader done := by
  have readable := chain.readable
  have performed := performed_of_perform performs
  cases action with
  | registerSafeAddress => exact readable.registerSafeAddress agrees performs
  | announce => exact readable.announce agrees finds.safes performs
  | withdrawNative | withdrawToken =>
      cases performed with
      | withdrawn kind debit deposit =>
          exact (readable.debits debit).deposits deposit
  | approve =>
      cases performed with
      | approved => exact readable.write _ _ _
      | withdrawn kind => cases kind
      | untracked => exact readable
  | _ => cases leaves

/-- Every action that is performed is one of the machine, or none. -/
theorem perform_follows (agrees : Agrees reader host) (finds : host.Finds)
    (ids : host.DistinctIds chain.state.accounts) {action : Action}
    (performs : perform host addresses now sender action chain.state =
      .ok () done) :
    ∃ next : Chain host reader, next.state = done ∧
      chain.Follows agrees next
        (action.onChannels? reader host now sender chain.state) := by
  have performed := performed_of_perform performs
  cases action with
  | fundChannel => exact fund_follows agrees finds ids performed
  | initializeChannelClosure =>
      obtain ⟨next, time, closing, isState, fits, read, follows⟩ :=
        initialize_follows agrees finds performed
      refine ⟨next, isState, ?_⟩
      rw [Action.onChannels?, fits]
      simp only [Option.bind_eq_bind, Option.bind_some, read, Except.toOption]
      exact follows
  | finalizeChannelClosure => exact finalize_follows agrees finds performed
  | incomingChannelClosure => exact incoming_follows agrees finds performed
  | redeemTicket => exact redeem_follows agrees finds ids performed
  | registerSafeAddress | announce | withdrawNative | withdrawToken
  | approve =>
      exact other_follows agrees finds rfl performed
        (readable_of_leaves agrees finds rfl performs)

end Actions

section Runs

variable {host : Host} {reader : Reader} {emulator : FullStateEmulator}

/-- What the machine does for a call. -/
def FullStateEmulator.onChannels? (host : Host) (reader : Reader)
    (emulator : FullStateEmulator) (state : State) (call : Call) :
    Option ChannelAction :=
  match host.contractAddresses state.chainInfo.contractAddresses with
  | none => none
  | some addresses =>
      match host.parseTx call.signedTx emulator.moduleAddress addresses with
      | .ok (action, sender) =>
          action.onChannels? reader host call.now sender state
      | .error _ => none

/-- What the machine does for the calls of a run. -/
def FullStateEmulator.onChannels (host : Host) (reader : Reader)
    (emulator : FullStateEmulator) : List Call → State → List ChannelAction
  | [], _ => []
  | call :: rest, state =>
      (emulator.onChannels? host reader state call).toList ++
        ((emulator.succeeds host state call).map
          (emulator.onChannels host reader rest)).getD []

/-- A successful call has performed its action, and then paid the fee. -/
theorem settled_of_succeeds {state after : State} {call : Call}
    (taken : emulator.succeeds host state call = some after) :
    ∃ addresses action sender done,
      Parses host emulator state call.signedTx addresses action sender ∧
        perform host addresses call.now sender action state = .ok () done ∧
        Debits host .nativeBalances (some (hexEncode sender)) emulatedTxPrice
          (done.countTx (hexEncode sender)) after := by
  obtain ⟨sent, ended⟩ := updateState_of_succeeds taken
  rcases updateState_cases host emulator call.now call.signedTx state with
    ⟨_, failed, _⟩ | ⟨addresses, action, sender, parses, executes⟩
  · rw [failed] at ended
    cases ended
  · have executed := execute_executed host emulator.interceptor addresses
      call.now sender action state
    rw [← executes, ended] at executed
    generalize performs :
      perform host addresses call.now sender action state = result at executed
    cases executed with
    | settled pays => exact ⟨addresses, action, sender, _, parses, performs, pays⟩

theorem performs_of_succeeds {state after : State} {call : Call}
    (taken : emulator.succeeds host state call = some after) :
    ∃ addresses action sender done,
      Parses host emulator state call.signedTx addresses action sender ∧
        perform host addresses call.now sender action state = .ok () done ∧
        SameContract done after := by
  obtain ⟨addresses, action, sender, done, parses, performs, pays⟩ :=
    settled_of_succeeds taken
  exact ⟨addresses, action, sender, done, parses, performs,
    (SameContract.countTx _ _).trans (.debits pays)⟩

/-- A successful call is what the machine does for it, or nothing. -/
theorem succeeds_follows (agrees : Agrees reader host) (finds : host.Finds)
    {chain : Chain host reader} (ids : host.DistinctIds chain.state.accounts)
    {after : State} {call : Call}
    (taken : emulator.succeeds host chain.state call = some after) :
    ∃ next : Chain host reader, next.state = after ∧
      chain.Follows agrees next
        (emulator.onChannels? host reader chain.state call) := by
  obtain ⟨addresses, action, sender, done, ⟨known, parsed⟩, performs, same⟩ :=
    performs_of_succeeds taken
  obtain ⟨next, rfl, follows⟩ := perform_follows agrees finds ids performs
  refine ⟨next.congr same, rfl, ?_⟩
  rw [FullStateEmulator.onChannels?, known]
  dsimp only
  rw [parsed]
  dsimp only
  unfold Chain.Follows at follows ⊢
  rw [Chain.book_congr]
  exact follows

theorem owns_of_run {calls : List Call}
    {start final : State}
    (ended : run (emulator.succeeds host) calls start = some final)
    {keyid : Int32} {address : Address}
    (owns : Owns start.accounts keyid address) :
    Owns final.accounts keyid address := by
  have closed : ∀ state call next,
      emulator.succeeds host state call = some next →
      Owns state.accounts keyid address → Owns next.accounts keyid address := by
    intro state call next taken known
    obtain ⟨addresses, action, sender, done, _, performs, same⟩ :=
      performs_of_succeeds taken
    rw [same.accounts]
    exact known.grows (performed_of_perform performs).accountStep
  exact run_invariant closed ended owns

theorem Host.DistinctIds.mono {before after : IndexMap UInt32 Account}
    (ids : host.DistinctIds after)
    (grows : ∀ {keyid address}, Owns before keyid address →
      Owns after keyid address) : host.DistinctIds before := by
  intro first second third fourth one two three four same
  have later : ∀ {address : Address}, (∃ keyid, Owns before keyid address) →
      ∃ keyid, Owns after keyid address := by
    rintro address ⟨keyid, owns⟩
    exact ⟨keyid, grows owns⟩
  exact ids (later one) (later two) (later three) (later four) same

theorem run_follows (agrees : Agrees reader host) (finds : host.Finds)
    {calls : List Call} {chain : Chain host reader} {final : State}
    (ended : run (emulator.succeeds host) calls chain.state = some final)
    (ids : host.DistinctIds final.accounts) :
    ∃ last : Chain host reader, last.state = final ∧
      run ChannelBook.step (emulator.onChannels host reader calls chain.state)
        (chain.book agrees) = some (last.book agrees) := by
  induction calls generalizing chain with
  | nil =>
      cases ended
      exact ⟨chain, rfl, rfl⟩
  | cons call rest induction =>
      have early : host.DistinctIds chain.state.accounts :=
        Host.DistinctIds.mono ids (owns_of_run ended)
      obtain ⟨after, taken, tail⟩ := Option.bind_eq_some_iff.mp ended
      obtain ⟨next, rfl, follows⟩ := succeeds_follows agrees finds early taken
      obtain ⟨last, isFinal, onwards⟩ := induction tail
      refine ⟨last, isFinal, ?_⟩
      rw [FullStateEmulator.onChannels, taken, Option.map_some,
        Option.getD_some]
      generalize emulator.onChannels? host reader chain.state call = action?
        at follows
      cases action? with
      | none =>
          rw [Chain.Follows] at follows
          rw [Option.toList_none, List.nil_append, ← follows]
          exact onwards
      | some action =>
          rw [Chain.Follows] at follows
          rw [Option.toList_some, List.singleton_append, run, follows]
          exact onwards

end Runs

end HoprUtilities.Blokli
