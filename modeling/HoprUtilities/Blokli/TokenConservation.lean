import HoprUtilities.Blokli.EmulatorSteps
import HoprUtilities.Blokli.ReferenceHost
import HoprUtilities.Lib.Transition

/-!
# Where the tokens are

The tokens of a state are those of all token balances and of all channels.  A
successful transaction moves them around, with two exceptions: a redeemed
ticket whose amount has nowhere to go, and a new channel that is written over
another one with the same id.  `State.lost` is what disappears then; with it
the books balance for every transaction.
-/

namespace HoprUtilities.Blokli

open HoprUtilities.Lib

section Tokens

variable (host : Host) (state : State)

def Host.worth (text : String) : Nat := (host.parse .wxHopr text).getD 0

/-- All token balances and the balances of all channels. -/
def State.tokens : Nat :=
  state.tokenBalances.totalOf (fun entry => host.worth entry.value) +
    state.channels.totalOf fun channel => host.worth channel.balance

structure State.BalancesRead : Prop where
  entries : ∀ {key entry}, state.tokenBalances.get? key = some entry →
    (host.parse .wxHopr entry.value).isSome = true
  channels : ∀ {key channel}, state.channels.get? key = some channel →
    (host.parse .wxHopr channel.balance).isSome = true

/-- What an action lets disappear. -/
def State.lost (sender : Address) : Action → Nat
  | .fundChannel dstAddr _ =>
      match host.account state sender, host.account state dstAddr with
      | some (_, source), some (_, destination) =>
          match state.channels.first?
              (Channel.connects source.keyid destination.keyid) with
          | some _ => 0
          | none =>
              ((state.channels.get?
                (hexEncode (host.generateChannelId sender dstAddr))).map
                  fun channel => host.worth channel.balance).getD 0
      | _, _ => 0
  | .redeemTicket channelId _ ticketAmount =>
      match host.channel state channelId with
      | none => 0
      | some (_, channel) =>
          match state.channels.first?
              (Channel.connects channel.destination channel.source),
              state.destinationSafe channel with
          | none, none => ticketAmount
          | _, _ => 0
  | _ => 0

end Tokens

section Parts

variable {host : Host} {state after : State}

theorem worth_of_parse {text : String} {amount : Nat}
    (reads : host.parse .wxHopr text = some amount) :
    host.worth text = amount := by
  rw [Host.worth, reads, Option.getD_some]

theorem worth_print (trips : host.RoundTrips) (amount : Nat) :
    host.worth (host.print .wxHopr amount) = amount :=
  worth_of_parse (trips .wxHopr amount)

theorem reads_print (trips : host.RoundTrips) (amount : Nat) :
    (host.parse .wxHopr (host.print .wxHopr amount)).isSome = true := by
  rw [trips]
  rfl

theorem tokens_congr (entries : after.tokenBalances = state.tokenBalances)
    (channels : after.channels = state.channels) :
    after.tokens host = state.tokens host := by
  rw [State.tokens, State.tokens, entries, channels]

theorem balancesRead_congr (entries : after.tokenBalances =
    state.tokenBalances) (channels : after.channels = state.channels)
    (read : state.BalancesRead host) : after.BalancesRead host := by
  constructor
  · rw [entries]
    exact read.entries
  · rw [channels]
    exact read.channels

theorem State.BalancesRead.write (read : state.BalancesRead host) {key : String}
    {entry : TokenValue} (readable : (host.parse .wxHopr entry.value).isSome) :
    (state.write .tokenBalances key entry).BalancesRead host := by
  constructor
  · intro place found here
    change (state.tokenBalances.put key entry).get? place = some found at here
    rw [IndexMap.get?_put] at here
    split at here
    · cases here
      exact readable
    · exact read.entries here
  · exact read.channels

theorem State.BalancesRead.setChannel (read : state.BalancesRead host)
    {key : String} {channel : Channel}
    (readable : (host.parse .wxHopr channel.balance).isSome) :
    (state.setChannel key channel).BalancesRead host := by
  constructor
  · exact read.entries
  · intro place found here
    change (state.channels.put key channel).get? place = some found at here
    rw [IndexMap.get?_put] at here
    split at here
    · cases here
      exact readable
    · exact read.channels here

theorem tokens_write (host : Host) (state : State) (key : String)
    (entry : TokenValue) :
    (state.write .tokenBalances key entry).tokens host +
        ((state.tokenBalances.get? key).map
          fun old => host.worth old.value).getD 0 =
      state.tokens host + host.worth entry.value := by
  have moved := IndexMap.totalOf_put state.tokenBalances key entry
    fun entry => host.worth entry.value
  rw [State.tokens, State.tokens]
  change (state.tokenBalances.put key entry).totalOf _ +
    state.channels.totalOf _ + _ = _
  omega

theorem tokens_setChannel (host : Host) (state : State) (key : String)
    (channel : Channel) :
    (state.setChannel key channel).tokens host +
        ((state.channels.get? key).map
          fun old => host.worth old.balance).getD 0 =
      state.tokens host + host.worth channel.balance := by
  have moved := IndexMap.totalOf_put state.channels key channel
    fun channel => host.worth channel.balance
  rw [State.tokens, State.tokens]
  change state.tokenBalances.totalOf _ +
    (state.channels.put key channel).totalOf _ + _ = _
  omega

theorem tokens_write_of_get? {key : String} {old new : TokenValue}
    (here : state.tokenBalances.get? key = some old) :
    (state.write .tokenBalances key new).tokens host + host.worth old.value =
      state.tokens host + host.worth new.value := by
  simpa [here] using tokens_write host state key new

theorem tokens_setChannel_of_get? {key : String} {old new : Channel}
    (here : state.channels.get? key = some old) :
    (state.setChannel key new).tokens host + host.worth old.balance =
      state.tokens host + host.worth new.balance := by
  simpa [here] using tokens_setChannel host state key new

section Moves

variable {amount balance : Nat} {key : String} (trips : host.RoundTrips)
include trips

theorem tokens_entry_debited {old new : TokenValue}
    (here : state.tokenBalances.get? key = some old)
    (reads : host.parse .wxHopr old.value = some balance)
    (enough : amount ≤ balance)
    (text : new.value = host.print .wxHopr (balance - amount)) :
    (state.write .tokenBalances key new).tokens host + amount =
      state.tokens host := by
  have moved : _ = _ + host.worth new.value := tokens_write_of_get? here
  rw [worth_of_parse reads, text, worth_print trips] at moved
  omega

theorem tokens_entry_credited {old new : TokenValue}
    (here : state.tokenBalances.get? key = some old)
    (reads : host.parse .wxHopr old.value = some balance)
    (text : new.value = host.print .wxHopr (balance + amount)) :
    (state.write .tokenBalances key new).tokens host =
      state.tokens host + amount := by
  have moved : _ = _ + host.worth new.value := tokens_write_of_get? here
  rw [worth_of_parse reads, text, worth_print trips] at moved
  omega

theorem tokens_channel_debited {old new : Channel}
    (here : state.channels.get? key = some old)
    (reads : host.parse .wxHopr old.balance = some balance)
    (enough : amount ≤ balance)
    (text : new.balance = host.print .wxHopr (balance - amount)) :
    (state.setChannel key new).tokens host + amount =
      state.tokens host := by
  have moved : _ = _ + host.worth new.balance := tokens_setChannel_of_get? here
  rw [worth_of_parse reads, text, worth_print trips] at moved
  omega

theorem tokens_channel_credited {old new : Channel}
    (here : state.channels.get? key = some old)
    (reads : host.parse .wxHopr old.balance = some balance)
    (text : new.balance = host.print .wxHopr (balance + amount)) :
    (state.setChannel key new).tokens host = state.tokens host + amount := by
  have moved : _ = _ + host.worth new.balance := tokens_setChannel_of_get? here
  rw [worth_of_parse reads, text, worth_print trips] at moved
  omega

end Moves

theorem Debits.tokens (trips : host.RoundTrips) {key : Option String}
    {amount : Nat} (read : state.BalancesRead host)
    (debits : Debits host .tokenBalances key amount state after) :
    after.tokens host + amount = state.tokens host ∧
      after.BalancesRead host := by
  obtain ⟨_, here, reads, enough⟩ := debits
  constructor
  · exact tokens_entry_debited trips here reads enough rfl
  · exact read.write (reads_print trips _)

theorem Deposits.tokens (trips : host.RoundTrips) {key typename : String}
    {amount : Nat} (read : state.BalancesRead host)
    (deposits : Deposits host .tokenBalances key amount typename state
      after) :
    after.tokens host = state.tokens host + amount ∧
      after.BalancesRead host := by
  cases deposits with
  | existing here reads =>
      constructor
      · exact tokens_entry_credited trips here reads rfl
      · exact read.write (reads_print trips _)
  | vacant missing =>
      constructor
      · change state.tokenBalances.get? key = none at missing
        have moved := tokens_write host state key
          { typename := typename, value := host.print .wxHopr amount }
        rw [missing, worth_print trips] at moved
        exact moved
      · exact read.write (reads_print trips _)

theorem Debits.tokens_of_ne {ledger : Ledger} {key : Option String}
    {amount : Nat} (apart : .tokenBalances ≠ ledger)
    (read : state.BalancesRead host)
    (debits : Debits host ledger key amount state after) :
    after.tokens host = state.tokens host ∧ after.BalancesRead host := by
  have entries : after.tokenBalances = state.tokenBalances := by
    cases debits
    exact ledger_write_of_ne _ _ _ apart
  exact ⟨tokens_congr entries debits.channels,
    balancesRead_congr entries debits.channels read⟩

theorem Deposits.tokens_of_ne {ledger : Ledger} {key typename : String}
    {amount : Nat} (apart : .tokenBalances ≠ ledger)
    (read : state.BalancesRead host)
    (deposits : Deposits host ledger key amount typename state after) :
    after.tokens host = state.tokens host ∧ after.BalancesRead host := by
  have entries : after.tokenBalances = state.tokenBalances := by
    cases deposits <;> exact ledger_write_of_ne _ _ _ apart
  have channels : after.channels = state.channels := by
    cases deposits <;> exact channels_write ..
  exact ⟨tokens_congr entries channels,
    balancesRead_congr entries channels read⟩

theorem Staked.tokens (trips : host.RoundTrips) {sender dstAddr : Address}
    {stake : Nat} {source destination : Account}
    (read : state.BalancesRead host)
    (staked : Staked host sender dstAddr stake state source destination
      after) :
    after.tokens host + stake = state.tokens host ∧
      after.BalancesRead host ∧ after.channels = state.channels := by
  obtain ⟨_, _, _, debited, debits, allows⟩ := staked
  obtain ⟨paid, readDebited⟩ := debits.tokens trips read
  obtain ⟨same, readAfter⟩ := allows.tokens_of_ne (by decide) readDebited
  exact ⟨by omega, readAfter, allows.channels.trans debits.channels⟩

theorem Redeems.tokens (trips : host.RoundTrips) {channelId : ChannelId}
    {ticketIndex : UInt64} {amount : Nat} {key : String}
    {channel paid : Channel} (read : state.BalancesRead host)
    (redeems : Redeems host state channelId ticketIndex amount key channel
      paid) :
    (state.setChannel key paid).tokens host + amount = state.tokens host ∧
      (state.setChannel key paid).BalancesRead host := by
  have here := redeems.get?
  obtain ⟨_, _, _, _, reads, enough, _⟩ := redeems
  constructor
  · exact tokens_channel_debited trips here reads enough rfl
  · exact read.setChannel (reads_print trips _)

end Parts

section Books

variable {host : Host} {addresses : ContractAddresses} {now : Nat}
  {sender : Address} {state done : State} {action : Action}

/-- The state after an action holds what the state before it held, less what
is lost. -/
def Balances (host : Host) (sender : Address) (state : State)
    (action : Action) (done : State) : Prop :=
  done.tokens host + state.lost host sender action = state.tokens host ∧
    done.BalancesRead host

theorem balances_of_same (read : state.BalancesRead host)
    (entries : done.tokenBalances = state.tokenBalances)
    (channels : done.channels = state.channels)
    (nothing : state.lost host sender action = 0) :
    Balances host sender state action done := by
  constructor
  · rw [nothing, tokens_congr entries channels, Nat.add_zero]
  · exact balancesRead_congr entries channels read

theorem balances_of_setChannel (read : state.BalancesRead host)
    {key : String} {old new : Channel}
    (here : state.channels.get? key = some old)
    (kept : new.balance = old.balance)
    (nothing : state.lost host sender action = 0) :
    Balances host sender state action (state.setChannel key new) := by
  constructor
  · have moved : _ = _ + host.worth new.balance :=
      tokens_setChannel_of_get? here
    rw [kept] at moved
    omega
  · exact read.setChannel (kept ▸ read.channels here)

theorem Staked.lost {dstAddr : Address} {stake : Nat}
    {source destination : Account} {allowed : State}
    (staked : Staked host sender dstAddr stake state source destination
      allowed) :
    state.lost host sender (.fundChannel dstAddr stake) =
      match state.channels.first?
          (Channel.connects source.keyid destination.keyid) with
      | some _ => 0
      | none =>
          ((state.channels.get?
            (hexEncode (host.generateChannelId sender dstAddr))).map
              fun channel => host.worth channel.balance).getD 0 := by
  obtain ⟨⟨_, sends⟩, ⟨_, receives⟩, _⟩ := staked
  rw [State.lost, sends, receives]

theorem Redeems.lost {channelId : ChannelId} {ticketIndex : UInt64}
    {amount : Nat} {key : String} {channel paid : Channel}
    (redeems : Redeems host state channelId ticketIndex amount key channel
      paid) :
    state.lost host sender (.redeemTicket channelId ticketIndex amount) =
      match (state.setChannel key paid).channels.first?
          (Channel.connects channel.destination channel.source),
          state.destinationSafe channel with
      | none, none => amount
      | _, _ => 0 := by
  rw [redeems.first?, State.lost, redeems.found]
  dsimp only
  cases state.channels.first?
      (Channel.connects channel.destination channel.source) with
  | none => rfl
  | some entry => rfl

theorem Staked.opened (trips : host.RoundTrips) {dstAddr : Address}
    {stake : Nat} {source destination : Account} {allowed : State}
    (read : state.BalancesRead host)
    (staked : Staked host sender dstAddr stake state source destination
      allowed)
    (missing : state.channels.first?
      (Channel.connects source.keyid destination.keyid) = none) :
    Balances host sender state (.fundChannel dstAddr stake)
      (allowed.setChannel (hexEncode (host.generateChannelId sender dstAddr))
        (host.newChannel sender dstAddr source destination stake)) := by
  obtain ⟨paid, readAllowed, channels⟩ := staked.tokens trips read
  constructor
  · have moved := tokens_setChannel host allowed
      (hexEncode (host.generateChannelId sender dstAddr))
      (host.newChannel sender dstAddr source destination stake)
    rw [channels, Host.newChannel, worth_print trips] at moved
    rw [staked.lost, missing]
    exact moved.trans paid
  · exact readAllowed.setChannel (reads_print trips _)

theorem Redeems.credited (trips : host.RoundTrips) {channelId : ChannelId}
    {ticketIndex : UInt64} {amount balance : Nat} {key safeAddr : String}
    {channel paid : Channel} {entry : TokenValue}
    (read : state.BalancesRead host)
    (redeems : Redeems host state channelId ticketIndex amount key channel
      paid)
    (alone : (state.setChannel key paid).channels.first?
      (Channel.connects channel.destination channel.source) = none)
    (safe : state.destinationSafe channel = some (safeAddr, entry))
    (reads : host.parse .wxHopr entry.value = some balance) :
    Balances host sender state (.redeemTicket channelId ticketIndex amount)
      ((state.setChannel key paid).write .tokenBalances safeAddr
        { entry with value := host.print .wxHopr (balance + amount) }) := by
  obtain ⟨taken, readPaid⟩ := redeems.tokens trips read
  have here : (state.setChannel key paid).tokenBalances.get? safeAddr =
      some entry := by
    obtain ⟨account, _, found⟩ := Option.bind_eq_some_iff.mp safe
    exact (entry_eq_some.mp found).2
  constructor
  · rw [redeems.lost, alone, safe, tokens_entry_credited trips here reads rfl]
    exact taken
  · exact readPaid.write (reads_print trips _)

theorem Performed.balances (trips : host.RoundTrips)
    (read : state.BalancesRead host)
    (performed : Performed host addresses now sender state action
      (.ok () done)) : Balances host sender state action done := by
  cases performed with
  | registered | assigned | reannounced | announced | approved | untracked =>
      exact balances_of_same read rfl rfl rfl
  | withdrawn kind debit deposit =>
      have nothing : state.lost host sender action = 0 := by
        cases action with
        | withdrawNative | withdrawToken => rfl
        | _ => cases kind
      cases action with
      | withdrawNative =>
          cases kind
          obtain ⟨sameDebit, readDebited⟩ :=
            debit.tokens_of_ne (by decide) read
          obtain ⟨sameDeposit, readDone⟩ :=
            deposit.tokens_of_ne (by decide) readDebited
          exact ⟨by rw [nothing]; omega, readDone⟩
      | withdrawToken =>
          cases kind
          obtain ⟨paid, readDebited⟩ := debit.tokens trips read
          obtain ⟨received, readDone⟩ := deposit.tokens trips readDebited
          exact ⟨by rw [nothing]; omega, readDone⟩
      | _ => cases kind
  | funded staked found reopens reads =>
      obtain ⟨paid, readAllowed, channels⟩ := staked.tokens trips read
      have here := IndexMap.get?_of_first? found
      rw [← channels] at here
      constructor
      · rw [staked.lost, found, tokens_channel_credited trips here reads rfl]
        exact paid
      · exact readAllowed.setChannel (reads_print trips _)
  | opened staked missing =>
      exact staked.opened trips read missing
  | initialized found =>
      exact balances_of_setChannel read (get?_of_channel found) rfl rfl
  | finalized found =>
      exact balances_of_setChannel read (get?_of_channel found) rfl rfl
  | incoming found =>
      exact balances_of_setChannel read (get?_of_channel found) rfl rfl
  | rebalanced redeems found reads =>
      obtain ⟨paid, readPaid⟩ := redeems.tokens trips read
      have here := IndexMap.get?_of_first? found
      constructor
      · rw [redeems.lost, found, tokens_channel_credited trips here reads rfl]
        exact paid
      · exact readPaid.setChannel (reads_print trips _)
  | credited redeems alone safe reads counts =>
      obtain ⟨stats, rfl⟩ := eq_setStats_of_countRedeemed counts
      obtain ⟨moved, readDone⟩ := redeems.credited trips read alone safe reads
      exact ⟨moved, readDone.entries, readDone.channels⟩
  | nowhere redeems alone homeless =>
      obtain ⟨paid, readPaid⟩ := redeems.tokens trips read
      constructor
      · rw [redeems.lost, alone, homeless]
        exact paid
      · exact readPaid

theorem updateState_tokens (trips : host.RoundTrips)
    {emulator : FullStateEmulator} {signedTx : List UInt8}
    {sent : Option Action} {after : State} (read : state.BalancesRead host)
    (ended : updateState host emulator now signedTx state = .ok sent after) :
    ∃ addresses action sender,
      Parses host emulator state signedTx addresses action sender ∧
        Balances host sender state action after := by
  obtain ⟨addresses, action, sender, done, parses, performed, pays⟩ :=
    updateState_ok ended
  obtain ⟨moved, readDone⟩ := performed.balances trips read
  have counted : (done.countTx (hexEncode sender)).BalancesRead host :=
    ⟨readDone.entries, readDone.channels⟩
  obtain ⟨same, readAfter⟩ := pays.tokens_of_ne (by decide) counted
  refine ⟨addresses, action, sender, parses, ?_, readAfter⟩
  rw [same]
  exact moved

end Books

section Runs

variable (host : Host) (emulator : FullStateEmulator)

/-- No token disappears in the call. -/
def FullStateEmulator.losesNothing (state : State) (call : Call) : Bool :=
  match host.contractAddresses state.chainInfo.contractAddresses with
  | none => true
  | some addresses =>
      match host.parseTx call.signedTx emulator.moduleAddress addresses with
      | .ok (action, sender) => state.lost host sender action = 0
      | .error _ => true

variable {host emulator}

theorem losesNothing_of_parses {state : State} {call : Call}
    {addresses : ContractAddresses} {action : Action} {sender : Address}
    (parses : Parses host emulator state call.signedTx addresses action
      sender) :
    emulator.losesNothing host state call =
      decide (state.lost host sender action = 0) := by
  rw [FullStateEmulator.losesNothing, parses.1]
  dsimp only
  rw [parses.2]

/-- One successful call keeps the tokens exactly if it loses nothing. -/
theorem succeeds_tokens_iff (trips : host.RoundTrips) {state after : State}
    {call : Call} (read : state.BalancesRead host)
    (taken : emulator.succeeds host state call = some after) :
    after.BalancesRead host ∧
      (after.tokens host = state.tokens host ↔
        emulator.losesNothing host state call = true) := by
  obtain ⟨sent, ended⟩ := updateState_of_succeeds taken
  obtain ⟨addresses, action, sender, parses, moved, readAfter⟩ :=
    updateState_tokens trips read ended
  refine ⟨readAfter, ?_⟩
  rw [losesNothing_of_parses parses, decide_eq_true_eq]
  omega

/-- A successful call keeps the tokens exactly if it loses nothing, and so the
tokens are constant over every run of successful calls that lose nothing. -/
theorem tokens_conserved_iff_nothing_lost (host : Host)
    (trips : host.RoundTrips) (emulator : FullStateEmulator) :
    (∀ state call after, state.BalancesRead host →
      emulator.succeeds host state call = some after →
      (after.tokens host = state.tokens host ↔
        emulator.losesNothing host state call = true)) ∧
    ∀ calls start final, start.BalancesRead host →
      run (restrict (emulator.losesNothing host) (emulator.succeeds host))
        calls start = some final →
      final.tokens host = start.tokens host := by
  constructor
  · intro state call after read taken
    exact (succeeds_tokens_iff trips read taken).2
  · intro calls start final read ended
    let constant : State → Prop := fun state =>
      state.BalancesRead host ∧ state.tokens host = start.tokens host
    have closed : ∀ state call next,
        restrict (emulator.losesNothing host) (emulator.succeeds host) state
          call = some next → constant state → constant next := by
      rintro state call next taken ⟨read, same⟩
      obtain ⟨keeps, taken⟩ := step_of_restrict taken
      obtain ⟨readNext, conserved⟩ := succeeds_tokens_iff trips read taken
      exact ⟨readNext, (conserved.mpr keeps).trans same⟩
    have holds : constant final := run_invariant closed ended ⟨read, rfl⟩
    exact holds.2

theorem oneChannel_balancesRead
    (parsed : List UInt8 → Option (Action × Address)) :
    oneChannel.BalancesRead (.reference parsed) := by
  have entries : oneChannel.tokenBalances.values.all (fun entry =>
      (parseAmount .wxHopr entry.value).isSome) = true := by
    decide +kernel
  have channels : oneChannel.channels.values.all (fun channel =>
      (parseAmount .wxHopr channel.balance).isSome) = true := by
    decide +kernel
  rw [List.all_eq_true] at entries channels
  exact ⟨fun here => entries _ (IndexMap.mem_values_of_get? here),
    fun here => channels _ (IndexMap.mem_values_of_get? here)⟩

/-- The Safe puts two of its five tokens into the channel. -/
theorem funding_conserves_tokens :
    (∀ after, plain.succeeds (.standing (.fundChannel bob (2 * baseUnit))
        alice) oneChannel { now := 0, signedTx := [] } = some after →
      after.tokens (.standing (.fundChannel bob (2 * baseUnit)) alice) =
        oneChannel.tokens
          (.standing (.fundChannel bob (2 * baseUnit)) alice)) ∧
      (plain.succeeds (.standing (.fundChannel bob (2 * baseUnit)) alice)
        oneChannel { now := 0, signedTx := [] }).isSome = true := by
  have trips := reference_roundTrips
    fun _ => some (.fundChannel bob (2 * baseUnit), alice)
  constructor
  · intro after taken
    exact ((tokens_conserved_iff_nothing_lost _ trips plain).1 oneChannel _
      after (oneChannel_balancesRead _) taken).mpr (by decide +kernel)
  · decide +kernel

/-- A ticket of one token over the channel to a node without a Safe. -/
def unpayable : Host :=
  .standing (.redeemTicket (joinAddresses alice bob) 0 baseUnit) bob

def ticket : Call := { now := 0, signedTx := [] }

theorem redeemed_ticket_disappears :
    ¬∀ state call after, state.BalancesRead unpayable →
      plain.succeeds unpayable state call = some after →
      after.tokens unpayable = state.tokens unpayable := by
  intro conserved
  have burned : (plain.succeeds unpayable oneChannel ticket).any
      (fun after => after.tokens unpayable ≠
        oneChannel.tokens unpayable) = true := by
    decide +kernel
  obtain ⟨after, taken, differs⟩ := (Option.any_eq_true _ _).mp burned
  have read : oneChannel.BalancesRead unpayable := by
    rw [unpayable, Host.standing]
    exact oneChannel_balancesRead _
  have same := conserved oneChannel ticket after read taken
  rw [same] at differs
  simp at differs

end Runs

end HoprUtilities.Blokli
