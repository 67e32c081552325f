import HoprUtilities.Blokli.EmulatorSteps
import HoprUtilities.Blokli.ReferenceHost

/-!
# Whether a failed transaction leaves a trace

`update_state` writes in place and never takes a write back, so an error after
the first write is seen in the state.  `Unbroken` says, of the state before
the call, when this does not happen: a check before the first write fails, or
no later one does, or what was written so far is what was there.
-/

namespace HoprUtilities.Blokli

open HoprUtilities.Lib

/-- How an action goes on that has passed its first checks. -/
inductive Fate where
  | refused
  | panics
  | completes
  deriving DecidableEq

section Condition

variable (host : Host) (now : Nat) (sender : Address) (state : State)

def Fate.ofReads (reads : Bool) : Fate :=
  if reads then .completes else .refused

/-- The fate of the stake: the allowance and the channel are read after the
Safe has paid. -/
def State.stakeFate (dstAddr : Address) (stake : Nat) : Fate :=
  if state.holds host .safeAllowances
      (host.getAccountSafe state.accounts sender) stake then
    match host.account state sender, host.account state dstAddr with
    | some (_, source), some (_, destination) =>
        match state.channels.first?
            (Channel.connects source.keyid destination.keyid) with
        | some (_, channel) =>
            if channel.status = .closed ∧ i32Succ channel.epoch = none then
              .panics
            else .ofReads (host.parse .wxHopr channel.balance).isSome
        | none => .completes
    | _, _ => .completes
  else .refused

/-- The fate of a ticket: what it is paid into is read after the ticket is
taken. -/
def State.ticketFate (channelId : ChannelId) : Fate :=
  match host.channel state channelId with
  | none => .completes
  | some (_, channel) =>
      match state.channels.first?
          (Channel.connects channel.destination channel.source) with
      | some (_, opposite) =>
          .ofReads (host.parse .wxHopr opposite.balance).isSome
      | none =>
          match state.destinationSafe channel with
          | none => .completes
          | some (safeAddr, entry) =>
              if (host.parse .wxHopr entry.value).isSome then
                match state.statsFate host safeAddr with
                | .unread => .refused
                | .overflows => .panics
                | .counts => .completes
              else .refused

/-- The checks that an action makes after its first write. -/
def State.fate : Action → Fate
  | .announce _ multiaddress =>
      .ofReads ((host.account state sender).isNone ||
        decide (multiaddress ≠ some ""))
  | .withdrawNative destination _ _ =>
      .ofReads (state.accepts host .nativeBalances (hexEncode destination))
  | .withdrawToken destination _ _ =>
      .ofReads (state.accepts host .tokenBalances (hexEncode destination))
  | .fundChannel dstAddr stake => state.stakeFate host sender dstAddr stake
  | .initializeChannelClosure _ =>
      if (state.closingTime host now).isSome then .completes else .panics
  | .redeemTicket channelId _ _ => state.ticketFate host channelId
  | _ => .completes

/-- The debit writes the text that is there. -/
def State.keepsText (ledger : Ledger) (key : Option String) (amount : Nat) :
    Bool :=
  (state.entry ledger key).any fun place =>
    (host.parse ledger.currency place.2.value).any fun balance =>
      host.print ledger.currency (balance - amount) = place.2.value

/-- What an action writes before a later check is what is there. -/
def State.idle : Action → Bool
  | .announce packetKey _ =>
      (host.account state sender).any fun place =>
        place.2.packetKey = hexEncode packetKey
  | .withdrawNative _ amount payer =>
      state.keepsText host .nativeBalances (host.payerKey state sender payer)
        amount
  | .withdrawToken _ amount payer =>
      state.keepsText host .tokenBalances (host.payerKey state sender payer)
        amount
  | _ => false

/-- What the sender can pay the fee from.  Only a withdrawal of native tokens
changes it. -/
def State.feeFunds : Action → Option Nat
  | .withdrawNative destination amount payer =>
      let held := state.amount host .nativeBalances (some (hexEncode sender))
      if hexEncode destination = hexEncode sender then
        if host.payerKey state sender payer = some (hexEncode sender) then held
        else some (held.getD 0 + amount)
      else if host.payerKey state sender payer = some (hexEncode sender) then
        held.map (· - amount)
      else held
  | _ => state.amount host .nativeBalances (some (hexEncode sender))

/-- The condition on the state before the call. -/
def State.Unbroken (interceptor : Option Interceptor)
    (addresses : ContractAddresses) (action : Action) : Prop :=
  state.starts host addresses sender action = false ∨
    match state.fate host now sender action with
    | .refused => state.idle host sender action = true
    | .panics => True
    | .completes =>
        (state.feeFunds host sender action).any (emulatedTxPrice ≤ ·) = true ∧
          interceptor ≠ some .dropped

end Condition

section Parts

variable {host : Host} {sender : Address} {state after : State}

theorem amount_congr {ledger : Ledger} (same : after.ledger ledger =
    state.ledger ledger) (key : Option String) :
    after.amount host ledger key = state.amount host ledger key := by
  rw [State.amount, State.amount, State.entry, State.entry, same]

theorem amount_write (state : State) (ledger : Ledger) (key other : String)
    (entry : TokenValue) :
    (state.write ledger key entry).amount host ledger (some other) =
      if other = key then host.parse ledger.currency entry.value
      else state.amount host ledger (some other) := by
  simp only [State.amount, State.entry, ledger_write, IndexMap.get?_put,
    Option.bind_eq_bind, Option.bind_some, Option.pure_def]
  split <;> rfl

theorem amount_of_get? {ledger : Ledger} {key : String} {entry : TokenValue}
    (here : (state.ledger ledger).get? key = some entry) :
    state.amount host ledger (some key) =
      host.parse ledger.currency entry.value := by
  simp [State.amount, State.entry, here]

theorem Debits.holds {ledger : Ledger} {key : Option String} {amount : Nat}
    (debits : Debits host ledger key amount state after) :
    state.holds host ledger key amount = true := by
  obtain ⟨placed, here, reads, enough⟩ := debits
  rw [State.holds, placed, amount_of_get? here, reads]
  simpa using enough

theorem Debits.txCounts {ledger : Ledger} {key : Option String} {amount : Nat}
    (debits : Debits host ledger key amount state after) :
    after.txCounts = state.txCounts := by
  cases debits
  rw [txCounts_write]

theorem Debits.ledger_of_ne {ledger other : Ledger} {key : Option String}
    {amount : Nat} (debits : Debits host ledger key amount state after)
    (apart : other ≠ ledger) : after.ledger other = state.ledger other := by
  cases debits
  exact ledger_write_of_ne _ _ _ apart

theorem Deposits.txCounts {ledger : Ledger} {key typename : String}
    {amount : Nat}
    (deposits : Deposits host ledger key amount typename state after) :
    after.txCounts = state.txCounts := by
  cases deposits <;> rw [txCounts_write]

theorem Deposits.ledger_of_ne {ledger other : Ledger} {key typename : String}
    {amount : Nat}
    (deposits : Deposits host ledger key amount typename state after)
    (apart : other ≠ ledger) : after.ledger other = state.ledger other := by
  cases deposits <;> exact ledger_write_of_ne _ _ _ apart

theorem Debits.amount (trips : host.RoundTrips) {ledger : Ledger}
    {key : Option String} {amount : Nat} {other : String}
    (debits : Debits host ledger key amount state after) :
    after.amount host ledger (some other) =
      if key = some other then
        (state.amount host ledger (some other)).map (· - amount)
      else state.amount host ledger (some other) := by
  obtain @⟨place, entry, balance, placed, here, reads, _⟩ := debits
  rw [amount_write, placed, trips]
  by_cases same : other = place
  · rw [if_pos same, if_pos (congrArg some same.symm), same,
      amount_of_get? here, reads]
    rfl
  · rw [if_neg same, if_neg (fun equal => same (Option.some.inj equal).symm)]

theorem Deposits.amount (trips : host.RoundTrips) {ledger : Ledger}
    {key typename : String} {amount : Nat} {other : String}
    (deposits : Deposits host ledger key amount typename state after) :
    after.amount host ledger (some other) =
      if other = key then
        some ((state.amount host ledger (some key)).getD 0 + amount)
      else state.amount host ledger (some other) := by
  cases deposits with
  | existing here reads =>
      rw [amount_write, trips, amount_of_get? here, reads]
      rfl
  | vacant missing =>
      rw [amount_write, trips]
      simp [State.amount, State.entry, missing]

theorem Debits.ledger_ne (trips : host.RoundTrips) {ledger : Ledger}
    {key : Option String} {amount : Nat} (positive : 0 < amount)
    (debits : Debits host ledger key amount state after) :
    after.ledger ledger ≠ state.ledger ledger := by
  obtain ⟨_, here, reads, enough⟩ := debits
  intro same
  rw [ledger_write] at same
  have written := IndexMap.get?_of_put_eq same
  rw [here, Option.some.injEq] at written
  have text := congrArg TokenValue.value written
  dsimp only at text
  rw [text, trips, Option.some.injEq] at reads
  omega

theorem Debits.eq_iff {ledger : Ledger} {key : Option String} {amount : Nat}
    (debits : Debits host ledger key amount state after) :
    after = state ↔ state.keepsText host ledger key amount = true := by
  obtain @⟨place, entry, balance, placed, here, reads, _⟩ := debits
  have found := entry_eq_some.mpr ⟨placed, here⟩
  simp only [State.keepsText, found, Option.any_some, reads,
    decide_eq_true_eq]
  constructor
  · intro same
    have written := congrArg (State.ledger · ledger) same
    rw [ledger_write] at written
    have here' := IndexMap.get?_of_put_eq written
    rw [here, Option.some.injEq] at here'
    exact (congrArg TokenValue.value here').symm
  · intro text
    rw [text]
    exact write_of_get? here

theorem Debits.accepts (trips : host.RoundTrips) {ledger : Ledger}
    {key : Option String} {amount : Nat} {other : String}
    (debits : Debits host ledger key amount state after) :
    after.accepts host ledger other = state.accepts host ledger other := by
  obtain @⟨place, entry, balance, _, here, reads, _⟩ := debits
  rw [State.accepts, State.accepts, ledger_write, IndexMap.get?_put]
  split
  · next same =>
      rw [same, here, Option.all_some, Option.all_some, trips, reads]
      rfl
  · rfl

theorem Deposits.accepts {ledger : Ledger} {key typename : String}
    {amount : Nat}
    (deposits : Deposits host ledger key amount typename state after) :
    state.accepts host ledger key = true := by
  cases deposits with
  | existing here reads => simp [State.accepts, here, reads]
  | vacant missing => simp [State.accepts, missing]

theorem Redeems.channels_ne {channelId : ChannelId} {ticketIndex : UInt64}
    {amount : Nat} {key : String} {channel paid : Channel}
    (redeems : Redeems host state channelId ticketIndex amount key channel
      paid) : (state.setChannel key paid).channels ≠ state.channels := by
  intro same
  have written := IndexMap.get?_of_put_eq same
  rw [redeems.get?, Option.some.injEq] at written
  obtain ⟨_, _, indexed, ahead, _, _, succ⟩ := redeems
  have text := congrArg Channel.ticketIndex written
  dsimp only at text
  rw [text, parseU64_printU64, Option.some.injEq] at indexed
  rw [← indexed] at ahead
  exact UInt64.lt_irrefl _ (UInt64.lt_of_lt_of_le (lt_of_u64Succ succ) ahead)

/-- The opposite channel can be read after the ticket is taken if it could be
read before. -/
theorem Redeems.opposite (trips : host.RoundTrips) {channelId : ChannelId}
    {ticketIndex : UInt64} {amount : Nat} {key otherKey : String}
    {channel paid opposite : Channel} {source destination : Int32}
    (redeems : Redeems host state channelId ticketIndex amount key channel
      paid)
    (found : (state.setChannel key paid).channels.first?
      (Channel.connects source destination) = some (otherKey, opposite)) :
    ∃ old, state.channels.first? (Channel.connects source destination) =
        some (otherKey, old) ∧
      (host.parse .wxHopr old.balance).isSome =
        (host.parse .wxHopr opposite.balance).isSome := by
  rw [redeems.first?] at found
  obtain ⟨entry, before, replaced⟩ := Option.map_eq_some_iff.mp found
  by_cases own : entry.1 = key
  · rw [if_pos own] at replaced
    cases replaced
    have here := IndexMap.get?_of_first? before
    rw [own, redeems.get?, Option.some.injEq] at here
    refine ⟨entry.2, own ▸ before, ?_⟩
    obtain ⟨_, _, _, _, reads, _, _⟩ := redeems
    rw [← here, reads, trips]
    rfl
  · rw [if_neg own] at replaced
    exact ⟨opposite, replaced ▸ before, rfl⟩

theorem Redeems.alone {channelId : ChannelId} {ticketIndex : UInt64}
    {amount : Nat} {key : String} {channel paid : Channel}
    {source destination : Int32}
    (redeems : Redeems host state channelId ticketIndex amount key channel
      paid)
    (missing : (state.setChannel key paid).channels.first?
      (Channel.connects source destination) = none) :
    state.channels.first? (Channel.connects source destination) = none := by
  rw [redeems.first?] at missing
  exact Option.map_eq_none_iff.mp missing

theorem Staked.fate {dstAddr : Address} {stake : Nat}
    {source destination : Account}
    (staked : Staked host sender dstAddr stake state source destination
      after) :
    state.stakeFate host sender dstAddr stake =
      match state.channels.first?
          (Channel.connects source.keyid destination.keyid) with
      | some (_, channel) =>
          if channel.status = .closed ∧ i32Succ channel.epoch = none then
            .panics
          else .ofReads (host.parse .wxHopr channel.balance).isSome
      | none => .completes := by
  obtain ⟨⟨_, sends⟩, ⟨_, receives⟩, _, debited, debits, allows⟩ := staked
  have holds := allows.holds
  rw [debits.holds_of_ne (by decide)] at holds
  rw [State.stakeFate, if_pos holds, sends, receives]

theorem Staked.ledger_ne (trips : host.RoundTrips) {dstAddr : Address}
    {stake : Nat} {source destination : Account}
    (staked : Staked host sender dstAddr stake state source destination
      after) : after.ledger .tokenBalances ≠ state.ledger .tokenBalances := by
  obtain ⟨_, _, positive, debited, debits, allows⟩ := staked
  rw [allows.ledger_of_ne (by decide)]
  exact debits.ledger_ne trips positive

theorem Staked.native {dstAddr : Address} {stake : Nat}
    {source destination : Account}
    (staked : Staked host sender dstAddr stake state source destination
      after) :
    after.ledger .nativeBalances = state.ledger .nativeBalances := by
  obtain ⟨_, _, _, debited, debits, allows⟩ := staked
  rw [allows.ledger_of_ne (by decide), debits.ledger_of_ne (by decide)]

theorem Staked.txCounts {dstAddr : Address} {stake : Nat}
    {source destination : Account}
    (staked : Staked host sender dstAddr stake state source destination
      after) : after.txCounts = state.txCounts := by
  obtain ⟨_, _, _, debited, debits, allows⟩ := staked
  rw [allows.txCounts, debits.txCounts]

theorem Reopens.not_panics {channel funded : Channel}
    (reopens : Reopens channel funded) :
    ¬(channel.status = .closed ∧ i32Succ channel.epoch = none) := by
  rintro ⟨closed, overflow⟩
  cases reopens with
  | live live => exact live closed
  | again _ next => simp [overflow] at next

end Parts

section Fates

variable {host : Host} {addresses : ContractAddresses} {now : Nat}
  {sender : Address} {state : State} {action : Action}

/-- The end of an action as the state before it tells. -/
def Foretold (host : Host) (now : Nat) (sender : Address) (state : State)
    (action : Action) : EStateM.Result Failure State Unit → Prop
  | .error (.err _) after =>
      state.fate host now sender action = .refused ∧
        (after = state ↔ state.idle host sender action = true)
  | .error .panicked _ => state.fate host now sender action = .panics
  | .ok _ done =>
      state.fate host now sender action = .completes ∧
        done.txCounts = state.txCounts ∧
        done.amount host .nativeBalances (some (hexEncode sender)) =
          state.feeFunds host sender action

theorem foretold_refused {error : ClientError} {after : State}
    (refused : state.fate host now sender action = .refused)
    (busy : state.idle host sender action = false) (apart : after ≠ state) :
    Foretold host now sender state action (.error (.err error) after) := by
  refine ⟨refused, ?_⟩
  rw [busy]
  simpa using apart

/-- An action other than a native withdrawal leaves the native balances. -/
theorem foretold_completes {done : State}
    (completes : state.fate host now sender action = .completes)
    (counts : done.txCounts = state.txCounts)
    (native : done.ledger .nativeBalances = state.ledger .nativeBalances)
    (other : ∀ destination amount payer,
      action ≠ .withdrawNative destination amount payer) :
    Foretold host now sender state action (.ok () done) := by
  refine ⟨completes, counts, ?_⟩
  rw [amount_congr native]
  cases action with
  | withdrawNative destination amount payer =>
      exact (other destination amount payer rfl).elim
  | _ => rfl

theorem feeFunds_withdrawNative (trips : host.RoundTrips)
    {destination : Address} {amount : Nat} {payer : Payer} {typename : String}
    {debited after : State}
    (debit : Debits host .nativeBalances (host.payerKey state sender payer)
      amount state debited)
    (deposit : Deposits host .nativeBalances (hexEncode destination) amount
      typename debited after) :
    after.amount host .nativeBalances (some (hexEncode sender)) =
      state.feeFunds host sender (.withdrawNative destination amount payer) := by
  rw [deposit.amount trips, State.feeFunds]
  by_cases home : hexEncode destination = hexEncode sender
  · rw [if_pos home.symm, if_pos home, home, debit.amount trips]
    by_cases own : host.payerKey state sender payer = some (hexEncode sender)
    · -- the amount comes back
      rw [if_pos own, if_pos own]
      have holds := debit.holds
      rw [own] at holds
      obtain ⟨balance, held, enough⟩ := (Option.any_eq_true _ _).mp holds
      rw [held, Option.map_some, Option.getD_some,
        Nat.sub_add_cancel (of_decide_eq_true enough)]
    · rw [if_neg own, if_neg own]
  · rw [if_neg (Ne.symm home), if_neg home, debit.amount trips]

theorem fate_of_withdrawal (host : Host) (now : Nat) (sender : Address)
    (state : State)
    {ledger : Ledger} {destination : Address} {amount : Nat} {payer : Payer}
    (kind : action.withdrawal = some (ledger, destination, amount, payer)) :
    state.fate host now sender action =
        .ofReads (state.accepts host ledger (hexEncode destination)) ∧
      state.idle host sender action =
        state.keepsText host ledger (host.payerKey state sender payer)
          amount := by
  cases action with
  | withdrawNative | withdrawToken =>
      cases kind
      exact ⟨rfl, rfl⟩
  | _ => cases kind

theorem setChannel_ne_of_ledger {after : State} {ledger : Ledger}
    {key : String} {channel : Channel}
    (apart : after.ledger ledger ≠ state.ledger ledger) :
    after.setChannel key channel ≠ state := by
  intro same
  rw [← same, ledger_setChannel] at apart
  exact apart rfl

theorem setAccount_packetKey_eq_iff {key : UInt32} {account : Account}
    {text : String} (here : state.accounts.get? key = some account) :
    state.setAccount key { account with packetKey := text } = state ↔
      account.packetKey = text := by
  constructor
  · intro same
    have written := IndexMap.get?_of_put_eq (congrArg State.accounts same)
    rw [here, Option.some.injEq] at written
    exact congrArg Account.packetKey written
  · intro same
    subst same
    rw [State.setAccount, IndexMap.put_of_get? here]

theorem statsFate_credited (key safeAddr place : String) (channel : Channel)
    (entry : TokenValue) :
    ((state.setChannel key channel).write .tokenBalances place entry).statsFate
      host safeAddr = state.statsFate host safeAddr := rfl

theorem foretold_unredeemed {channelId : ChannelId} {ticketIndex : UInt64}
    {amount : Nat} {key : String} {channel paid : Channel} {after : State}
    {error : ClientError}
    (redeems : Redeems host state channelId ticketIndex amount key channel
      paid)
    (refused : state.ticketFate host channelId = .refused)
    (written : after.channels = (state.setChannel key paid).channels) :
    Foretold host now sender state (.redeemTicket channelId ticketIndex amount)
      (.error (.err error) after) := by
  refine foretold_refused refused rfl ?_
  intro same
  rw [same] at written
  exact redeems.channels_ne written.symm

theorem Redeems.fate_alone {channelId : ChannelId} {ticketIndex : UInt64}
    {amount : Nat} {key : String} {channel paid : Channel}
    (redeems : Redeems host state channelId ticketIndex amount key channel
      paid)
    (alone : (state.setChannel key paid).channels.first?
      (Channel.connects channel.destination channel.source) = none) :
    state.ticketFate host channelId =
      match state.destinationSafe channel with
      | none => .completes
      | some (safeAddr, entry) =>
          if (host.parse .wxHopr entry.value).isSome then
            match state.statsFate host safeAddr with
            | .unread => .refused
            | .overflows => .panics
            | .counts => .completes
          else .refused := by
  rw [State.ticketFate, redeems.found]
  dsimp only
  rw [redeems.alone alone]

theorem Performed.foretold (trips : host.RoundTrips)
    {result : EStateM.Result Failure State Unit}
    (performed : Performed host addresses now sender state action result) :
    Foretold host now sender state action result := by
  cases performed with
  | registered | assigned | finalized | incoming =>
      exact foretold_completes rfl rfl (by simp) (by simp)
  | initialized found fits =>
      refine foretold_completes ?_ rfl (by simp) (by simp)
      rw [State.fate, fits]
      rfl
  | timeOverflows found overflow =>
      change State.fate host now sender state _ = .panics
      rw [State.fate, overflow]
      rfl
  | approved =>
      exact foretold_completes rfl (txCounts_write ..)
        (ledger_write_of_ne _ _ _ (by decide)) (by simp)
  | untracked => exact foretold_completes rfl rfl rfl (by simp)
  | reannounced known nonempty =>
      refine foretold_completes ?_ rfl (ledger_setAccount ..) (by simp)
      simp [State.fate, nonempty, Fate.ofReads]
  | unaddressed known =>
      refine ⟨by simp [State.fate, known, Fate.ofReads], ?_⟩
      rw [setAccount_packetKey_eq_iff (account_eq_some known).2]
      simp [State.idle, known]
  | announced unknown =>
      refine foretold_completes ?_ rfl (ledger_setAccount ..) (by simp)
      simp [State.fate, unknown, Fate.ofReads]
  | withdrawn kind debit deposit =>
      have accepts := deposit.accepts
      rw [debit.accepts trips] at accepts
      have completes : state.fate host now sender action = .completes := by
        rw [(fate_of_withdrawal host now sender state kind).1, accepts]
        rfl
      have counts := deposit.txCounts.trans debit.txCounts
      cases action with
      | withdrawNative =>
          cases kind
          exact ⟨completes, counts,
            feeFunds_withdrawNative trips debit deposit⟩
      | withdrawToken =>
          cases kind
          refine foretold_completes completes counts ?_ (by simp)
          rw [deposit.ledger_of_ne (by decide), debit.ledger_of_ne (by decide)]
      | _ => cases kind
  | undeposited kind debit unread =>
      rw [debit.accepts trips] at unread
      obtain ⟨fate, idle⟩ := fate_of_withdrawal host now sender state kind
      rw [unread] at fate
      exact ⟨fate, by rw [idle]; exact debit.eq_iff⟩
  | unallowed positive debit lacking =>
      refine foretold_refused ?_ rfl ?_
      · simp [State.fate, State.stakeFate, lacking]
      · intro same
        exact debit.ledger_ne trips positive (congrArg (State.ledger · _) same)
  | epochOverflows staked found closed overflow =>
      change state.stakeFate host sender _ _ = .panics
      rw [staked.fate, found]
      exact if_pos ⟨closed, overflow⟩
  | unreadChannel staked found reopens unread =>
      refine foretold_refused ?_ rfl
        (setChannel_ne_of_ledger (staked.ledger_ne trips))
      change state.stakeFate host sender _ _ = .refused
      rw [staked.fate, found]
      dsimp only
      rw [if_neg reopens.not_panics, unread]
      rfl
  | funded staked found reopens reads =>
      refine foretold_completes ?_ staked.txCounts ?_ (by simp)
      · change state.stakeFate host sender _ _ = .completes
        rw [staked.fate, found]
        dsimp only
        rw [if_neg reopens.not_panics, reads]
        rfl
      · rw [ledger_setChannel, staked.native]
  | opened staked missing =>
      refine foretold_completes ?_ staked.txCounts ?_ (by simp)
      · change state.stakeFate host sender _ _ = .completes
        rw [staked.fate, missing]
      · rw [ledger_setChannel, staked.native]
  | rebalanced redeems found reads =>
      refine foretold_completes ?_ rfl (by simp) (by simp)
      obtain ⟨old, before, readable⟩ := redeems.opposite trips found
      change state.ticketFate host _ = .completes
      rw [State.ticketFate, redeems.found]
      dsimp only
      rw [before]
      dsimp only
      rw [readable, reads]
      rfl
  | unreadOpposite redeems found unread =>
      refine foretold_unredeemed redeems ?_ rfl
      obtain ⟨old, before, readable⟩ := redeems.opposite trips found
      rw [State.ticketFate, redeems.found]
      dsimp only
      rw [before]
      dsimp only
      rw [readable, unread]
      rfl
  | unreadSafe redeems alone safe unread =>
      refine foretold_unredeemed redeems ?_ rfl
      rw [redeems.fate_alone alone, safe]
      simp [unread]
  | credited redeems alone safe reads counts =>
      have fate := redeems.fate_alone alone
      rw [safe] at fate
      simp only [reads, Option.isSome_some, if_true] at fate
      rw [← statsFate_credited] at fate
      rcases countRedeemed_cases host _ _ _ with
        ⟨error, ended, unread⟩ | ⟨stats, ended, overflows⟩ |
        ⟨stats, ended, counted⟩
      · rw [← counts, ended]
        rw [unread] at fate
        exact foretold_unredeemed redeems fate (channels_write ..)
      · rw [← counts, ended]
        rw [overflows] at fate
        exact fate
      · rw [← counts, ended]
        rw [counted] at fate
        refine foretold_completes fate (txCounts_write ..) ?_ (by simp)
        rw [ledger_setStats, ledger_write_of_ne _ _ _ (by decide),
          ledger_setChannel]
  | nowhere redeems alone homeless =>
      refine foretold_completes ?_ rfl (by simp) (by simp)
      change state.ticketFate host _ = .completes
      rw [redeems.fate_alone alone, homeless]

end Fates

section Calls

variable {host : Host} {sender : Address} {state done : State}

theorem countTx_ne (key : String) : (state.countTx key).txCounts ≠
    state.txCounts := by
  intro same
  have written := IndexMap.get?_of_put_eq same
  rw [written, Option.getD_some] at written
  have absurdly := Option.some.inj written
  omega

/-- Once the transaction is counted, no error leaves the state as it was. -/
theorem ne_of_counted {key : String} {after : State}
    (kept : done.txCounts = state.txCounts)
    (counted : after.txCounts = (done.countTx key).txCounts) :
    after ≠ state := by
  intro same
  rw [same, ← kept] at counted
  exact countTx_ne key counted.symm

/-- A parsed transaction leaves no trace of its failure exactly under the
condition. -/
theorem execute_unbroken_iff (trips : host.RoundTrips)
    (interceptor : Option Interceptor) (addresses : ContractAddresses)
    (now : Nat) (action : Action) :
    (∀ error after,
      execute host interceptor addresses now sender action state =
        .error (.err error) after → after = state) ↔
      state.Unbroken host now sender interceptor addresses action := by
  have executed := execute_executed host interceptor addresses now sender
    action state
  generalize execute host interceptor addresses now sender action state =
    result at executed
  rcases perform_ends host addresses now sender action state with
    ⟨blocked, failure, ended⟩ | ⟨starts, performed⟩
  · rw [ended] at executed
    cases executed
    refine ⟨fun _ => .inl blocked, fun _ error after same => ?_⟩
    cases same
    rfl
  · have foretold := performed.foretold trips
    rw [State.Unbroken, starts, or_iff_right (by simp)]
    generalize perform host addresses now sender action state = ended
      at executed foretold
    cases executed with
    | failed =>
        rename_i failure after
        cases failure with
        | err error =>
            obtain ⟨fate, idle⟩ := foretold
            rw [fate, ← idle]
            exact ⟨fun atomic => atomic error after rfl,
              fun same _ _ ended => by cases ended; exact same⟩
        | panicked =>
            rw [show state.fate host now sender action = .panics from foretold]
            exact ⟨fun _ => trivial, fun _ _ _ ended => by cases ended⟩
    | unpaid lacking =>
        obtain ⟨fate, kept, funds⟩ := foretold
        rw [State.holds, funds] at lacking
        rw [fate, lacking]
        exact ⟨fun atomic => (ne_of_counted kept rfl (atomic _ _ rfl)).elim,
          fun affords => absurd affords.1 (by simp)⟩
    | unsent pays affords dropped =>
        obtain ⟨fate, kept, funds⟩ := foretold
        rw [fate]
        exact ⟨fun atomic =>
            (ne_of_counted kept pays.txCounts (atomic _ _ rfl)).elim,
          fun affords => (affords.2 dropped).elim⟩
    | settled pays affords listening =>
        obtain ⟨fate, kept, funds⟩ := foretold
        rw [State.holds, funds] at affords
        rw [fate]
        exact ⟨fun _ => ⟨affords, listening⟩, fun _ _ _ ended => by cases ended⟩

/-- Every failed call leaves the state as it was exactly if the state before
the call satisfies the condition, whatever the transaction is parsed into. -/
theorem updateState_atomic_iff (host : Host) (trips : host.RoundTrips)
    (emulator : FullStateEmulator) (now : Nat) (signedTx : List UInt8)
    (state : State) :
    (∀ error after, updateState host emulator now signedTx state =
      .error (.err error) after → after = state) ↔
      ∀ addresses action sender,
        Parses host emulator state signedTx addresses action sender →
        state.Unbroken host now sender emulator.interceptor addresses action := by
  rcases updateState_cases host emulator now signedTx state with
    ⟨error, ended, unparsed⟩ | ⟨addresses, action, sender, parses, ended⟩
  · constructor
    · intro _ addresses action sender parses
      exact (unparsed addresses action sender parses).elim
    · intro _ other after same
      rw [ended] at same
      cases same
      rfl
  · rw [ended, execute_unbroken_iff trips]
    constructor
    · rintro unbroken other action' sender' ⟨known, parsed⟩
      obtain ⟨same, parses⟩ := parses
      rw [same, Option.some.injEq] at known
      rw [← known, parses] at parsed
      cases parsed
      exact known ▸ unbroken
    · intro unbroken
      exact unbroken addresses action sender parses

/-- The state of a call that returns an error. -/
def failedState? {α : Type} : EStateM.Result Failure State α → Option State
  | .error (.err _) after => some after
  | _ => none

theorem failedState?_eq_some {α : Type}
    {result : EStateM.Result Failure State α} {after : State}
    (failed : failedState? result = some after) :
    ∃ error, result = .error (.err error) after := by
  unfold failedState? at failed
  split at failed
  · next error _ =>
      cases failed
      exact ⟨error, rfl⟩
  · cases failed

/-- Funding with more than the Safe holds is refused before anything is
written. -/
theorem funding_beyond_the_safe_is_atomic :
    ∃ error, updateState
        (.standing (.fundChannel bob (6 * baseUnit)) alice) plain 0 []
        twoNodes = .error (.err error) twoNodes := by
  have trips := reference_roundTrips
    fun _ => some (.fundChannel bob (6 * baseUnit), alice)
  have refused : (failedState? (updateState
      (.standing (.fundChannel bob (6 * baseUnit)) alice) plain 0 []
      twoNodes)).isSome = true := by
    decide +kernel
  obtain ⟨after, failed⟩ := Option.isSome_iff_exists.mp refused
  obtain ⟨error, ended⟩ := failedState?_eq_some failed
  have unchanged : after = twoNodes := by
    refine (updateState_atomic_iff _ trips plain 0 [] twoNodes).mpr ?_ error
      after ended
    rintro addresses action sender ⟨_, parsed⟩
    cases parsed
    refine .inl ?_
    rw [State.starts]
    decide +kernel
  rw [unchanged] at ended
  exact ⟨error, ended⟩

/-- The Safe holds five tokens and allows three: funding a channel with four
is refused, and the Safe has paid. -/
def overdrawn : Host := .standing (.fundChannel bob (4 * baseUnit)) alice

theorem refused_funding_debits_the_safe :
    ¬∀ error after, updateState overdrawn plain 0 [] twoNodes =
      .error (.err error) after → after = twoNodes := by
  intro atomic
  have spent : (failedState? (updateState overdrawn plain 0 [] twoNodes)).any
      (fun after => after.tokenBalances.get? (hexEncode aliceSafe) ≠
        twoNodes.tokenBalances.get? (hexEncode aliceSafe)) = true := by
    decide +kernel
  obtain ⟨after, failed, differs⟩ := (Option.any_eq_true _ _).mp spent
  obtain ⟨error, ended⟩ := failedState?_eq_some failed
  rw [atomic error after ended] at differs
  simp at differs

end Calls

end HoprUtilities.Blokli
