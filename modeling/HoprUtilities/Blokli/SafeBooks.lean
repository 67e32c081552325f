import HoprUtilities.Blokli.ChannelSimulation
import HoprUtilities.Blokli.Withdrawal
import HoprUtilities.Lib.Bookkeeping
import Mathlib.Algebra.Group.Prod
import Mathlib.Algebra.Order.Group.Nat
import Mathlib.Algebra.GroupWithZero.Nat

/-!
# The books of a Safe

The emulator keeps three accounts that no channel shows: what the nodes of a
Safe may still put into channels, what tickets have been paid into it, and what
transactions have cost.  Each of them is computed here from the transactions of
a run alone.

A Safe is named by its key in the maps of amounts.  The transactions that count
are those of the nodes whose Safe it is when they are made.
-/

namespace HoprUtilities.Blokli

open HoprUtilities.Lib

section Entries

variable (host : Host) (emulator : FullStateEmulator)

def FullStateEmulator.parsed? (state : State) (call : Call) :
    Option (ContractAddresses × Action × Address) :=
  match host.contractAddresses state.chainInfo.contractAddresses with
  | some addresses =>
      match host.parseTx call.signedTx emulator.moduleAddress addresses with
      | .ok (action, sender) => some (addresses, action, sender)
      | .error _ => none
  | none => none

def Action.onAllowance (addresses : ContractAddresses) :
    Action → Option (AllowanceEntry Nat)
  | .approve spender amount payer =>
      if payer = .safe ∧ spender = addresses.channels then
        some (.approved amount)
      else none
  | .fundChannel _ stake => some (.spent stake)
  | _ => none

def FullStateEmulator.allowanceEntries (safeAddr : String) (state : State)
    (call : Call) : List (AllowanceEntry Nat) :=
  match emulator.parsed? host state call with
  | some (addresses, action, sender) =>
      if host.getAccountSafe state.accounts sender = some safeAddr then
        (action.onAllowance addresses).toList
      else []
  | none => []

def State.ticketSafe? (state : State) (channelId : ChannelId) :
    Option String := do
  let (_, channel) ← host.channel state channelId
  match state.channels.first?
      (Channel.connects channel.destination channel.source) with
  | some _ => none
  | none => (state.destinationSafe channel).map Prod.fst

/-- The amounts of the tickets that are paid into a Safe. -/
def FullStateEmulator.ticketEntries (safeAddr : String) (state : State)
    (call : Call) : List Nat :=
  match emulator.parsed? host state call with
  | some (_, .redeemTicket channelId _ amount, _) =>
      if state.ticketSafe? host channelId = some safeAddr then [amount] else []
  | _ => []

/-- The amounts of tickets and their number, as the statistics have them. -/
def ticketStats (amounts : List Nat) : Nat × Nat :=
  (amounts.sum, amounts.length)

def FullStateEmulator.senders (state : State) (call : Call) : List Address :=
  ((emulator.parsed? host state call).map fun parsed => parsed.2.2).toList

end Entries

section Accounts

variable (host : Host) (state : State)

/-- What tickets have been paid into a Safe, and how many. -/
def State.redeemed (safeAddr : String) : Nat × Nat :=
  match state.safeRedeemStats.get? safeAddr with
  | some stats =>
      ((host.parse .wxHopr stats.redeemedAmount).getD 0,
        ((parseU64 stats.redemptionCount).map UInt64.toNat).getD 0)
  | none => (0, 0)

def State.txCount (key : String) : Nat := (state.txCounts.get? key).getD 0

def State.txTotal : Nat := state.txCounts.totalOf id

end Accounts

section Steps

variable {host : Host} {emulator : FullStateEmulator}
  {addresses : ContractAddresses} {now : Nat} {sender : Address}
  {action : Action} {state done after : State} {call : Call}

theorem parsed?_of_parses
    (parses : Parses host emulator state call.signedTx addresses action
      sender) :
    emulator.parsed? host state call = some (addresses, action, sender) := by
  obtain ⟨known, parsed⟩ := parses
  simp only [FullStateEmulator.parsed?, known, parsed]

theorem amount_setChannel (key : String) (channel : Channel) (ledger : Ledger)
    (place : Option String) :
    (state.setChannel key channel).amount host ledger place =
      state.amount host ledger place :=
  amount_congr (ledger_setChannel _ _ _ _) place

theorem approve_ok {spender : Address} {amount : Nat} {payer : Payer}
    (performs : approve host addresses sender spender amount payer state =
      .ok () done) :
    ((payer = .safe ∧ spender = addresses.channels) ∧
      ∃ key, ∃ entry : TokenValue,
        host.getAccountSafe state.accounts sender = some key ∧
        done = state.write .safeAllowances key
          { entry with value := host.print .wxHopr amount }) ∨
      (¬(payer = .safe ∧ spender = addresses.channels) ∧ done = state) := by
  unfold approve at performs
  by_cases tracked : payer = .safe ∧ spender = addresses.channels
  · rw [if_pos tracked, get_bind_apply] at performs
    cases found : state.entry .safeAllowances
        (host.getAccountSafe state.accounts sender) with
    | none =>
        rw [found] at performs
        cases performs
    | some place =>
        obtain ⟨key, entry⟩ := place
        rw [found] at performs
        cases performs
        exact .inl ⟨tracked, key, entry, (entry_eq_some.mp found).1, rfl⟩
  · rw [if_neg tracked] at performs
    cases performs
    exact .inr ⟨tracked, rfl⟩

theorem Performed.allowances
    (performed : Performed host addresses now sender state action
      (.ok () done))
    (noApproval : ∀ spender amount payer,
      action ≠ .approve spender amount payer)
    (noStake : ∀ dstAddr stake, action ≠ .fundChannel dstAddr stake) :
    done.ledger .safeAllowances = state.ledger .safeAllowances := by
  cases performed with
  | registered | assigned | reannounced | announced | untracked | initialized
  | finalized | incoming | rebalanced | nowhere => rfl
  | approved => exact (noApproval _ _ _ rfl).elim
  | funded | opened => exact (noStake _ _ rfl).elim
  | @withdrawn _ ledger _ _ _ _ _ _ kind debit deposit =>
      have apart : Ledger.safeAllowances ≠ ledger := by
        intro same
        subst same
        cases action <;> cases kind
      rw [deposit.ledger_of_ne apart, debit.ledger_of_ne apart]
  | credited redeems alone safe reads counts =>
      obtain ⟨stats, rfl⟩ := eq_setStats_of_countRedeemed counts
      rfl

theorem Staked.allowance (trips : host.RoundTrips) {dstAddr : Address}
    {stake : Nat} {source destination : Account}
    (staked : Staked host sender dstAddr stake state source destination
      after) (safeAddr : String) :
    if host.getAccountSafe state.accounts sender = some safeAddr then
      ∃ left, state.amount host .safeAllowances (some safeAddr) = some left ∧
        stake ≤ left ∧
        after.amount host .safeAllowances (some safeAddr) =
          some (left - stake)
    else
      after.amount host .safeAllowances (some safeAddr) =
        state.amount host .safeAllowances (some safeAddr) := by
  obtain ⟨_, _, _, debited, first, second⟩ := staked
  have same : debited.amount host .safeAllowances (some safeAddr) =
      state.amount host .safeAllowances (some safeAddr) :=
    amount_congr (first.ledger_of_ne (by decide)) _
  have moved : after.amount host .safeAllowances (some safeAddr) = _ :=
    second.amount trips
  have enough := second.holds
  split_ifs with own
  · rw [own] at enough
    rw [if_pos own, same] at moved
    rw [State.holds, same] at enough
    cases reads : state.amount host .safeAllowances (some safeAddr) with
    | none =>
        rw [reads] at enough
        cases enough
    | some left =>
        rw [reads] at enough moved
        exact ⟨left, rfl, by simpa using enough, moved⟩
  · rw [if_neg own, same] at moved
    exact moved

theorem perform_allowance (trips : host.RoundTrips)
    (performs : perform host addresses now sender action state =
      .ok () done) (safeAddr : String) :
    run AllowanceEntry.post
      (if host.getAccountSafe state.accounts sender = some safeAddr then
        (action.onAllowance addresses).toList else [])
      (state.amount host .safeAllowances (some safeAddr)) =
        some (done.amount host .safeAllowances (some safeAddr)) := by
  have performed := performed_of_perform performs
  cases action with
  | approve spender amount payer =>
      rcases approve_ok performs with
        ⟨tracked, key, entry, place, rfl⟩ | ⟨untracked, rfl⟩
      · have reads : host.parse Ledger.safeAllowances.currency
            ({ entry with value := host.print .wxHopr amount } :
              TokenValue).value = some amount := trips .wxHopr amount
        rw [amount_write, place, Action.onAllowance, if_pos tracked, reads]
        by_cases own : key = safeAddr
        · rw [if_pos (congrArg some own), if_pos own.symm]
          cases state.amount host .safeAllowances (some safeAddr) <;> rfl
        · rw [if_neg (fun same => own (Option.some.inj same)),
            if_neg (fun same => own same.symm)]
          rfl
      · rw [Action.onAllowance, if_neg untracked]
        split_ifs <;> rfl
  | fundChannel dstAddr stake =>
      have spent : if host.getAccountSafe state.accounts sender =
            some safeAddr then
          ∃ left, state.amount host .safeAllowances (some safeAddr) =
              some left ∧ stake ≤ left ∧
            done.amount host .safeAllowances (some safeAddr) =
              some (left - stake)
          else done.amount host .safeAllowances (some safeAddr) =
            state.amount host .safeAllowances (some safeAddr) := by
        cases performed with
        | withdrawn kind => cases kind
        | funded staked | opened staked =>
            simp only [amount_setChannel]
            exact staked.allowance trips safeAddr
      split_ifs at spent ⊢ with own
      · obtain ⟨left, before, enough, rest⟩ := spent
        rw [before, rest, Action.onAllowance, Option.toList_some, run,
          AllowanceEntry.post, if_pos enough]
        rfl
      · rw [spent]
        rfl
  | registerSafeAddress | announce | withdrawNative | withdrawToken
  | initializeChannelClosure | finalizeChannelClosure | incomingChannelClosure
  | redeemTicket =>
      have same := performed.allowances
        (by intros; exact Action.noConfusion)
        (by intros; exact Action.noConfusion)
      rw [amount_congr same]
      split_ifs <;> rfl

theorem succeeds_allowance (trips : host.RoundTrips) (safeAddr : String)
    (taken : emulator.succeeds host state call = some after) :
    run AllowanceEntry.post
      (emulator.allowanceEntries host safeAddr state call)
      (state.amount host .safeAllowances (some safeAddr)) =
        some (after.amount host .safeAllowances (some safeAddr)) := by
  obtain ⟨addresses, action, sender, done, parses, performs, pays⟩ :=
    settled_of_succeeds taken
  have fee : after.amount host .safeAllowances (some safeAddr) =
      done.amount host .safeAllowances (some safeAddr) :=
    amount_congr ((pays.ledger_of_ne (by decide)).trans
      (ledger_countTx _ _ _)) _
  rw [fee, FullStateEmulator.allowanceEntries, parsed?_of_parses parses]
  exact perform_allowance trips performs safeAddr

theorem toNat_of_u64Succ {value next : UInt64}
    (succ : u64Succ value = some next) : next.toNat = value.toNat + 1 := by
  unfold u64Succ at succ
  split_ifs at succ with fits
  cases succ
  rw [UInt64.toNat_add, UInt64.toNat_one, Nat.mod_eq_of_lt fits]

theorem countRedeemed_redeemed (trips : host.RoundTrips) {safeAddr : String}
    {amount : Nat}
    (counts : countRedeemed host safeAddr amount state = .ok () done)
    (other : String) :
    done.redeemed host other = state.redeemed host other +
      if other = safeAddr then (amount, 1) else 0 := by
  unfold countRedeemed at counts
  rw [get_bind_apply] at counts
  have elsewhere : ∀ stats, other ≠ safeAddr →
      (state.setStats safeAddr stats).redeemed host other =
        state.redeemed host other := by
    intro stats apart
    rw [State.redeemed, State.setStats, IndexMap.get?_put_of_ne apart]
    rfl
  cases here : state.safeRedeemStats.get? safeAddr with
  | none =>
      rw [here] at counts
      cases counts
      split_ifs with own
      · subst own
        have one : parseU64 "1" = some 1 := by decide
        simp [State.redeemed, State.setStats, here, trips _ _, one]
      · rw [elsewhere _ own, add_zero]
  | some stats =>
      rw [here] at counts
      cases redeemed : host.parse .wxHopr stats.redeemedAmount with
      | none =>
          simp [redeemed] at counts
      | some value =>
          cases counted : parseU64 stats.redemptionCount with
          | none => simp [redeemed, counted] at counts
          | some count =>
              cases next : u64Succ count with
              | none => simp [redeemed, counted, next] at counts
              | some succ =>
                  simp only [redeemed, counted, next, okOr_some, orPanic_some,
                    pure_bind, modify_bind_apply, modify_apply,
                    setStats_setStats] at counts
                  cases counts
                  split_ifs with own
                  · subst own
                    simp [State.redeemed, State.setStats, here, redeemed,
                      counted, trips _ _, parseU64_printU64,
                      toNat_of_u64Succ next]
                  · rw [elsewhere _ own, add_zero]

theorem redeemed_congr
    (same : after.safeRedeemStats = state.safeRedeemStats) (safeAddr : String) :
    after.redeemed host safeAddr = state.redeemed host safeAddr := by
  rw [State.redeemed, State.redeemed, same]

theorem Debits.redeemStats {ledger : Ledger} {key : Option String}
    {amount : Nat} (debits : Debits host ledger key amount state after) :
    after.safeRedeemStats = state.safeRedeemStats :=
  debits.elsewhere.safeRedeemStats

theorem Performed.redeemStats
    (performed : Performed host addresses now sender state action
      (.ok () done))
    (other : ∀ channelId ticketIndex amount,
      action ≠ .redeemTicket channelId ticketIndex amount) :
    done.safeRedeemStats = state.safeRedeemStats := by
  cases performed with
  | registered | assigned | reannounced | announced | untracked | approved
  | initialized | finalized | incoming => rfl
  | withdrawn kind debit deposit =>
      exact deposit.elsewhere.safeRedeemStats.trans debit.redeemStats
  | funded staked | opened staked =>
      obtain ⟨_, _, _, debited, first, second⟩ := staked
      exact second.redeemStats.trans first.redeemStats
  | rebalanced | nowhere | credited => exact (other _ _ _ rfl).elim

theorem Redeems.ticketSafe? {channelId : ChannelId} {ticketIndex : UInt64}
    {amount : Nat} {key : String} {channel paid : Channel}
    (redeems : Redeems host state channelId ticketIndex amount key channel
      paid) :
    state.ticketSafe? host channelId =
      match (state.setChannel key paid).channels.first?
          (Channel.connects channel.destination channel.source) with
      | some _ => none
      | none => (state.destinationSafe channel).map Prod.fst := by
  rw [redeems.first?, State.ticketSafe?, redeems.found]
  change (match state.channels.first? _ with
    | some _ => none
    | none => (state.destinationSafe channel).map Prod.fst) = _
  cases state.channels.first?
    (Channel.connects channel.destination channel.source) <;> rfl

theorem performed_redeemed (trips : host.RoundTrips) {channelId : ChannelId}
    {ticketIndex : UInt64} {amount : Nat}
    (performed : Performed host addresses now sender state
      (.redeemTicket channelId ticketIndex amount) (.ok () done))
    (safeAddr : String) :
    done.redeemed host safeAddr = state.redeemed host safeAddr +
      if state.ticketSafe? host channelId = some safeAddr then (amount, 1)
      else 0 := by
  cases performed with
  | withdrawn kind => cases kind
  | rebalanced redeems found =>
      rw [redeems.ticketSafe?, found, if_neg (Option.some_ne_none _).symm,
        add_zero]
      rfl
  | nowhere redeems alone homeless =>
      rw [redeems.ticketSafe?, alone, homeless]
      exact (add_zero _).symm
  | credited redeems alone safe reads counts =>
      rw [countRedeemed_redeemed trips counts safeAddr, redeems.ticketSafe?,
        alone, safe]
      simp only [Option.map_some, Option.some.injEq, eq_comm]
      rfl

theorem succeeds_redeemed (trips : host.RoundTrips) (safeAddr : String)
    (taken : emulator.succeeds host state call = some after) :
    after.redeemed host safeAddr = state.redeemed host safeAddr +
      ticketStats (emulator.ticketEntries host safeAddr state call) := by
  obtain ⟨addresses, action, sender, done, parses, performs, pays⟩ :=
    settled_of_succeeds taken
  have fee : after.redeemed host safeAddr = done.redeemed host safeAddr :=
    redeemed_congr pays.redeemStats _
  have performed := performed_of_perform performs
  rw [fee, FullStateEmulator.ticketEntries, parsed?_of_parses parses]
  cases action with
  | redeemTicket channelId ticketIndex amount =>
      rw [performed_redeemed trips performed]
      dsimp only
      split_ifs <;> rfl
  | registerSafeAddress | announce | withdrawNative | withdrawToken | approve
  | fundChannel | initializeChannelClosure | finalizeChannelClosure
  | incomingChannelClosure =>
      have same := performed.redeemStats
        (by intros; exact Action.noConfusion)
      rw [redeemed_congr same]
      exact (add_zero _).symm

theorem Performed.txCounts
    (performed : Performed host addresses now sender state action
      (.ok () done)) : done.txCounts = state.txCounts := by
  cases performed with
  | registered | assigned | reannounced | announced | untracked | initialized
  | finalized | incoming | rebalanced | nowhere => rfl
  | approved => exact txCounts_write ..
  | withdrawn kind debit deposit =>
      exact deposit.txCounts.trans debit.txCounts
  | funded staked | opened staked => exact staked.txCounts
  | credited redeems alone safe reads counts =>
      obtain ⟨stats, rfl⟩ := eq_setStats_of_countRedeemed counts
      rfl

theorem succeeds_fee (trips : host.RoundTrips)
    (taken : emulator.succeeds host state call = some after) :
    after.nativeTotal host + emulatedTxPrice * after.txTotal =
      state.nativeTotal host + emulatedTxPrice * state.txTotal := by
  obtain ⟨addresses, action, sender, done, _, performs, pays⟩ :=
    settled_of_succeeds taken
  have performed := performed_of_perform performs
  have kept := performed.nativeTotal trips
  have paid := pays.nativeTotal trips
  have unpaid : (done.countTx (hexEncode sender)).nativeTotal host =
      done.nativeTotal host := nativeTotal_congr rfl
  have counted := IndexMap.totalOf_put done.txCounts (hexEncode sender)
    ((done.txCounts.get? (hexEncode sender)).getD 0 + 1) id
  have total : after.txTotal = done.txTotal + 1 := by
    rw [State.txTotal, pays.txCounts, State.txTotal]
    simp only [Option.map_id, id_eq] at counted
    change (done.txCounts.put _ _).totalOf id = _
    omega
  have before : done.txTotal = state.txTotal := by
    rw [State.txTotal, State.txTotal, performed.txCounts]
  rw [total, before]
  simp only [emulatedTxPrice] at paid ⊢
  omega

theorem succeeds_txCount (address : Address)
    (taken : emulator.succeeds host state call = some after) :
    after.txCount (hexEncode address) = state.txCount (hexEncode address) +
      (emulator.senders host state call).count address := by
  obtain ⟨addresses, action, sender, done, parses, performs, pays⟩ :=
    settled_of_succeeds taken
  have performed := performed_of_perform performs
  rw [FullStateEmulator.senders, parsed?_of_parses parses, State.txCount,
    State.txCount, pays.txCounts, State.countTx, performed.txCounts,
    IndexMap.get?_put, Option.map_some, Option.toList_some,
    List.count_singleton]
  by_cases own : address = sender
  · rw [own, if_pos rfl, beq_self_eq_true]
    rfl
  · have apart : hexEncode address ≠ hexEncode sender :=
      fun same => own (hexEncode_inj same)
    have differ : (sender == address) = false :=
      beq_eq_false_iff_ne.mpr (Ne.symm own)
    rw [if_neg apart, differ]
    rfl

end Steps

section Runs

variable {host : Host} {emulator : FullStateEmulator}

/-- In every run, the allowance of a Safe is what its journal of approvals and
stakes makes of it; and what its nodes have staked since the last approval
never exceeds the approved amount, of which the rest is left. -/
theorem allowance_follows_journal (trips : host.RoundTrips)
    (calls : List Call) (start final : State)
    (ended : run (emulator.succeeds host) calls start = some final)
    (safeAddr : String) :
    run AllowanceEntry.post
        (journal (emulator.succeeds host)
          (emulator.allowanceEntries host safeAddr) calls start)
        (start.amount host .safeAllowances (some safeAddr)) =
      some (final.amount host .safeAllowances (some safeAddr)) ∧
    ∀ before amount since,
      journal (emulator.succeeds host)
          (emulator.allowanceEntries host safeAddr) calls start =
        before ++ .approved amount :: since →
      (∀ entry ∈ since, ∃ stake, entry = .spent stake) →
      ∃ left,
        final.amount host .safeAllowances (some safeAddr) = some left ∧
          left + (AllowanceEntry.spendings since).sum = amount := by
  have books : ∀ state call next,
      emulator.succeeds host state call = some next →
      run AllowanceEntry.post
          (emulator.allowanceEntries host safeAddr state call)
          (state.amount host .safeAllowances (some safeAddr)) =
        some (next.amount host .safeAllowances (some safeAddr)) :=
    fun _ _ _ taken => succeeds_allowance trips safeAddr taken
  have follows := run_journal books ended
  refine ⟨follows, ?_⟩
  intro before amount since split spends
  rw [split] at follows
  exact AllowanceEntry.run_since_approval spends follows

/-- A Safe sets its allowance, a ticket is paid into it, and it stakes a part
of the allowance. -/
def safeTraffic (signedTx : List UInt8) : Option (Action × Address) :=
  match signedTx with
  | [] =>
      some (.approve (Vector.replicate 20 0x9a) (4 * baseUnit) .safe, alice)
  | [_] =>
      some (.redeemTicket (joinAddresses bob alice) 5 baseUnit, bob)
  | _ => some (.fundChannel bob (2 * baseUnit), alice)

/-- The two nodes with a channel towards the one that has a Safe. -/
def bobToAlice : State :=
  twoNodes.setChannel (hexEncode (joinAddresses bob alice))
    { aliceToBob with
      concreteChannelId := hexEncode (joinAddresses bob alice)
      destination := 1
      source := 2 }

def safeCalls : List Call := [⟨0, []⟩, ⟨0, [0]⟩, ⟨0, [0, 0]⟩]

theorem safeCalls_succeed : ∃ final,
    run (plain.succeeds (.reference safeTraffic)) safeCalls bobToAlice =
      some final := by
  have passed : (run (plain.succeeds (.reference safeTraffic)) safeCalls
      bobToAlice).any (fun _ => true) = true := by
    decide +kernel
  obtain ⟨final, ended, _⟩ := exists_run _ passed
  exact ⟨final, ended⟩

theorem allowance_follows_journal_staked :
    ∃ final left,
      run (plain.succeeds (.reference safeTraffic)) safeCalls bobToAlice =
        some final ∧
      final.amount (.reference safeTraffic) .safeAllowances
        (some (hexEncode aliceSafe)) = some left ∧
      left + (2 * baseUnit + 0) = 4 * baseUnit := by
  obtain ⟨final, ended⟩ := safeCalls_succeed
  obtain ⟨_, since⟩ := allowance_follows_journal
    (reference_roundTrips safeTraffic) safeCalls bobToAlice final ended
    (hexEncode aliceSafe)
  have entries : journal (plain.succeeds (.reference safeTraffic))
      (plain.allowanceEntries (.reference safeTraffic) (hexEncode aliceSafe))
      safeCalls bobToAlice =
        [] ++ .approved (4 * baseUnit) :: [.spent (2 * baseUnit)] := by
    decide +kernel
  obtain ⟨left, reads, sum⟩ := since [] _ _ entries (by simp)
  exact ⟨final, left, ended, reads, sum⟩

/-- In every run, the statistics of a Safe grow by the tickets that were paid
into it. -/
theorem redeemed_follows_journal (trips : host.RoundTrips)
    (calls : List Call) (start final : State)
    (ended : run (emulator.succeeds host) calls start = some final)
    (safeAddr : String) :
    final.redeemed host safeAddr = start.redeemed host safeAddr +
      ticketStats (journal (emulator.succeeds host)
        (emulator.ticketEntries host safeAddr) calls start) := by
  have books : ∀ state call next,
      emulator.succeeds host state call = some next →
      next.redeemed host safeAddr = state.redeemed host safeAddr +
        ticketStats (emulator.ticketEntries host safeAddr state call) :=
    fun _ _ _ taken => succeeds_redeemed trips safeAddr taken
  have empty : ticketStats [] = 0 := rfl
  have joins : ∀ left right,
      ticketStats (left ++ right) = ticketStats left + ticketStats right := by
    intro left right
    rw [ticketStats, List.sum_append, List.length_append]
    rfl
  exact run_adds empty joins books ended

theorem redeemed_follows_journal_paid :
    ∃ final,
      run (plain.succeeds (.reference safeTraffic)) safeCalls bobToAlice =
        some final ∧
      final.redeemed (.reference safeTraffic) (hexEncode aliceSafe) =
        (baseUnit, 1) := by
  obtain ⟨final, ended⟩ := safeCalls_succeed
  refine ⟨final, ended, ?_⟩
  rw [redeemed_follows_journal (reference_roundTrips safeTraffic) safeCalls
    bobToAlice final ended (hexEncode aliceSafe)]
  decide +kernel

/-- In every run, the native balances lose one fee for every transaction, and
every transaction is counted for its sender. -/
theorem fees_follow_counts (trips : host.RoundTrips) (calls : List Call)
    (start final : State)
    (ended : run (emulator.succeeds host) calls start = some final) :
    final.nativeTotal host + emulatedTxPrice * final.txTotal =
        start.nativeTotal host + emulatedTxPrice * start.txTotal ∧
      ∀ address, final.txCount (hexEncode address) =
        start.txCount (hexEncode address) +
          (journal (emulator.succeeds host) (emulator.senders host) calls
            start).count address := by
  constructor
  · have closed : ∀ state call next,
        emulator.succeeds host state call = some next →
        state.nativeTotal host + emulatedTxPrice * state.txTotal =
          start.nativeTotal host + emulatedTxPrice * start.txTotal →
        next.nativeTotal host + emulatedTxPrice * next.txTotal =
          start.nativeTotal host + emulatedTxPrice * start.txTotal :=
      fun _ _ _ taken before => (succeeds_fee trips taken).trans before
    exact run_invariant closed ended rfl
  · intro address
    have books : ∀ state call next,
        emulator.succeeds host state call = some next →
        next.txCount (hexEncode address) =
          state.txCount (hexEncode address) +
            List.count address (emulator.senders host state call) :=
      fun _ _ _ taken => succeeds_txCount address taken
    have joins : ∀ left right : List Address,
        List.count address (left ++ right) =
          List.count address left + List.count address right :=
      fun _ _ => List.count_append
    exact run_adds List.count_nil joins books ended

theorem fees_follow_counts_three :
    ∃ final,
      run (plain.succeeds (.reference safeTraffic)) safeCalls bobToAlice =
        some final ∧
      final.nativeTotal (.reference safeTraffic) +
          emulatedTxPrice * final.txTotal = 3 ∧
      final.txCount (hexEncode alice) = 2 := by
  obtain ⟨final, ended⟩ := safeCalls_succeed
  obtain ⟨total, counts⟩ := fees_follow_counts
    (reference_roundTrips safeTraffic) safeCalls bobToAlice final ended
  refine ⟨final, ended, ?_, ?_⟩
  · rw [total]
    decide +kernel
  · rw [counts]
    decide +kernel

end Runs

end HoprUtilities.Blokli
