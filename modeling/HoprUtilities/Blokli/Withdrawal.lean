import HoprUtilities.Blokli.Atomicity

/-!
# Withdrawals and fees

A withdrawal takes its amount from one entry and adds it to another one, and
the fee is taken from the native balance of the signer afterwards.  The three
entries are found in different ways and may be the same ones.  What each write
does is therefore said for every entry, as an equation that can be added up.
-/

namespace HoprUtilities.Blokli

open HoprUtilities.Lib

section Balances

variable (host : Host) (state : State)

/-- What is under a key; an absent entry holds nothing. -/
def State.balanceOf (ledger : Ledger) (key : String) : Nat :=
  (state.amount host ledger (some key)).getD 0

/-- The native balances of all addresses. -/
def State.nativeTotal : Nat :=
  state.nativeBalances.totalOf fun entry =>
    (host.parse .xDai entry.value).getD 0

end Balances

/-- The amount at one place of the ledgers, and nothing at all others. -/
def amountAt (ledger : Ledger) (place : String) (amount : Nat)
    (other : Ledger) (key : String) : Nat :=
  if other = ledger ∧ key = place then amount else 0

/-- Nothing but ledgers and counts of transactions differs. -/
structure SameElsewhere (state after : State) : Prop where
  chainInfo : after.chainInfo = state.chainInfo
  accounts : after.accounts = state.accounts
  deployedSafes : after.deployedSafes = state.deployedSafes
  channels : after.channels = state.channels
  safeRedeemStats : after.safeRedeemStats = state.safeRedeemStats

namespace SameElsewhere

theorem trans {state middle after : State} (first : SameElsewhere state middle)
    (second : SameElsewhere middle after) : SameElsewhere state after where
  chainInfo := second.chainInfo.trans first.chainInfo
  accounts := second.accounts.trans first.accounts
  deployedSafes := second.deployedSafes.trans first.deployedSafes
  channels := second.channels.trans first.channels
  safeRedeemStats := second.safeRedeemStats.trans first.safeRedeemStats

theorem write (state : State) (ledger : Ledger) (key : String)
    (entry : TokenValue) :
    SameElsewhere state (state.write ledger key entry) := by
  cases ledger <;> exact ⟨rfl, rfl, rfl, rfl, rfl⟩

theorem countTx (state : State) (key : String) :
    SameElsewhere state (state.countTx key) := ⟨rfl, rfl, rfl, rfl, rfl⟩

end SameElsewhere

/-- What a withdrawal and its fee do to every entry of every ledger. -/
structure Withdrawn (host : Host) (sender destination : Address)
    (ledger : Ledger) (amount : Nat) (payerKey : String)
    (state after : State) : Prop where
  covered : amount ≤ state.balanceOf host ledger payerKey
  present : ((after.ledger ledger).get? (hexEncode destination)).isSome = true
  balances : ∀ other key,
    after.balanceOf host other key + amountAt ledger payerKey amount other key +
        amountAt .nativeBalances (hexEncode sender) emulatedTxPrice other key =
      state.balanceOf host other key +
        amountAt ledger (hexEncode destination) amount other key
  entries : ∀ other key,
    ¬(other = ledger ∧ (key = payerKey ∨ key = hexEncode destination)) →
    ¬(other = .nativeBalances ∧ key = hexEncode sender) →
    (after.ledger other).get? key = (state.ledger other).get? key
  elsewhere : SameElsewhere state after

section Writes

variable {host : Host} {state after : State} {ledger : Ledger}
  {amount : Nat}

theorem get?_write_of_ne {place key : String} {other : Ledger}
    (entry : TokenValue) (apart : ¬(other = ledger ∧ key = place)) :
    ((state.write ledger place entry).ledger other).get? key =
      (state.ledger other).get? key := by
  by_cases same : other = ledger
  · subst same
    rw [ledger_write]
    exact IndexMap.get?_put_of_ne fun equal => apart ⟨rfl, equal⟩
  · rw [ledger_write_of_ne _ _ _ same]

theorem balanceOf_congr {other : Ledger}
    (same : after.ledger other = state.ledger other) (key : String) :
    after.balanceOf host other key = state.balanceOf host other key := by
  rw [State.balanceOf, State.balanceOf, amount_congr same]

theorem Debits.entry {place key : String} {other : Ledger}
    (debits : Debits host ledger (some place) amount state after)
    (apart : ¬(other = ledger ∧ key = place)) :
    (after.ledger other).get? key = (state.ledger other).get? key := by
  obtain ⟨placed, _, _, _⟩ := debits
  cases placed
  exact get?_write_of_ne _ apart

theorem Deposits.entry {place key typename : String} {other : Ledger}
    (deposits : Deposits host ledger place amount typename state after)
    (apart : ¬(other = ledger ∧ key = place)) :
    (after.ledger other).get? key = (state.ledger other).get? key := by
  cases deposits <;> exact get?_write_of_ne _ apart

theorem Debits.elsewhere {key : Option String}
    (debits : Debits host ledger key amount state after) :
    SameElsewhere state after := by
  cases debits
  exact .write _ _ _ _

theorem Deposits.elsewhere {key typename : String}
    (deposits : Deposits host ledger key amount typename state after) :
    SameElsewhere state after := by
  cases deposits <;> exact .write _ _ _ _

theorem Debits.covered {place : String}
    (debits : Debits host ledger (some place) amount state after) :
    amount ≤ state.balanceOf host ledger place := by
  obtain ⟨placed, here, reads, enough⟩ := debits
  cases placed
  rw [State.balanceOf, amount_of_get? here, reads]
  exact enough

theorem Debits.balanceOf (trips : host.RoundTrips) {place : String}
    (debits : Debits host ledger (some place) amount state after)
    (other : Ledger) (key : String) :
    after.balanceOf host other key + amountAt ledger place amount other key =
      state.balanceOf host other key := by
  have covered := debits.covered
  by_cases same : other = ledger
  · subst same
    have moved : after.amount host other (some key) = _ :=
      debits.amount trips
    by_cases here : key = place
    · subst here
      rw [if_pos rfl] at moved
      rw [State.balanceOf] at covered ⊢
      rw [moved, amountAt, if_pos ⟨rfl, rfl⟩, State.balanceOf]
      cases number : state.amount host other (some key) with
      | none =>
          rw [number] at covered
          have nothing : amount = 0 := Nat.le_zero.mp covered
          rw [nothing]
          rfl
      | some balance =>
          rw [number] at covered
          exact Nat.sub_add_cancel covered
    · rw [if_neg fun equal => here (Option.some.inj equal).symm] at moved
      rw [State.balanceOf, moved, amountAt, if_neg fun both => here both.2]
      rfl
  · rw [balanceOf_congr (debits.ledger_of_ne same), amountAt,
      if_neg fun both => same both.1]
    rfl

theorem Deposits.balanceOf (trips : host.RoundTrips) {place typename : String}
    (deposits : Deposits host ledger place amount typename state after)
    (other : Ledger) (key : String) :
    after.balanceOf host other key =
      state.balanceOf host other key +
        amountAt ledger place amount other key := by
  by_cases same : other = ledger
  · subst same
    have moved : after.amount host other (some key) = _ :=
      deposits.amount trips
    by_cases here : key = place
    · subst here
      rw [if_pos rfl] at moved
      rw [State.balanceOf, moved, amountAt, if_pos ⟨rfl, rfl⟩]
      rfl
    · rw [if_neg here] at moved
      rw [State.balanceOf, moved, amountAt, if_neg fun both => here both.2]
      rfl
  · rw [balanceOf_congr (deposits.ledger_of_ne same), amountAt,
      if_neg fun both => same both.1]
    rfl

theorem Deposits.present {place typename : String}
    (deposits : Deposits host ledger place amount typename state after) :
    ((after.ledger ledger).get? place).isSome = true := by
  cases deposits <;> rw [ledger_write, IndexMap.get?_put_self] <;> rfl

theorem nativeTotal_congr
    (same : after.nativeBalances = state.nativeBalances) :
    after.nativeTotal host = state.nativeTotal host := by
  rw [State.nativeTotal, State.nativeTotal, same]

theorem nativeTotal_write (host : Host) (state : State) (key : String)
    (entry : TokenValue) :
    (state.write .nativeBalances key entry).nativeTotal host +
        state.balanceOf host .nativeBalances key =
      state.nativeTotal host + (host.parse .xDai entry.value).getD 0 := by
  have moved := IndexMap.totalOf_put state.nativeBalances key entry
    fun entry => (host.parse .xDai entry.value).getD 0
  have held : state.balanceOf host .nativeBalances key =
      ((state.nativeBalances.get? key).map fun entry =>
        (host.parse .xDai entry.value).getD 0).getD 0 := by
    cases here : state.nativeBalances.get? key with
    | none => simp [State.balanceOf, State.amount, State.entry, State.ledger,
        here]
    | some entry => simp [State.balanceOf, State.amount, State.entry,
        State.ledger, Ledger.currency, here]
  rw [held]
  exact moved

theorem Debits.nativeTotal (trips : host.RoundTrips) {key : Option String}
    (debits : Debits host .nativeBalances key amount state after) :
    after.nativeTotal host + amount = state.nativeTotal host := by
  obtain @⟨place, entry, balance, _, here, reads, enough⟩ := debits
  have moved := nativeTotal_write host state place
    { entry with value := host.print .xDai (balance - amount) }
  rw [State.balanceOf, amount_of_get? here, reads, Option.getD_some] at moved
  rw [trips, Option.getD_some] at moved
  have written : (state.write .nativeBalances place
      { entry with
        value := host.print (Ledger.currency .nativeBalances)
          (balance - amount) }).nativeTotal host =
      (state.write .nativeBalances place
        { entry with
          value := host.print .xDai (balance - amount) }).nativeTotal host :=
    rfl
  omega

theorem Deposits.nativeTotal (trips : host.RoundTrips)
    {key typename : String}
    (deposits : Deposits host .nativeBalances key amount typename state
      after) :
    after.nativeTotal host = state.nativeTotal host + amount := by
  have before := deposits.balanceOf trips .nativeBalances key
  rw [amountAt, if_pos ⟨rfl, rfl⟩] at before
  have written : ∃ entry, after = state.write .nativeBalances key entry ∧
      (host.parse .xDai entry.value).getD 0 =
        after.balanceOf host .nativeBalances key := by
    cases deposits with
    | existing here reads =>
        refine ⟨_, rfl, ?_⟩
        rw [State.balanceOf, amount_write, if_pos rfl]
        rfl
    | vacant missing =>
        refine ⟨_, rfl, ?_⟩
        rw [State.balanceOf, amount_write, if_pos rfl]
        rfl
  obtain ⟨entry, rfl, value⟩ := written
  have moved := nativeTotal_write host state key entry
  omega

end Writes

section Transactions

variable {host : Host} {addresses : ContractAddresses} {now : Nat}
  {sender : Address} {state done after : State} {action : Action}

/-- Only a native withdrawal touches the native balances before the fee. -/
theorem Performed.native
    (performed : Performed host addresses now sender state action
      (.ok () done))
    (other : ∀ destination amount payer,
      action ≠ .withdrawNative destination amount payer) :
    done.nativeBalances = state.nativeBalances := by
  cases performed with
  | registered | assigned | reannounced | announced | approved | untracked
  | initialized | finalized | incoming | rebalanced | nowhere => rfl
  | withdrawn kind debit deposit =>
      cases action with
      | withdrawNative destination amount payer =>
          exact absurd rfl (other destination amount payer)
      | withdrawToken =>
          cases kind
          have deposited : done.ledger .nativeBalances = _ :=
            deposit.ledger_of_ne (by decide)
          exact deposited.trans (debit.ledger_of_ne (by decide))
      | _ => cases kind
  | funded staked | opened staked => exact staked.native
  | credited redeems alone safe reads counts =>
      obtain ⟨stats, rfl⟩ := eq_setStats_of_countRedeemed counts
      rfl

theorem Performed.nativeTotal (trips : host.RoundTrips)
    (performed : Performed host addresses now sender state action
      (.ok () done)) :
    done.nativeTotal host = state.nativeTotal host := by
  by_cases native : ∃ destination amount payer,
      action = .withdrawNative destination amount payer
  · obtain ⟨destination, amount, payer, rfl⟩ := native
    cases performed with
    | withdrawn kind debit deposit =>
        cases kind
        have taken := debit.nativeTotal trips
        have given := deposit.nativeTotal trips
        omega
  · have kept := performed.native fun destination amount payer same =>
      native ⟨destination, amount, payer, same⟩
    exact nativeTotal_congr kept

theorem withdrawn_of_performed (trips : host.RoundTrips) {ledger : Ledger}
    {destination : Address} {amount : Nat} {payer : Payer}
    (kind : action.withdrawal = some (ledger, destination, amount, payer))
    (performed : Performed host addresses now sender state action
      (.ok () done))
    (pays : Debits host .nativeBalances (some (hexEncode sender))
      emulatedTxPrice (done.countTx (hexEncode sender)) after) :
    ∃ payerKey, host.payerKey state sender payer = some payerKey ∧
      Withdrawn host sender destination ledger amount payerKey state after := by
  cases performed with
  | @withdrawn _ _ _ _ _ _ debited _ same debit deposit =>
      rw [kind] at same
      cases same
      have placed : ∃ payerKey, host.payerKey state sender payer =
          some payerKey := by
        obtain ⟨placed, _, _, _⟩ := debit
        exact ⟨_, placed⟩
      obtain ⟨payerKey, placed⟩ := placed
      rw [placed] at debit
      refine ⟨payerKey, placed, ?_⟩
      exact
        { covered := debit.covered
          present := by
            by_cases own : ledger = .nativeBalances ∧
                hexEncode destination = hexEncode sender
            · obtain ⟨rfl, same⟩ := own
              rw [same]
              obtain ⟨placed, _, _, _⟩ := pays
              cases placed
              rw [ledger_write, IndexMap.get?_put_self]
              rfl
            · rw [pays.entry own, ledger_countTx]
              exact deposit.present
          balances := by
            intro other key
            have taken := debit.balanceOf trips other key
            have given := deposit.balanceOf trips other key
            have charged := pays.balanceOf trips other key
            rw [balanceOf_congr (ledger_countTx done _ _)] at charged
            omega
          entries := by
            intro other key apart unsigned
            have away : ¬(other = ledger ∧ key = payerKey) :=
              fun both => apart ⟨both.1, .inl both.2⟩
            have far : ¬(other = ledger ∧ key = hexEncode destination) :=
              fun both => apart ⟨both.1, .inr both.2⟩
            rw [pays.entry unsigned, ledger_countTx, deposit.entry far,
              debit.entry away]
          elsewhere :=
            ((debit.elsewhere.trans deposit.elsewhere).trans
              (.countTx _ _)).trans pays.elsewhere }
  | _ => cases kind

/-- A successful withdrawal moves its amount from the payer to the destination
and nothing else but the fee, and every successful action takes just the fee
from the native balances, which the signer pays. -/
theorem withdrawals_and_fees (trips : host.RoundTrips)
    {emulator : FullStateEmulator} {signedTx : List UInt8}
    {sent : Option Action}
    (parses : Parses host emulator state signedTx addresses action sender)
    (ended : updateState host emulator now signedTx state = .ok sent after) :
    (∀ ledger destination amount payer,
      action.withdrawal = some (ledger, destination, amount, payer) →
      ∃ payerKey, host.payerKey state sender payer = some payerKey ∧
        Withdrawn host sender destination ledger amount payerKey state
          after) ∧
    after.nativeTotal host + emulatedTxPrice = state.nativeTotal host ∧
    ((∀ destination amount payer,
        action ≠ .withdrawNative destination amount payer) →
      ∀ key, after.balanceOf host .nativeBalances key +
          amountAt .nativeBalances (hexEncode sender) emulatedTxPrice
            .nativeBalances key =
        state.balanceOf host .nativeBalances key) := by
  obtain ⟨other, performing, signer, done, parsed, performed, pays⟩ :=
    updateState_ok ended
  have same := parsed.1.symm.trans parses.1
  cases same
  have same := parsed.2.symm.trans parses.2
  cases same
  refine ⟨fun ledger destination amount payer kind =>
      withdrawn_of_performed trips kind performed pays, ?_,
    fun notNative key => ?_⟩
  · have charged := pays.nativeTotal trips
    have counted : (done.countTx (hexEncode sender)).nativeTotal host =
        done.nativeTotal host := rfl
    have kept := performed.nativeTotal trips
    omega
  · have charged := pays.balanceOf trips .nativeBalances key
    have kept : (done.countTx (hexEncode sender)).ledger .nativeBalances =
        state.ledger .nativeBalances := performed.native notNative
    rw [balanceOf_congr kept] at charged
    exact charged

/-- Alice has two wei, one for Bob and one for the fee. -/
def payingBob : Host := .standing (.withdrawNative bob 1 .eoa) alice

theorem withdrawals_and_fees_to_bob :
    (∀ after, plain.succeeds payingBob twoNodes
        { now := 0, signedTx := [] } = some after →
      (∃ payerKey, payingBob.payerKey twoNodes alice .eoa = some payerKey ∧
        Withdrawn payingBob alice bob .nativeBalances 1 payerKey twoNodes
          after) ∧
      after.nativeTotal payingBob + emulatedTxPrice =
        twoNodes.nativeTotal payingBob) ∧
    (plain.succeeds payingBob twoNodes { now := 0, signedTx := [] }).isSome =
      true := by
  constructor
  · intro after taken
    obtain ⟨sent, ended⟩ := updateState_of_succeeds taken
    have trips := reference_roundTrips
      fun _ => some (.withdrawNative bob 1 .eoa, alice)
    have parses : Parses payingBob plain twoNodes []
        ⟨Vector.replicate 20 0x9a⟩ (.withdrawNative bob 1 .eoa) alice :=
      ⟨rfl, rfl⟩
    have moved := withdrawals_and_fees trips parses ended
    exact ⟨moved.1 .nativeBalances bob 1 .eoa rfl, moved.2.1⟩
  · decide +kernel

end Transactions

end HoprUtilities.Blokli
