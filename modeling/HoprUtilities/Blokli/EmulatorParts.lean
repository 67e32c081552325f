import HoprUtilities.Blokli.Emulator

/-!
# The parts of an update

What the pieces of `update_state` do, one lemma a piece.  A piece that fails
with an error has written nothing; each lemma gives the condition under which
it succeeds and the state it leaves then.
-/

namespace HoprUtilities.Blokli

open HoprUtilities.Lib

section Run

variable {α β : Type} {state : State}

@[simp] theorem get_bind_apply (next : State → Update α) :
    (get >>= next) state = next state state := rfl

@[simp] theorem modify_bind_apply (change : State → State)
    (next : PUnit → Update α) :
    (modify change >>= next) state = next ⟨⟩ (change state) := rfl

@[simp] theorem modify_apply (change : State → State) :
    (modify change : Update PUnit) state = .ok ⟨⟩ (change state) := rfl

@[simp] theorem map_modify_apply (change : State → State) (value : PUnit → α) :
    (value <$> modify change : Update α) state =
      .ok (value ⟨⟩) (change state) := rfl

@[simp] theorem pure_apply (value : α) :
    (pure value : Update α) state = .ok value state := rfl

@[simp] theorem throw_apply (failure : Failure) :
    (throw failure : Update α) state = .error failure state := rfl

@[simp] theorem throw_bind_apply (failure : Failure) (next : α → Update β) :
    ((throw failure : Update α) >>= next) state = .error failure state := rfl

@[simp] theorem refuse_apply (message : String) :
    (refuse message : Update α) state =
      .error (.err { message := message }) state := rfl

@[simp] theorem refuse_bind_apply (message : String) (next : α → Update β) :
    ((refuse message : Update α) >>= next) state =
      .error (.err { message := message }) state := rfl

@[simp] theorem okOr_some (value : α) (message : String) :
    okOr (some value) message = pure value := rfl

@[simp] theorem okOr_none (message : String) :
    (okOr none message : Update α) = refuse message := rfl

@[simp] theorem orPanic_some (value : α) : orPanic (some value) = pure value :=
  rfl

@[simp] theorem orPanic_none : (orPanic none : Update α) = throw .panicked :=
  rfl

theorem ensure_of_true {holds : Prop} [Decidable holds] (fact : holds)
    (message : String) : ensure holds message = pure () :=
  if_pos fact

theorem ensure_of_false {holds : Prop} [Decidable holds] (fact : ¬holds)
    (message : String) : ensure holds message = refuse message :=
  if_neg fact

theorem bind_of_ok {first : Update α} {next : α → Update β} {middle : State}
    {value : α} (ended : first state = .ok value middle) :
    (first >>= next) state = next value middle := by
  change EStateM.bind first next state = _
  rw [EStateM.bind, ended]

theorem bind_of_error {first : Update α} {next : α → Update β}
    {middle : State} {failure : Failure}
    (ended : first state = .error failure middle) :
    (first >>= next) state = .error failure middle := by
  change EStateM.bind first next state = _
  rw [EStateM.bind, ended]

end Run

section Frame

variable (state : State) (ledger : Ledger) (key : String) (entry : TokenValue)

@[simp] theorem accounts_write :
    (state.write ledger key entry).accounts = state.accounts := by
  cases ledger <;> rfl

@[simp] theorem channels_write :
    (state.write ledger key entry).channels = state.channels := by
  cases ledger <;> rfl

@[simp] theorem txCounts_write :
    (state.write ledger key entry).txCounts = state.txCounts := by
  cases ledger <;> rfl

@[simp] theorem ledger_write :
    (state.write ledger key entry).ledger ledger =
      (state.ledger ledger).put key entry := by
  cases ledger <;> rfl

variable {ledger} in
theorem ledger_write_of_ne {other : Ledger} (apart : other ≠ ledger) :
    (state.write ledger key entry).ledger other = state.ledger other := by
  cases ledger <;> cases other <;> first | rfl | exact (apart rfl).elim

variable {state} {ledger} {key} {entry} in
theorem write_of_get? (here : (state.ledger ledger).get? key = some entry) :
    state.write ledger key entry = state := by
  have same := IndexMap.put_of_get? here
  cases ledger with
  | tokenBalances =>
      exact congrArg ({ state with tokenBalances := · }) same
  | nativeBalances =>
      exact congrArg ({ state with nativeBalances := · }) same
  | safeAllowances =>
      exact congrArg ({ state with safeAllowances := · }) same

@[simp] theorem ledger_setChannel (channel : Channel) :
    (state.setChannel key channel).ledger ledger = state.ledger ledger := by
  cases ledger <;> rfl

@[simp] theorem ledger_setStats (stats : RedeemedStats) :
    (state.setStats key stats).ledger ledger = state.ledger ledger := by
  cases ledger <;> rfl

@[simp] theorem ledger_setSafe (safe : Safe) :
    (state.setSafe key safe).ledger ledger = state.ledger ledger := by
  cases ledger <;> rfl

@[simp] theorem ledger_setAccount (place : UInt32) (account : Account) :
    (state.setAccount place account).ledger ledger = state.ledger ledger := by
  cases ledger <;> rfl

@[simp] theorem ledger_countTx :
    (state.countTx key).ledger ledger = state.ledger ledger := by
  cases ledger <;> rfl

end Frame

theorem setAccount_setAccount (state : State) (key : UInt32)
    (first second : Account) :
    (state.setAccount key first).setAccount key second =
      state.setAccount key second := by
  rw [State.setAccount, State.setAccount, IndexMap.put_put]
  rfl

section Amounts

variable (host : Host)

/-- The number that stands under a key of a ledger. -/
def State.amount (state : State) (ledger : Ledger) (key : Option String) :
    Option Nat := do
  let (_, entry) ← state.entry ledger key
  host.parse ledger.currency entry.value

/-- The entry exists, can be read, and holds the amount. -/
def State.holds (state : State) (ledger : Ledger) (key : Option String)
    (amount : Nat) : Bool :=
  (state.amount host ledger key).any (amount ≤ ·)

inductive Debits (ledger : Ledger) (key : Option String) (amount : Nat)
    (state : State) : State → Prop where
  | intro {place : String} {entry : TokenValue} {balance : Nat}
      (placed : key = some place)
      (here : (state.ledger ledger).get? place = some entry)
      (reads : host.parse ledger.currency entry.value = some balance)
      (enough : amount ≤ balance) :
      Debits ledger key amount state (state.write ledger place
        { entry with value := host.print ledger.currency (balance - amount) })

variable {ledger : Ledger} {state : State}

theorem entry_eq_some {key : Option String} {place : String}
    {entry : TokenValue} : state.entry ledger key = some (place, entry) ↔
      key = some place ∧ (state.ledger ledger).get? place = some entry := by
  cases key with
  | none => simp [State.entry]
  | some held =>
      simp only [State.entry, Option.bind_eq_bind, Option.bind_some,
        Option.bind_eq_some_iff, Option.pure_def, Option.some.injEq,
        Prod.mk.injEq]
      constructor
      · rintro ⟨content, here, rfl, rfl⟩
        exact ⟨rfl, here⟩
      · rintro ⟨rfl, here⟩
        exact ⟨entry, here, rfl, rfl⟩

theorem debit_cases (ledger : Ledger) (key : Option String) (amount : Nat)
    (missing unread : String) (low : Nat → String) (state : State) :
    (∃ error, debit host ledger key amount missing unread low state =
        .error (.err error) state ∧
        state.holds host ledger key amount = false) ∨
      ∃ after, debit host ledger key amount missing unread low state =
          .ok () after ∧ Debits host ledger key amount state after ∧
        state.holds host ledger key amount = true := by
  unfold debit
  rw [get_bind_apply]
  cases found : state.entry ledger key with
  | none => exact .inl ⟨_, rfl, by simp [State.holds, State.amount, found]⟩
  | some pair =>
      obtain ⟨place, entry⟩ := pair
      obtain ⟨placed, here⟩ := entry_eq_some.mp found
      cases reads : host.parse ledger.currency entry.value with
      | none =>
          refine .inl ⟨{ message := unread }, ?_, ?_⟩
          · simp [reads]
          · simp [State.holds, State.amount, found, reads]
      | some balance =>
          by_cases enough : amount ≤ balance
          · refine .inr ⟨_, ?_, .intro placed here reads enough, ?_⟩
            · simp [reads, ensure_of_true enough]
            · simp [State.holds, State.amount, found, reads, enough]
          · refine .inl ⟨{ message := low balance }, ?_, ?_⟩
            · simp [reads, ensure_of_false enough]
            · simp [State.holds, State.amount, found, reads, enough]

theorem debitSafe_cases (ledger : Ledger) (sender : Address) (amount : Nat)
    (missing unread : String) (low : Nat → String) (state : State) :
    (∃ error, debitSafe host ledger sender amount missing unread low state =
        .error (.err error) state ∧
        state.holds host ledger (host.getAccountSafe state.accounts sender)
          amount = false) ∨
      ∃ after, debitSafe host ledger sender amount missing unread low state =
          .ok () after ∧
        Debits host ledger (host.getAccountSafe state.accounts sender) amount
          state after ∧
        state.holds host ledger (host.getAccountSafe state.accounts sender)
          amount = true :=
  debit_cases host ledger (host.getAccountSafe state.accounts sender) amount
    missing unread low state

/-- Money comes in: an entry is increased or made. -/
inductive Deposits (host : Host) (ledger : Ledger) (key : String)
    (amount : Nat) (typename : String) (state : State) : State → Prop where
  | existing {entry : TokenValue} {balance : Nat}
      (here : (state.ledger ledger).get? key = some entry)
      (reads : host.parse ledger.currency entry.value = some balance) :
      Deposits host ledger key amount typename state (state.write ledger key
        { entry with value := host.print ledger.currency (balance + amount) })
  | vacant (missing : (state.ledger ledger).get? key = none) :
      Deposits host ledger key amount typename state (state.write ledger key
        { typename := typename, value := host.print ledger.currency amount })

/-- The entry is absent or can be read. -/
def State.accepts (host : Host) (state : State) (ledger : Ledger)
    (key : String) : Bool :=
  ((state.ledger ledger).get? key).all fun entry =>
    (host.parse ledger.currency entry.value).isSome

theorem deposit_cases (ledger : Ledger) (key : String) (amount : Nat)
    (typename unread : String) (state : State) :
    (∃ error, deposit host ledger key amount typename unread state =
        .error (.err error) state ∧
        state.accepts host ledger key = false) ∨
      ∃ after, deposit host ledger key amount typename unread state =
          .ok () after ∧
        Deposits host ledger key amount typename state after ∧
        state.accepts host ledger key = true := by
  unfold deposit
  rw [get_bind_apply]
  cases here : (state.ledger ledger).get? key with
  | none =>
      exact .inr ⟨_, rfl, .vacant here, by simp [State.accepts, here]⟩
  | some entry =>
      cases reads : host.parse ledger.currency entry.value with
      | none =>
          refine .inl ⟨{ message := unread }, ?_, ?_⟩
          · simp [reads]
          · simp [State.accepts, here, reads]
      | some balance =>
          refine .inr ⟨_, ?_, .existing here reads, ?_⟩
          · simp [reads]
          · simp [State.accepts, here, reads]

theorem creditChannel_cases (key : String) (channel : Channel) (amount : Nat)
    (unread : String) (state : State) :
    (∃ error, creditChannel host key channel amount unread state =
        .error (.err error) state ∧
        host.parse .wxHopr channel.balance = none) ∨
      ∃ balance, creditChannel host key channel amount unread state =
          .ok () (state.setChannel key
            { channel with
              balance := host.print .wxHopr (balance + amount) }) ∧
        host.parse .wxHopr channel.balance = some balance := by
  unfold creditChannel
  cases reads : host.parse .wxHopr channel.balance with
  | none => exact .inl ⟨{ message := unread }, by simp, rfl⟩
  | some balance => exact .inr ⟨balance, by simp, rfl⟩

end Amounts

theorem lt_of_u64Succ {value next : UInt64} (succ : u64Succ value =
    some next) : value < next := by
  unfold u64Succ at succ
  split_ifs at succ with fits
  cases succ
  rw [UInt64.lt_iff_toNat_lt, UInt64.toNat_add, UInt64.toNat_one,
    Nat.mod_eq_of_lt fits]
  omega

theorem toInt_of_i32Succ {value next : Int32} (succ : i32Succ value =
    some next) : next.toInt = value.toInt + 1 := by
  unfold i32Succ at succ
  split_ifs at succ with largest
  cases succ
  have below := value.toInt_lt
  have above := value.le_toInt
  have apart : value.toInt ≠ 2147483647 := by
    intro same
    exact largest (Int32.toInt_inj.mp same)
  have one : (1 : Int32).toInt = 1 := rfl
  rw [Int32.toInt_add, one, Int.bmod_eq_of_le] <;> omega

section Channels

/-- A closed channel with everything but the epoch of an open one. -/
def Channel.reset (channel : Channel) : Channel :=
  { channel with status := .opened, ticketIndex := "0", closureTime := none }

/-- The channel that is funded: a closed one starts its next epoch. -/
inductive Reopens : Channel → Channel → Prop where
  | live {channel : Channel} (live : channel.status ≠ .closed) :
      Reopens channel channel
  | again {channel : Channel} {epoch : Int32} (closed : channel.status = .closed)
      (next : i32Succ channel.epoch = some epoch) :
      Reopens channel { channel.reset with epoch := epoch }

theorem setChannel_setChannel (state : State) (key : String)
    (first second : Channel) :
    (state.setChannel key first).setChannel key second =
      state.setChannel key second := by
  rw [State.setChannel, State.setChannel, IndexMap.put_put]
  rfl

theorem reopen_cases {state : State} {key : String} {channel : Channel}
    (here : state.channels.get? key = some channel) :
    (reopen key channel state =
        .error .panicked (state.setChannel key channel.reset) ∧
        channel.status = .closed ∧ i32Succ channel.epoch = none) ∨
      ∃ funded, reopen key channel state =
          .ok funded (state.setChannel key funded) ∧
        Reopens channel funded := by
  unfold reopen
  by_cases closed : channel.status = .closed
  · rw [if_pos closed]
    cases next : i32Succ channel.epoch with
    | none => exact .inl ⟨by simp [Channel.reset], closed, rfl⟩
    | some epoch =>
        refine .inr ⟨_, ?_, .again closed next⟩
        simp [Channel.reset, setChannel_setChannel]
  · rw [if_neg closed]
    refine .inr ⟨channel, ?_, .live closed⟩
    have same : state.setChannel key channel = state := by
      rw [State.setChannel, IndexMap.put_of_get? here]
    rw [same, pure_apply]

end Channels

section Statistics

/-- How the statistics of a Safe take another ticket. -/
inductive StatsFate where
  | unread
  | overflows
  | counts
  deriving DecidableEq

/-- The count that does not fit is noticed after the amount is written. -/
def State.statsFate (host : Host) (state : State) (safeAddr : String) :
    StatsFate :=
  match state.safeRedeemStats.get? safeAddr with
  | none => .counts
  | some stats =>
      match host.parse .wxHopr stats.redeemedAmount,
          parseU64 stats.redemptionCount with
      | some _, some count =>
          if (u64Succ count).isSome then .counts else .overflows
      | _, _ => .unread

theorem setStats_setStats (state : State) (key : String)
    (first second : RedeemedStats) :
    (state.setStats key first).setStats key second =
      state.setStats key second := by
  rw [State.setStats, State.setStats, IndexMap.put_put]
  rfl

theorem countRedeemed_cases (host : Host) (safeAddr : String) (amount : Nat)
    (state : State) :
    (∃ error, countRedeemed host safeAddr amount state =
        .error (.err error) state ∧
        state.statsFate host safeAddr = .unread) ∨
      (∃ stats, countRedeemed host safeAddr amount state =
        .error .panicked (state.setStats safeAddr stats) ∧
        state.statsFate host safeAddr = .overflows) ∨
      ∃ stats, countRedeemed host safeAddr amount state =
          .ok () (state.setStats safeAddr stats) ∧
        state.statsFate host safeAddr = .counts := by
  unfold countRedeemed
  rw [get_bind_apply]
  cases here : state.safeRedeemStats.get? safeAddr with
  | none => exact .inr (.inr ⟨_, rfl, by simp [State.statsFate, here]⟩)
  | some stats =>
      cases redeemed : host.parse .wxHopr stats.redeemedAmount with
      | none =>
          exact .inl ⟨_, by simp [redeemed]; rfl,
            by simp [State.statsFate, here, redeemed]⟩
      | some value =>
          cases counted : parseU64 stats.redemptionCount with
          | none =>
              exact .inl ⟨_, by simp [redeemed, counted]; rfl,
                by simp [State.statsFate, here, redeemed, counted]⟩
          | some count =>
              cases next : u64Succ count with
              | none =>
                  exact .inr (.inl ⟨_, by simp [redeemed, counted, next]; rfl,
                    by simp [State.statsFate, here, redeemed, counted, next]⟩)
              | some count =>
                  have fate : state.statsFate host safeAddr = .counts := by
                    simp [State.statsFate, here, redeemed, counted, next]
                  exact .inr (.inr ⟨_, by
                    simp [redeemed, counted, next, setStats_setStats]
                    rfl, fate⟩)

theorem eq_setStats_of_countRedeemed {host : Host} {safeAddr : String}
    {amount : Nat} {state done : State}
    (counts : countRedeemed host safeAddr amount state = .ok () done) :
    ∃ stats, done = state.setStats safeAddr stats := by
  rcases countRedeemed_cases host safeAddr amount state with
    ⟨_, ended, _⟩ | ⟨_, ended, _⟩ | ⟨stats, ended, _⟩
  · rw [ended] at counts
    cases counts
  · rw [ended] at counts
    cases counts
  · rw [ended] at counts
    cases counts
    exact ⟨stats, rfl⟩

end Statistics

end HoprUtilities.Blokli
