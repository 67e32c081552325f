import HoprUtilities.Blokli.Funding
import HoprUtilities.Lib.Totals

/-!
# The channels as a machine

What the emulated contract is for, as far as channels go, in the terms of the
connector: a book of channels with numbers for their balances, ticket indices
and epochs, and five things that can happen to it.  There are no texts here, no
accounts and no key ids, and a channel is found by its id alone.

Whatever happens, the balance of a channel is what has been paid in less what
has been paid out.
-/

namespace HoprUtilities.Blokli.Connector

open HoprUtilities.Lib

/-- The channels by id, each filed under the id of its two addresses. -/
structure ChannelBook (generateChannelId : Address → Address → ChannelId) where
  entry : ChannelId → Option ChannelEntry
  filed : ∀ {channelId channel}, entry channelId = some channel →
    generateChannelId channel.source channel.destination = channelId

/-- What can happen.  A closure that is initiated comes with its time. -/
inductive ChannelAction where
  | fund (source destination : Address) (stake : Nat)
  | initiate (channelId : ChannelId) (closureTime : Nat)
  | finalize (channelId : ChannelId)
  | incoming (channelId : ChannelId)
  | redeem (channelId : ChannelId) (ticketIndex : UInt64) (amount : Nat)
  deriving DecidableEq

namespace ChannelBook

variable {generateChannelId : Address → Address → ChannelId}

theorem ext {left right : ChannelBook generateChannelId}
    (same : left.entry = right.entry) : left = right := by
  obtain ⟨entries, _⟩ := left
  cases same
  rfl

def write (book : ChannelBook generateChannelId) (channel : ChannelEntry) :
    ChannelBook generateChannelId where
  entry := Function.update book.entry
    (generateChannelId channel.source channel.destination) (some channel)
  filed := by
    intro channelId content here
    rw [Function.update_apply] at here
    split at here
    · next same =>
        cases here
        exact same.symm
    · exact book.filed here

def opening (source destination : Address) (stake : Nat) : ChannelEntry where
  source := source
  destination := destination
  balance := stake
  ticketIndex := 0
  status := .opened
  channelEpoch := 1

/-- Epochs are signed on the chain. -/
def lastEpoch : UInt32 := 2147483647

def fund (book : ChannelBook generateChannelId) (source destination : Address)
    (stake : Nat) : Option (ChannelBook generateChannelId) :=
  if stake = 0 then none
  else
    match book.entry (generateChannelId source destination) with
    | none => some (book.write (opening source destination stake))
    | some channel =>
        if channel.status = .closed ∧ channel.channelEpoch = lastEpoch then none
        else some (book.write (channel.fund stake))

def setStatus (book : ChannelBook generateChannelId) (channelId : ChannelId)
    (status : ChannelStatus) : Option (ChannelBook generateChannelId) :=
  (book.entry channelId).map fun channel =>
    book.write { channel with status := status }

/-- Only a closure that is pending is finalized. -/
def finalize (book : ChannelBook generateChannelId) (channelId : ChannelId) :
    Option (ChannelBook generateChannelId) :=
  match book.entry channelId with
  | some channel =>
      match channel.status with
      | .pendingToClose _ =>
          some (book.write { channel with status := .closed })
      | _ => none
  | none => none

def credit (book : ChannelBook generateChannelId) (channelId : ChannelId)
    (amount : Nat) : ChannelBook generateChannelId :=
  match book.entry channelId with
  | some channel =>
      book.write { channel with balance := channel.balance + amount }
  | none => book

/-- The amount of a ticket goes to the channel the other way, if there is
one. -/
def redeem (book : ChannelBook generateChannelId) (channelId : ChannelId)
    (ticketIndex : UInt64) (amount : Nat) :
    Option (ChannelBook generateChannelId) :=
  match book.entry channelId with
  | some channel =>
      if channel.status ≠ .closed ∧ channel.ticketIndex ≤ ticketIndex ∧
          amount ≤ channel.balance ∧ ticketIndex.toNat + 1 < UInt64.size then
        some
          ((book.write
            { channel with
              ticketIndex := ticketIndex + 1
              balance := channel.balance - amount }).credit
            (generateChannelId channel.destination channel.source) amount)
      else none
  | none => none

def step (book : ChannelBook generateChannelId) :
    ChannelAction → Option (ChannelBook generateChannelId)
  | .fund source destination stake => book.fund source destination stake
  | .initiate channelId closureTime =>
      book.setStatus channelId (.pendingToClose closureTime)
  | .finalize channelId => book.finalize channelId
  | .incoming channelId => book.setStatus channelId .closed
  | .redeem channelId ticketIndex amount =>
      book.redeem channelId ticketIndex amount

def balanceOf (book : ChannelBook generateChannelId) (channelId : ChannelId) :
    Nat :=
  ((book.entry channelId).map ChannelEntry.balance).getD 0

/-- What an action pays into a channel. -/
def paidIn (book : ChannelBook generateChannelId) (channelId : ChannelId) :
    ChannelAction → Nat
  | .fund source destination stake =>
      if generateChannelId source destination = channelId then stake else 0
  | .redeem redeemed _ amount =>
      match book.entry redeemed with
      | some channel =>
          if generateChannelId channel.destination channel.source =
              channelId ∧ (book.entry channelId).isSome = true then amount
          else 0
      | none => 0
  | _ => 0

/-- What an action pays out of a channel. -/
def paidOut (channelId : ChannelId) : ChannelAction → Nat
  | .redeem redeemed _ amount => if redeemed = channelId then amount else 0
  | _ => 0

/-- What a run pays into a channel. -/
def inflow (channelId : ChannelId) :
    List ChannelAction → ChannelBook generateChannelId → Nat
  | [], _ => 0
  | action :: rest, book =>
      book.paidIn channelId action +
        ((book.step action).map (inflow channelId rest)).getD 0

def outflow (channelId : ChannelId) (actions : List ChannelAction) : Nat :=
  total (paidOut channelId) actions

section Balances

variable {book next : ChannelBook generateChannelId}
  {channelId : ChannelId} {channel : ChannelEntry}

theorem entry_write (book : ChannelBook generateChannelId)
    (channel : ChannelEntry) (channelId : ChannelId) :
    (book.write channel).entry channelId =
      if channelId =
          generateChannelId channel.source channel.destination then
        some channel
      else book.entry channelId :=
  Function.update_apply ..

theorem balanceOf_write (book : ChannelBook generateChannelId)
    (channel : ChannelEntry) (channelId : ChannelId) :
    (book.write channel).balanceOf channelId =
      if generateChannelId channel.source channel.destination = channelId then
        channel.balance
      else book.balanceOf channelId := by
  unfold balanceOf
  rw [entry_write]
  by_cases same : channelId =
      generateChannelId channel.source channel.destination
  · simp [same]
  · simp [same, Ne.symm same]

theorem balanceOf_of_entry (here : book.entry channelId = some channel) :
    book.balanceOf channelId = channel.balance := by
  simp [balanceOf, here]

theorem isSome_write (here : book.entry channelId = some channel)
    {moved : ChannelEntry} (source : moved.source = channel.source)
    (destination : moved.destination = channel.destination)
    (other : ChannelId) :
    ((book.write moved).entry other).isSome = (book.entry other).isSome := by
  rw [entry_write, source, destination, book.filed here]
  split
  · next same => simp [same, here]
  · rfl

theorem credit_of_none (missing : book.entry channelId = none)
    (amount : Nat) : book.credit channelId amount = book := by
  rw [credit, missing]

theorem balanceOf_credit (book : ChannelBook generateChannelId)
    (credited : ChannelId) (amount : Nat) (channelId : ChannelId) :
    (book.credit credited amount).balanceOf channelId =
      book.balanceOf channelId +
        if credited = channelId ∧ (book.entry channelId).isSome = true then
          amount
        else 0 := by
  unfold credit
  cases here : book.entry credited with
  | none =>
      by_cases same : credited = channelId
      · simp [← same, here]
      · simp [same]
  | some channel =>
      have filed := book.filed here
      dsimp only
      rw [balanceOf_write]
      dsimp only
      rw [filed]
      by_cases same : credited = channelId
      · simp [← same, here, balanceOf_of_entry here]
      · simp [same]

theorem balanceOf_rewrite (here : book.entry channelId = some channel)
    {moved : ChannelEntry} (source : moved.source = channel.source)
    (destination : moved.destination = channel.destination)
    (other : ChannelId) :
    (book.write moved).balanceOf other =
      if channelId = other then moved.balance else book.balanceOf other := by
  rw [balanceOf_write, source, destination, book.filed here]

theorem fund_ends (channel : ChannelEntry) (stake : Nat) :
    (channel.fund stake).source = channel.source ∧
      (channel.fund stake).destination = channel.destination ∧
      (channel.fund stake).balance = channel.balance + stake := by
  unfold ChannelEntry.fund
  split <;> exact ⟨rfl, rfl, rfl⟩

theorem balanceOf_fund {source destination : Address} {stake : Nat}
    (taken : book.fund source destination stake = some next)
    (channelId : ChannelId) :
    next.balanceOf channelId = book.balanceOf channelId +
      book.paidIn channelId (.fund source destination stake) := by
  unfold fund at taken
  split_ifs at taken with positive
  dsimp only [paidIn]
  split at taken
  · next missing =>
      cases taken
      rw [balanceOf_write]
      dsimp only [opening]
      by_cases same : generateChannelId source destination = channelId
      · simp [← same, balanceOf, missing]
      · simp [same]
  · next channel here =>
      split_ifs at taken
      cases taken
      obtain ⟨source, destination, balance⟩ := fund_ends channel stake
      rw [balanceOf_rewrite here source destination, balance]
      split
      · next same => rw [← same, balanceOf_of_entry here]
      · exact (Nat.add_zero _).symm

theorem balanceOf_redeem {redeemed : ChannelId} {ticketIndex : UInt64}
    {amount : Nat} (taken : book.redeem redeemed ticketIndex amount = some next)
    (channelId : ChannelId) :
    next.balanceOf channelId +
        paidOut channelId (.redeem redeemed ticketIndex amount) =
      book.balanceOf channelId +
        book.paidIn channelId (.redeem redeemed ticketIndex amount) := by
  unfold redeem at taken
  split at taken
  · next channel here =>
      split_ifs at taken with passes
      cases taken
      obtain ⟨_, _, enough, _⟩ := passes
      dsimp only [paidIn, paidOut]
      rw [here, balanceOf_credit, isSome_write here, balanceOf_rewrite here]
      · dsimp only
        by_cases own : redeemed = channelId
        · rw [if_pos own, if_pos own, ← own, balanceOf_of_entry here]
          omega
        · rw [if_neg own, if_neg own, Nat.add_zero]
      all_goals rfl
  · cases taken

theorem balanceOf_setStatus {changed : ChannelId} {status : ChannelStatus}
    (taken : book.setStatus changed status = some next)
    (channelId : ChannelId) :
    next.balanceOf channelId = book.balanceOf channelId := by
  obtain ⟨channel, here, same⟩ := Option.map_eq_some_iff.mp taken
  subst same
  rw [balanceOf_rewrite here]
  · split
    · next same => rw [← same, balanceOf_of_entry here]
    · rfl
  all_goals rfl

theorem setStatus_of_finalize
    (taken : book.finalize channelId = some next) :
    book.setStatus channelId .closed = some next := by
  unfold finalize at taken
  split at taken
  · next channel here =>
      split at taken
      · cases taken
        simp [setStatus, here]
      · cases taken
  · cases taken

theorem balanceOf_step {action : ChannelAction}
    (taken : book.step action = some next) (channelId : ChannelId) :
    next.balanceOf channelId + paidOut channelId action =
      book.balanceOf channelId + book.paidIn channelId action := by
  cases action with
  | fund source destination stake => exact balanceOf_fund taken channelId
  | initiate changed time => exact balanceOf_setStatus taken channelId
  | finalize changed =>
      exact balanceOf_setStatus (setStatus_of_finalize taken) channelId
  | incoming changed => exact balanceOf_setStatus taken channelId
  | redeem redeemed ticketIndex amount =>
      exact balanceOf_redeem taken channelId

theorem balanceOf_run {actions : List ChannelAction}
    {start final : ChannelBook generateChannelId}
    (ended : run step actions start = some final) (channelId : ChannelId) :
    final.balanceOf channelId + outflow channelId actions =
      start.balanceOf channelId + inflow channelId actions start := by
  induction actions generalizing start with
  | nil =>
      cases ended
      rfl
  | cons action rest induction =>
      obtain ⟨next, taken, tail⟩ := Option.bind_eq_some_iff.mp ended
      have later := induction tail
      have now := balanceOf_step taken channelId
      rw [outflow, total_cons, inflow, taken, Option.map_some, Option.getD_some]
      rw [outflow] at later
      omega

end Balances

end ChannelBook

end HoprUtilities.Blokli.Connector
