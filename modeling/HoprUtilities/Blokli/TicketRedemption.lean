import HoprUtilities.Blokli.ChannelLifecycle

/-!
# The redeemed tickets

A channel counts its openings in its epoch and the tickets of an epoch in its
ticket index.  Together they only go forward, whatever calls are made and
however they end, so that no ticket is redeemed twice in an epoch.
-/

namespace HoprUtilities.Blokli

open HoprUtilities.Lib

/-- The epoch is raised, or it stays and the ticket index is not lowered. -/
def Advances (before after : Channel) : Prop :=
  before.epoch.toInt < after.epoch.toInt ∨
    (after.epoch = before.epoch ∧
      (after.ticketIndex = before.ticketIndex ∨
        ∃ index later, parseU64 before.ticketIndex = some index ∧
          parseU64 after.ticketIndex = some later ∧ index ≤ later))

section Advances

variable {host : Host} {addresses : ContractAddresses} {now : Nat}
  {sender : Address} {state : State} {action : Action} {done : Bool}

theorem Reopens.advances {channel funded : Channel}
    (reopens : Reopens channel funded) (text : String) :
    Advances channel { funded with balance := text } := by
  cases reopens with
  | live live => exact .inr ⟨rfl, .inl rfl⟩
  | again closed next =>
      have raised := toInt_of_i32Succ next
      exact .inl (by dsimp only; omega)

theorem Moves.advances {key : String} {before after : Channel}
    (moves : Moves host state key action done before after)
    (room : before.status = .closed → before.epoch ≠ Int32.maxValue) :
    Advances before after := by
  cases moves with
  | kept | credited | initialized | unscheduled | finalized | incoming =>
      exact .inr ⟨rfl, .inl rfl⟩
  | redeemed indexed ahead succ =>
      refine .inr ⟨rfl, .inr ⟨_, _, indexed, parseU64_printU64 _, ?_⟩⟩
      exact UInt64.le_trans ahead (UInt64.le_of_lt (lt_of_u64Succ succ))
  | overflowed closed overflow =>
      have largest : before.epoch = Int32.maxValue := by
        simpa [i32Succ] using overflow
      exact (room closed largest).elim
  | reopened reopens => exact reopens.advances after.balance
  | funded reopens => exact reopens.advances _

/-- A ticket that has been taken is behind the index of its channel. -/
theorem Performed.taken {channelId : ChannelId} {ticketIndex : UInt64}
    {amount : Nat} {final : State}
    (performed : Performed host addresses now sender state
      (.redeemTicket channelId ticketIndex amount) (.ok () final)) :
    ∃ key channel paid text,
      Redeems host state channelId ticketIndex amount key channel paid ∧
        final.channels.get? key = some { paid with balance := text } := by
  generalize ended : EStateM.Result.ok () final = result at performed
  cases performed with
  | withdrawn kind | undeposited kind => cases kind
  | unreadOpposite | unreadSafe => cases ended
  | rebalanced redeems found reads =>
      rename_i balance key otherKey channel paid opposite
      cases ended
      refine ⟨key, channel, paid, ?_⟩
      dsimp only [State.setChannel]
      rw [IndexMap.get?_put]
      split
      · next same =>
          -- the channel is opposite to itself
          have there := IndexMap.get?_of_first? found
          rw [← same, State.setChannel, IndexMap.get?_put_self,
            Option.some.injEq] at there
          subst there
          exact ⟨_, redeems, rfl⟩
      · refine ⟨paid.balance, redeems, ?_⟩
        rw [IndexMap.get?_put_self]
  | credited redeems alone safe reads counts =>
      rename_i balance key safeAddr channel paid entry
      refine ⟨key, channel, paid, paid.balance, redeems, ?_⟩
      obtain ⟨stats, rfl⟩ :=
        eq_setStats_of_countRedeemed (counts.trans ended.symm)
      exact IndexMap.get?_put_self ..
  | nowhere redeems alone homeless =>
      rename_i key channel paid
      cases ended
      exact ⟨key, channel, paid, paid.balance, redeems,
        IndexMap.get?_put_self ..⟩

end Advances

/-- A redeemed ticket, with its channel and the epoch of the channel. -/
structure Redemption where
  key : String
  epoch : Int32
  ticketIndex : UInt64
  deriving DecidableEq

section Log

variable (host : Host) (emulator : FullStateEmulator)

/-- The ticket that a successful call redeems. -/
def FullStateEmulator.redemption? (state : State) (call : Call) :
    Option Redemption :=
  match emulator.succeeds host state call,
      emulator.action? host state call with
  | some _, some (.redeemTicket channelId ticketIndex _) =>
      (host.channel state channelId).map fun place =>
        ⟨place.1, place.2.epoch, ticketIndex⟩
  | _, _ => none

/-- The tickets redeemed in a run, in their order. -/
def FullStateEmulator.redemptions (start : State) (calls : List Call) :
    List Redemption :=
  (emulator.visits host start calls).filterMap fun visit =>
    emulator.redemption? host visit.1 visit.2

end Log

/-- A state in which channels keep their places and can be opened again. -/
structure Steady (host : Host) (state : State) : Prop where
  registry : Registry host state
  ids : host.DistinctIds state.accounts
  room : ∀ {key channel}, state.channels.get? key = some channel →
    channel.status = .closed → channel.epoch ≠ Int32.maxValue

section Tickets

variable {host : Host} {emulator : FullStateEmulator} {state : State}
  {call : Call}

/-- No call lowers the ticket index of a channel without a new epoch. -/
theorem Steady.advances (finds : host.FindsAccounts)
    (steady : Steady host state) {key : String} {channel : Channel}
    (here : state.channels.get? key = some channel) :
    ∃ moved, (emulator.leaves host state call).channels.get? key =
        some moved ∧ Advances channel moved := by
  unfold FullStateEmulator.leaves
  rcases updateState_step host emulator call.now call.signedTx state with
    same | ⟨_, _, _, _, _, _, step⟩
  · rw [same]
    exact ⟨channel, here, .inr ⟨rfl, .inl rfl⟩⟩
  · obtain ⟨moved, there, moves⟩ :=
      steady.registry.moves finds steady.ids step here
    exact ⟨moved, there, moves.advances (steady.room here)⟩

/-- A redeemed ticket is not behind the index of its channel, and is behind it
after the call. -/
theorem redemption?_spec {ticket : Redemption}
    (redeemed : emulator.redemption? host state call = some ticket) :
    ∃ channel index moved next,
      state.channels.get? ticket.key = some channel ∧
        channel.epoch = ticket.epoch ∧
        parseU64 channel.ticketIndex = some index ∧
        index ≤ ticket.ticketIndex ∧
        (emulator.leaves host state call).channels.get? ticket.key =
          some moved ∧
        moved.epoch = ticket.epoch ∧
        parseU64 moved.ticketIndex = some next ∧
        ticket.ticketIndex < next := by
  unfold FullStateEmulator.redemption? at redeemed
  split at redeemed
  · next after channelId ticketIndex amount taken parsed =>
      obtain ⟨_, _, _, done, parses, performed, channels⟩ :=
        performed_of_succeeds taken
      rw [parsed] at parses
      cases parses
      obtain ⟨key, channel, paid, text, redeems, there⟩ := performed.taken
      rw [redeems.found] at redeemed
      cases redeemed
      have here := redeems.get?
      rw [← channels, ← halt_of_succeeds taken] at there
      obtain ⟨_, _, indexed, ahead, _, _, succ⟩ := redeems
      exact ⟨channel, _, _, _, here, rfl, indexed, ahead, there, rfl,
        parseU64_printU64 _, lt_of_u64Succ succ⟩
  · cases redeemed

theorem mem_redemptions_cons {calls : List Call} {ticket : Redemption} :
    ticket ∈ emulator.redemptions host state (call :: calls) ↔
      emulator.redemption? host state call = some ticket ∨
        ticket ∈ emulator.redemptions host
          (emulator.leaves host state call) calls := by
  simp [FullStateEmulator.redemptions, FullStateEmulator.visits]

/-- Tickets are redeemed in the epoch of the channel or in a later one. -/
theorem epoch_le_of_mem_redemptions (finds : host.FindsAccounts)
    {calls : List Call} :
    ∀ {state : State} {channel : Channel} {ticket : Redemption},
      (∀ visit ∈ emulator.visits host state calls, Steady host visit.1) →
      state.channels.get? ticket.key = some channel →
      ticket ∈ emulator.redemptions host state calls →
      channel.epoch.toInt ≤ ticket.epoch.toInt := by
  induction calls with
  | nil =>
      intro state channel ticket steady here member
      cases member
  | cons call rest induction =>
      intro state channel ticket steady here member
      rcases mem_redemptions_cons.mp member with now | later
      · obtain ⟨found, _, _, _, there, epoch, _⟩ := redemption?_spec now
        rw [here] at there
        cases there
        exact Int.le_of_eq (congrArg Int32.toInt epoch)
      · obtain ⟨moved, there, advances⟩ :=
          (steady _ List.mem_cons_self).advances finds here
        have bound := induction
          (fun visit member => steady visit (List.mem_cons_of_mem _ member))
          there later
        rcases advances with raised | ⟨same, _⟩
        · omega
        · rw [← same]
          exact bound

/-- Within the epoch of the channel, no ticket is behind its index. -/
theorem index_le_of_mem_redemptions (finds : host.FindsAccounts)
    {calls : List Call} :
    ∀ {state : State} {channel : Channel} {ticket : Redemption}
      {index : UInt64},
      (∀ visit ∈ emulator.visits host state calls, Steady host visit.1) →
      state.channels.get? ticket.key = some channel →
      parseU64 channel.ticketIndex = some index →
      ticket ∈ emulator.redemptions host state calls →
      ticket.epoch = channel.epoch → index ≤ ticket.ticketIndex := by
  induction calls with
  | nil =>
      intro state channel ticket index steady here indexed member
      cases member
  | cons call rest induction =>
      intro state channel ticket index steady here indexed member epoch
      rcases mem_redemptions_cons.mp member with now | later
      · obtain ⟨found, _, _, _, there, _, same, ahead, _⟩ :=
          redemption?_spec now
        rw [here] at there
        cases there
        rw [indexed] at same
        cases same
        exact ahead
      · have rest : ∀ visit ∈ emulator.visits host
            (emulator.leaves host state call) rest, Steady host visit.1 :=
          fun visit member => steady visit (List.mem_cons_of_mem _ member)
        obtain ⟨moved, there, advances⟩ :=
          (steady _ List.mem_cons_self).advances finds here
        rcases advances with raised | ⟨same, unchanged | ⟨old, new, reads,
          readsNew, ordered⟩⟩
        · have bound := epoch_le_of_mem_redemptions finds rest there later
          rw [epoch] at bound
          omega
        · exact induction rest there (unchanged ▸ indexed) later
            (epoch.trans same.symm)
        · rw [indexed] at reads
          cases reads
          exact UInt64.le_trans ordered
            (induction rest there readsNew later (epoch.trans same.symm))

/-- In one epoch the tickets of a channel are redeemed in increasing order. -/
theorem redemptions_pairwise (finds : host.FindsAccounts)
    {calls : List Call} :
    ∀ {start : State},
      (∀ visit ∈ emulator.visits host start calls, Steady host visit.1) →
      (emulator.redemptions host start calls).Pairwise
        fun first second => first.key = second.key →
          first.epoch = second.epoch →
          first.ticketIndex < second.ticketIndex := by
  induction calls with
  | nil =>
      intro start steady
      exact .nil
  | cons call rest induction =>
      intro start steady
      have later := fun visit member =>
        steady visit (List.mem_cons_of_mem _ member)
      have tail := induction later
      unfold FullStateEmulator.redemptions FullStateEmulator.visits
      rw [List.filterMap_cons]
      split
      · exact tail
      · next ticket redeemed =>
          refine List.pairwise_cons.mpr ⟨?_, tail⟩
          intro second member key epoch
          obtain ⟨_, _, moved, next, _, _, _, _, there, same, reads, ahead⟩ :=
            redemption?_spec redeemed
          rw [key] at there
          have bound := index_le_of_mem_redemptions finds later there reads
            member (epoch.symm.trans same.symm)
          exact UInt64.lt_of_lt_of_le ahead bound

/-- From a consistent state, with channel ids that do not collide and epochs
that do not overflow, no ticket is redeemed twice in an epoch, and no call
lowers a ticket index without a new epoch. -/
theorem no_ticket_redeemed_twice (host : Host) (finds : host.FindsAccounts)
    (emulator : FullStateEmulator) (start : State)
    (registry : Registry host start) (calls : List Call)
    (ids : ∀ visit ∈ emulator.visits host start calls,
      host.DistinctIds visit.1.accounts)
    (room : ∀ visit ∈ emulator.visits host start calls, ∀ key channel,
      visit.1.channels.get? key = some channel → channel.status = .closed →
      channel.epoch ≠ Int32.maxValue) :
    ((emulator.redemptions host start calls).Pairwise
        fun first second => first.key = second.key →
          first.epoch = second.epoch →
          first.ticketIndex < second.ticketIndex) ∧
      ∀ visit ∈ emulator.visits host start calls, ∀ key channel,
        visit.1.channels.get? key = some channel →
        ∃ moved, (emulator.leaves host visit.1 visit.2).channels.get? key =
            some moved ∧ Advances channel moved := by
  have steady : ∀ visit ∈ emulator.visits host start calls,
      Steady host visit.1 := by
    intro visit member
    constructor
    · exact registry.visits finds visit member
    · exact ids visit member
    · intro key channel here closed
      exact room visit member key channel here closed
  constructor
  · exact redemptions_pairwise finds steady
  · intro visit member key channel here
    exact (steady visit member).advances finds here

end Tickets

/-- Every transaction redeems the ticket of the length of its text. -/
def redeeming (signedTx : List UInt8) : Option (Action × Address) :=
  some (.redeemTicket (joinAddresses alice bob)
    (UInt64.ofNat signedTx.length) 1, alice)

/-- Two tickets of the channel are redeemed, the second one after a try with
the first one again. -/
theorem two_tickets_redeemed :
    plain.redemptions (.reference redeeming) oneChannel
        [⟨0, []⟩, ⟨0, []⟩, ⟨0, [7]⟩] =
      [⟨hexEncode (joinAddresses alice bob), 1, 0⟩,
        ⟨hexEncode (joinAddresses alice bob), 1, 1⟩] ∧
    ((plain.redemptions (.reference redeeming) oneChannel
        [⟨0, []⟩, ⟨0, []⟩, ⟨0, [7]⟩]).Pairwise
      fun first second => first.key = second.key →
        first.epoch = second.epoch →
        first.ticketIndex < second.ticketIndex) := by
  refine ⟨by decide +kernel, ?_⟩
  have unclosed : (plain.visits (.reference redeeming) oneChannel
      [⟨0, []⟩, ⟨0, []⟩, ⟨0, [7]⟩]).all (fun visit =>
        visit.1.channels.entries.all fun entry =>
          entry.2.status ≠ .closed) = true := by
    decide +kernel
  have unmoved : (plain.visits (.reference redeeming) oneChannel
      [⟨0, []⟩, ⟨0, []⟩, ⟨0, [7]⟩]).all (fun visit =>
        visit.1.accounts.entries = twoNodes.accounts.entries) = true := by
    decide +kernel
  simp only [List.all_eq_true, decide_eq_true_eq] at unclosed unmoved
  refine (no_ticket_redeemed_twice (.reference redeeming)
    (reference_findsAccounts redeeming) plain oneChannel
    (registry_setChannel redeeming aliceToBob rfl rfl)
    [⟨0, []⟩, ⟨0, []⟩, ⟨0, [7]⟩] ?_ ?_).1
  · intro visit member
    rw [IndexMap.ext_entries (unmoved visit member)]
    exact twoNodes_distinctIds redeeming
  · intro visit member key channel here closed
    exact (unclosed visit member _ (IndexMap.get?_eq_some.mp here)
      closed).elim

end HoprUtilities.Blokli
