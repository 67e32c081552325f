import HoprUtilities.Blokli.Registry

/-!
# The life of a channel

Which changes of status a successful transaction can make to a stored channel.
A channel that is closed is opened again by funding it, which starts a new
epoch.

Finalizing a closure and redeeming a ticket look at the status of the channel.
Initializing a closure does not, so a closed channel can become pending again
without a new epoch.
-/

namespace HoprUtilities.Blokli

open HoprUtilities.Lib

/-- The ids of the channels between known addresses differ. -/
def Host.DistinctIds (host : Host) (accounts : IndexMap UInt32 Account) :
    Prop :=
  ∀ {first second third fourth : Address},
    (∃ keyid, Owns accounts keyid first) →
    (∃ keyid, Owns accounts keyid second) →
    (∃ keyid, Owns accounts keyid third) →
    (∃ keyid, Owns accounts keyid fourth) →
    host.generateChannelId first second =
      host.generateChannelId third fourth → first = third ∧ second = fourth

section Places

variable {host : Host} {sender : Address} {state : State} {action : Action}
  {done : Bool}

theorem Registry.owns_keyid (registry : Registry host state)
    {left right : Int32} {address : Address}
    (first : Owns state.accounts left address)
    (second : Owns state.accounts right address) : left = right := by
  obtain ⟨key, account, here, number, name⟩ := first
  obtain ⟨other, another, there, numberToo, nameToo⟩ := second
  have same := registry.distinct here there (name.trans nameToo.symm)
  subst same
  rw [here] at there
  cases there
  exact number.symm.trans numberToo

theorem Registry.opens_fresh (registry : Registry host state)
    (finds : host.FindsAccounts) (ids : host.DistinctIds state.accounts)
    {key : String} {channel : Channel}
    (opens : Opens host sender state action key channel) :
    state.channels.get? key = none := by
  obtain ⟨dstAddr, stake, source, destination, _, ⟨_, sends⟩, ⟨_, receives⟩,
    missing, rfl, _⟩ := opens.accounts
  have own := owns_of_account finds sends
  have other := owns_of_account finds receives
  cases here : state.channels.get?
      (hexEncode (host.generateChannelId sender dstAddr)) with
  | none => rfl
  | some existing =>
      obtain ⟨first, second, ownsFirst, ownsSecond, name⟩ :=
        registry.stored here
      obtain ⟨rfl, rfl⟩ := ids ⟨_, own⟩ ⟨_, other⟩ ⟨_, ownsFirst⟩
        ⟨_, ownsSecond⟩ (hexEncode_inj name)
      have unfound := IndexMap.not_test_of_first?_none missing here
      have isSource := registry.owns_keyid ownsFirst own
      have isDestination := registry.owns_keyid ownsSecond other
      simp [Channel.connects, isSource, isDestination] at unfound

/-- In a consistent state every stored channel moves in its place. -/
theorem Registry.moves (registry : Registry host state)
    (finds : host.FindsAccounts) (ids : host.DistinctIds state.accounts)
    {after : IndexMap String Channel}
    (step : ChannelStep host sender state action done after) {key : String}
    {channel : Channel} (here : state.channels.get? key = some channel) :
    ∃ moved, after.get? key = some moved ∧
      Moves host state key action done channel moved := by
  obtain ⟨moved, there, moves | opens⟩ := step.forward here
  · exact ⟨moved, there, moves⟩
  · rw [registry.opens_fresh finds ids opens] at here
    cases here

end Places

def ChannelStatus.allows : ChannelStatus → ChannelStatus → Bool
  | .opened, .pendingToClose => true
  | .opened, .closed => true
  | .pendingToClose, .closed => true
  | .closed, .opened => true
  | _, _ => false

/-- What a transaction may do to a channel. -/
structure Lawful (action : Action) (before after : Channel) : Prop where
  status : after.status ≠ before.status →
    before.status.allows after.status = true
  reopening : before.status = .closed → after.status ≠ .closed →
    (∃ dstAddr stake, action = .fundChannel dstAddr stake) ∧
      after.epoch.toInt = before.epoch.toInt + 1 ∧
      after.ticketIndex = "0" ∧ after.closureTime = none
  epoch : after.epoch ≠ before.epoch →
    before.status = .closed ∧ after.status = .opened ∧
      ∃ dstAddr stake, action = .fundChannel dstAddr stake

section Status

variable {host : Host} {sender : Address} {state : State} {action : Action}

theorem lawful_of_same {before after : Channel}
    (status : after.status = before.status)
    (epoch : after.epoch = before.epoch) : Lawful action before after := by
  constructor
  · intro changed
    exact (changed status).elim
  · intro closed left
    exact (left (status.trans closed)).elim
  · intro changed
    exact (changed epoch).elim

theorem Reopens.lawful {dstAddr : Address} {stake : Nat}
    {channel funded : Channel} (reopens : Reopens channel funded)
    (text : String) :
    Lawful (.fundChannel dstAddr stake) channel
      { funded with balance := text } := by
  cases reopens with
  | live live => exact lawful_of_same rfl rfl
  | again closed next =>
      constructor
      · intro _
        rw [closed]
        rfl
      · intro _ _
        exact ⟨⟨dstAddr, stake, rfl⟩, toInt_of_i32Succ next, rfl, rfl⟩
      · intro _
        exact ⟨closed, rfl, dstAddr, stake, rfl⟩

/-- The action closes a channel that is closed already. -/
def Host.recloses (host : Host) (state : State) : Action → Bool
  | .initializeChannelClosure channelId =>
      (host.channel state channelId).any fun place =>
        decide (place.2.status = .closed)
  | _ => false

theorem Moves.lawful {key : String} {before after : Channel}
    (moves : Moves host state key action true before after)
    (allowed : host.recloses state action = false) :
    Lawful action before after := by
  cases moves with
  | kept | credited | redeemed => exact lawful_of_same rfl rfl
  | funded reopens => exact reopens.lawful _
  | initialized found =>
      have live : before.status ≠ .closed := by
        simpa [Host.recloses, found] using allowed
      constructor
      · intro changed
        cases status : before.status with
        | opened => rfl
        | pendingToClose => exact (changed status.symm).elim
        | closed => exact (live status).elim
      · intro closed
        exact (live closed).elim
      · intro changed
        exact (changed rfl).elim
  | finalized pending =>
      constructor
      · intro _
        rw [pending]
        rfl
      · intro _ left
        exact (left rfl).elim
      · intro changed
        exact (changed rfl).elim
  | incoming =>
      constructor
      · intro changed
        cases status : before.status with
        | opened | pendingToClose => rfl
        | closed => exact (changed status.symm).elim
      · intro _ left
        exact (left rfl).elim
      · intro changed
        exact (changed rfl).elim

end Status

section Calls

variable (host : Host) (emulator : FullStateEmulator)

/-- The state that a call leaves behind, however it ends. -/
def FullStateEmulator.leaves (state : State) (call : Call) : State :=
  halt (updateState host emulator call.now call.signedTx) state

/-- The calls of a run, each with the state in which it is made. -/
def FullStateEmulator.visits : State → List Call → List (State × Call)
  | _, [] => []
  | state, call :: rest =>
      (state, call) :: visits (emulator.leaves host state call) rest

def FullStateEmulator.action? (state : State) (call : Call) : Option Action :=
  (host.contractAddresses state.chainInfo.contractAddresses).bind
    fun addresses =>
      match host.parseTx call.signedTx emulator.moduleAddress addresses with
      | .ok (action, _) => some action
      | .error _ => none

end Calls

section Runs

variable {host : Host} {emulator : FullStateEmulator} {state next : State}
  {call : Call}

theorem action?_of_parses {addresses : ContractAddresses} {action : Action}
    {sender : Address}
    (parses : Parses host emulator state call.signedTx addresses action
      sender) : emulator.action? host state call = some action := by
  obtain ⟨known, parsed⟩ := parses
  simp [FullStateEmulator.action?, known, parsed]

theorem performed_of_succeeds
    (taken : emulator.succeeds host state call = some next) :
    ∃ addresses action sender done,
      emulator.action? host state call = some action ∧
        Performed host addresses call.now sender state action (.ok () done) ∧
        next.channels = done.channels := by
  obtain ⟨sent, ended⟩ := updateState_of_succeeds taken
  obtain ⟨addresses, action, sender, done, parses, performed, pays⟩ :=
    updateState_ok ended
  exact ⟨addresses, action, sender, done, action?_of_parses parses, performed,
    pays.channels⟩

theorem Registry.visits (finds : host.FindsAccounts) :
    ∀ {calls : List Call} {start : State}, Registry host start →
      ∀ visit ∈ emulator.visits host start calls,
        Registry host visit.1 := by
  intro calls
  induction calls with
  | nil =>
      intro start registry visit member
      cases member
  | cons call rest induction =>
      intro start registry visit member
      rcases List.mem_cons.mp member with rfl | later
      · exact registry
      · exact induction (registry.halt finds emulator call.now call.signedTx)
          visit later

/-- The life cycle of the stored channels across a successful call. -/
def Lives (action : Action) (state next : State) : Prop :=
  ∀ key channel, state.channels.get? key = some channel →
    ∃ moved, next.channels.get? key = some moved ∧
      Lawful action channel moved

/-- A successful call follows the life cycle, unless it closes a channel that
is closed already. -/
theorem Registry.lives_iff (registry : Registry host state)
    (finds : host.FindsAccounts) (ids : host.DistinctIds state.accounts)
    {action : Action} (parsed : emulator.action? host state call = some action)
    (taken : emulator.succeeds host state call = some next) :
    Lives action state next ↔ host.recloses state action = false := by
  obtain ⟨addresses, other, sender, done, parses, performed, channels⟩ :=
    performed_of_succeeds taken
  rw [parsed] at parses
  cases parses
  unfold Lives
  rw [channels]
  constructor
  · intro lives
    by_contra recloses
    rw [Bool.not_eq_false] at recloses
    cases performed with
    | @initialized channelId key channel _ found =>
        have closed : channel.status = .closed := by
          simpa [Host.recloses, found] using recloses
        obtain ⟨moved, there, lawful⟩ := lives key channel
          (get?_of_channel found)
        simp only [State.setChannel, IndexMap.get?_put, if_true,
          Option.some.injEq] at there
        subst there
        have allows := lawful.status (by simp [closed])
        rw [closed] at allows
        cases allows
    | withdrawn kind =>
        cases action <;> first | cases recloses | cases kind
    | _ => cases recloses
  · intro allowed key channel here
    obtain ⟨moved, there, moves⟩ := registry.moves finds ids
      performed.channelStep here
    exact ⟨moved, there, moves.lawful allowed⟩

/-- In every run from a consistent state, the successful calls follow the life
cycle exactly when none of them initializes the closure of a closed
channel. -/
theorem life_cycle_iff_no_reclosure (host : Host) (finds : host.FindsAccounts)
    (emulator : FullStateEmulator) (start : State)
    (registry : Registry host start) (calls : List Call)
    (ids : ∀ visit ∈ emulator.visits host start calls,
      host.DistinctIds visit.1.accounts) :
    (∀ state call next action,
        (state, call) ∈ emulator.visits host start calls →
        emulator.succeeds host state call = some next →
        emulator.action? host state call = some action →
        Lives action state next) ↔
      ∀ state call next action,
        (state, call) ∈ emulator.visits host start calls →
        emulator.succeeds host state call = some next →
        emulator.action? host state call = some action →
        host.recloses state action = false := by
  have step : ∀ state call next action,
      (state, call) ∈ emulator.visits host start calls →
      emulator.succeeds host state call = some next →
      emulator.action? host state call = some action →
      (Lives action state next ↔ host.recloses state action = false) := by
    intro state call next action member taken parsed
    exact (registry.visits finds _ member).lives_iff finds (ids _ member)
      parsed taken
  constructor
  · intro lives state call next action member taken parsed
    exact (step state call next action member taken parsed).mp
      (lives state call next action member taken parsed)
  · intro allowed state call next action member taken parsed
    exact (step state call next action member taken parsed).mpr
      (allowed state call next action member taken parsed)

end Runs

section TwoNodes

variable (parsed : List UInt8 → Option (Action × Address))

/-- A state of the two nodes with a channel from the first to the second. -/
theorem registry_setChannel (channel : Channel) (source : channel.source = 1)
    (destination : channel.destination = 2) :
    Registry (.reference parsed) (twoNodes.setChannel
      (hexEncode (joinAddresses alice bob)) channel) := by
  have registry := (twoNodes_consistent (.reference parsed)).registry
  refine ⟨⟨registry.distinct, ?_⟩, registry.keyed⟩
  intro key content here
  rw [State.setChannel, IndexMap.get?_put] at here
  split at here
  · next same =>
      cases here
      rw [source, destination]
      exact ⟨alice, bob, ⟨1, _, rfl, rfl, rfl⟩, ⟨2, _, rfl, rfl, rfl⟩, same⟩
  · cases here

theorem twoNodes_owner {address : Address}
    (known : ∃ keyid, Owns twoNodes.accounts keyid address) :
    address = alice ∨ address = bob := by
  obtain ⟨keyid, key, account, here, _, named⟩ := known
  have names : twoNodes.accounts.entries.all (fun entry =>
      entry.2.chainKey = hexEncode alice ||
        entry.2.chainKey = hexEncode bob) = true := by
    decide +kernel
  simp only [List.all_eq_true, decide_eq_true_eq, Bool.or_eq_true] at names
  rcases names _ (IndexMap.get?_eq_some.mp here) with isAlice | isBob
  · exact .inl (hexEncode_inj (named.symm.trans isAlice))
  · exact .inr (hexEncode_inj (named.symm.trans isBob))

theorem twoNodes_distinctIds :
    (Host.reference parsed).DistinctIds twoNodes.accounts := by
  intro first second third fourth known1 known2 known3 known4 same
  have apart : ([alice, bob].all fun first => [alice, bob].all fun second =>
      [alice, bob].all fun third => [alice, bob].all fun fourth =>
        joinAddresses first second ≠ joinAddresses third fourth ||
          (first = third && second = fourth)) = true := by
    decide +kernel
  simp only [List.all_eq_true, Bool.or_eq_true, Bool.and_eq_true,
    decide_eq_true_eq] at apart
  have member : ∀ {address : Address},
      (∃ keyid, Owns twoNodes.accounts keyid address) →
      address ∈ [alice, bob] := by
    intro address known
    rcases twoNodes_owner known with rfl | rfl <;> simp
  have places := apart first (member known1) second (member known2) third
    (member known3) fourth (member known4)
  exact places.resolve_left (fun differ => differ same)

end TwoNodes

/-- Every transaction initializes the closure of the channel. -/
def initializing (_ : List UInt8) : Option (Action × Address) :=
  some (.initializeChannelClosure (joinAddresses alice bob), alice)

def reclosing : Host := .reference initializing

/-- The closure of the open channel is initialized. -/
theorem open_channel_follows_the_life_cycle :
    ∃ next, plain.succeeds reclosing oneChannel ⟨0, []⟩ = some next ∧
      Lives (.initializeChannelClosure (joinAddresses alice bob)) oneChannel
        next := by
  have passes : (plain.succeeds reclosing oneChannel ⟨0, []⟩).isSome = true := by
    decide +kernel
  obtain ⟨next, taken⟩ := Option.isSome_iff_exists.mp passes
  have live : reclosing.recloses oneChannel
      (.initializeChannelClosure (joinAddresses alice bob)) = false := by
    decide +kernel
  have registry : Registry reclosing oneChannel :=
    registry_setChannel initializing aliceToBob rfl rfl
  have ids : ∀ visit ∈ plain.visits reclosing oneChannel [⟨0, []⟩],
      reclosing.DistinctIds visit.1.accounts := by
    intro visit member
    obtain rfl := List.mem_singleton.mp member
    exact twoNodes_distinctIds initializing
  refine ⟨next, taken, ?_⟩
  apply (life_cycle_iff_no_reclosure reclosing (reference_findsAccounts initializing)
    plain oneChannel registry [⟨0, []⟩] ids).mpr ?_ oneChannel ⟨0, []⟩ next _
    List.mem_cons_self taken rfl
  intro state call after action member _ parsed
  cases List.mem_singleton.mp member
  cases parsed
  exact live

/-- A closed channel becomes pending again, in its old epoch. -/
theorem closed_channel_revived_without_epoch :
    let closed := { aliceToBob with status := .closed }
    let start := twoNodes.setChannel
      (hexEncode (joinAddresses alice bob)) closed
    Registry reclosing start ∧
      ∃ next revived, plain.succeeds reclosing start ⟨0, []⟩ = some next ∧
        next.channels.get? (hexEncode (joinAddresses alice bob)) =
          some revived ∧
        revived.status = .pendingToClose ∧ revived.epoch = closed.epoch ∧
        ¬Lives (.initializeChannelClosure (joinAddresses alice bob)) start
          next := by
  intro closed start
  have passes : (plain.succeeds reclosing start ⟨0, []⟩).any (fun next =>
      (next.channels.get? (hexEncode (joinAddresses alice bob))).any
        fun revived => revived.status = .pendingToClose &&
          revived.epoch = closed.epoch) = true := by
    decide +kernel
  obtain ⟨next, taken, found⟩ := (Option.any_eq_true _ _).mp passes
  obtain ⟨revived, here, facts⟩ := (Option.any_eq_true _ _).mp found
  simp only [Bool.and_eq_true, decide_eq_true_eq] at facts
  refine ⟨registry_setChannel initializing closed rfl rfl, next, revived, taken,
    here, facts.1, facts.2, ?_⟩
  intro lives
  have stored : start.channels.get? (hexEncode (joinAddresses alice bob)) =
      some closed := by
    simp [start, State.setChannel]
  obtain ⟨moved, there, lawful⟩ := lives _ closed stored
  rw [here, Option.some.injEq] at there
  subst there
  have allows := lawful.status (by simp [facts.1, closed])
  rw [facts.1] at allows
  cases allows

end HoprUtilities.Blokli
