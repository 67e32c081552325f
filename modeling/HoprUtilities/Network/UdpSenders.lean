import HoprUtilities.Network.UdpCounterparty

/-!
# The sender tasks

A sender task takes a buffer from the egress queue and looks at the
counterparty.  If it is not set, the task gives up for good: each buffer that
was written too early can cost one task.  With fewer such buffers than tasks
one task is left when the counterparty is set, and with as many none may be.
-/

namespace HoprUtilities.Network.Udp

open HoprUtilities.Lib

variable {α : Type}

/-- The steps of the sender tasks, with what they take from the queue. -/
inductive SenderStep (state : State α) : State α → Prop where
  | taken {index : Nat} {data : Bytes} {rest : List Bytes}
      (current : state.senders[index]? = some .waiting)
      (queue : state.egress = data :: rest) :
      SenderStep state
        { state.setSender index (.resolving data) with egress := rest }
  | disconnected {index : Nat} (current : state.senders[index]? = some .waiting)
      (closed : state.egressClosed = true) :
      SenderStep state (state.setSender index .finished)
  | targeted {index : Nat} {data : Bytes} {target : α}
      (current : state.senders[index]? = some (.resolving data))
      (set : state.counterparty = some target) :
      SenderStep state
        { state.setSender index (.sending data target) with
          sent := state.sent ++ [(index, target, data)] }
  | unset {index : Nat} {data : Bytes}
      (current : state.senders[index]? = some (.resolving data))
      (unset : state.counterparty = none) :
      SenderStep state (state.setSender index .finished)
  | transmitted {index : Nat} {data : Bytes} {target : α}
      (current : state.senders[index]? = some (.sending data target)) :
      SenderStep state (state.setSender index .waiting)
  | cancelled {index : Nat} {pc : TxPc α}
      (current : state.senders[index]? = some pc)
      (aborted : state.aborted = true) :
      SenderStep state (state.setSender index .finished)

/-- The steps of the receiver tasks, as far as the senders see them. -/
structure ReceiverStep (state next : State α) : Prop where
  senders : next.senders = state.senders
  egress : next.egress = state.egress
  closed : next.egressClosed = state.egressClosed
  aborted : next.aborted = state.aborted
  sent : next.sent = state.sent
  lock : ∀ address, state.counterparty = some address →
    next.counterparty = some address

/-- A step of a task, not one of the owner. -/
def Label.isTask : Label α → Bool
  | .write _ | .close | .abort => false
  | _ => true

section Inversion

variable {setup : Setup α} {state next : State α} {label : Label α}

theorem senderStep_of_txStep {index : Nat} {pc : TxPc α}
    (current : state.senders[index]? = some pc)
    (taken : state.txStep index pc label = some next) :
    SenderStep state next := by
  cases label with
  | take _ =>
      simp only [State.txStep] at taken
      split at taken
      · next data rest queue =>
          cases taken
          exact .taken current queue
      · cases taken
  | disconnected _ =>
      simp only [State.txStep] at taken
      split at taken
      · next closed =>
          cases taken
          exact .disconnected current closed
      · cases taken
  | target _ =>
      simp only [State.txStep] at taken
      split at taken
      · next data target set =>
          cases taken
          exact .targeted current set
      · next data unset =>
          cases taken
          exact .unset current unset
      · cases taken
  | transmitted _ =>
      simp only [State.txStep] at taken
      split at taken
      · next data target =>
          cases taken
          exact .transmitted current
      · cases taken
  | cancelSender _ =>
      simp only [State.txStep] at taken
      split_ifs at taken with awaits
      cases taken
      simp only [Bool.and_eq_true] at awaits
      exact .cancelled current awaits.1
  | receive | resolve | dispatch | write | close | abort
  | cancelReceiver => cases taken

variable [DecidableEq α]

theorem receiverStep_of_rxStep {index : Nat} {task : RxTask α}
    (taken : state.rxStep setup index task label = some next) :
    ReceiverStep state next := by
  cases label with
  | receive _ arrival =>
      simp only [State.rxStep] at taken
      split at taken
      · cases taken
        exact ⟨rfl, rfl, rfl, rfl, rfl, fun _ set => set⟩
      · cases taken
  | resolve _ =>
      simp only [State.rxStep] at taken
      split at taken
      · cases taken
        refine ⟨rfl, rfl, rfl, rfl, rfl, ?_⟩
        intro address set
        simp [set]
      · cases taken
  | dispatch _ sent =>
      simp only [State.rxStep] at taken
      split at taken
      · cases taken
        exact ⟨rfl, rfl, rfl, rfl, rfl, fun _ set => set⟩
      · cases taken
  | cancelReceiver _ =>
      simp only [State.rxStep] at taken
      split_ifs at taken
      cases taken
      exact ⟨rfl, rfl, rfl, rfl, rfl, fun _ set => set⟩
  | take | disconnected | target | transmitted | write | close | abort
  | cancelSender => cases taken

theorem taskStep_of_step (task : label.isTask = true)
    (taken : state.step setup label = some next) :
    ReceiverStep state next ∨ SenderStep state next := by
  cases label with
  | receive | resolve | dispatch | cancelReceiver =>
      obtain ⟨_, _, rest⟩ := Option.bind_eq_some_iff.mp taken
      exact .inl (receiverStep_of_rxStep rest)
  | take | disconnected | target | transmitted | cancelSender =>
      obtain ⟨_, current, rest⟩ := Option.bind_eq_some_iff.mp taken
      exact .inr (senderStep_of_txStep current rest)
  | write | close | abort => cases task

end Inversion

/-- The stream with the number of buffers that were written before the
counterparty was set. -/
structure Watched (α : Type) where
  stream : State α
  early : Nat
  deriving DecidableEq, Repr

namespace Watched

def start (setup : Setup α) (receivers senders : Nat) : Watched α where
  stream := State.start setup receivers senders
  early := 0

def counts (watched : Watched α) : Label α → Bool
  | .write _ => watched.stream.counterparty.isNone
  | _ => false

def step [DecidableEq α] (setup : Setup α) (watched : Watched α) (label : Label α) :
    Option (Watched α) :=
  (watched.stream.step setup label).map fun next =>
    { stream := next
      early :=
        if watched.counts label then watched.early + 1 else watched.early }

end Watched

/-- While the stream is open and the counterparty is set, there is a task that
can send. -/
def State.Usable (state : State α) : Prop :=
  state.counterparty.isSome = true → state.egressClosed = false →
    state.aborted = false → ∃ pc ∈ state.senders, pc ≠ .finished

def TxPc.gone : TxPc α → Nat
  | .finished => 1
  | _ => 0

def TxPc.holds : TxPc α → Nat
  | .resolving _ => 1
  | _ => 0

/-- The tasks that are gone, and those that the early buffers can still
cost. -/
def State.cost (state : State α) : Nat :=
  total TxPc.gone state.senders +
    if state.counterparty.isSome then 0
    else total TxPc.holds state.senders + state.egress.length

/-- As long as the stream is open, every lost task has its early buffer. -/
structure Watched.Budget (senders : Nat) (watched : Watched α) : Prop where
  size : watched.stream.senders.length = senders
  cost : watched.stream.egressClosed = false →
    watched.stream.aborted = false → watched.stream.cost ≤ watched.early

section Budget

variable {setup : Setup α} {state next : State α}

theorem cost_of_receiverStep (step : ReceiverStep state next) :
    next.cost ≤ state.cost := by
  unfold State.cost
  rw [step.senders, step.egress]
  cases known : state.counterparty with
  | none => split <;> simp
  | some address => simp [step.lock address known]

theorem cost_of_senderStep (step : SenderStep state next)
    (opened : state.egressClosed = false) (running : state.aborted = false) :
    next.cost ≤ state.cost := by
  unfold State.cost
  cases step with
  | taken current queue =>
      rename_i index data rest
      have gone := total_set TxPc.gone (.resolving data) current
      have holds := total_set TxPc.holds (.resolving data) current
      simp only [TxPc.gone, TxPc.holds] at gone holds
      simp only [State.setSender, queue, List.length_cons]
      split_ifs <;> omega
  | disconnected current closed =>
      rw [opened] at closed
      cases closed
  | targeted current set =>
      rename_i index data target
      have gone := total_set TxPc.gone (.sending data target) current
      simp only [TxPc.gone] at gone
      simp only [State.setSender, set, Option.isSome_some, if_true]
      omega
  | unset current unset =>
      have gone := total_set TxPc.gone .finished current
      have holds := total_set TxPc.holds .finished current
      simp only [TxPc.gone, TxPc.holds] at gone holds
      simp only [State.setSender, unset, Option.isSome_none,
        Bool.false_eq_true, if_false]
      omega
  | transmitted current =>
      have gone := total_set TxPc.gone .waiting current
      have holds := total_set TxPc.holds .waiting current
      simp only [TxPc.gone, TxPc.holds] at gone holds
      cases known : state.counterparty with
      | none =>
          simp only [State.setSender, known, Option.isSome_none,
            Bool.false_eq_true, if_false]
          omega
      | some address =>
          simp only [State.setSender, known, Option.isSome_some, if_true]
          omega
  | cancelled current aborted =>
      rw [running] at aborted
      cases aborted

theorem Watched.Budget.step [DecidableEq α] {senders : Nat} {watched after : Watched α}
    {label : Label α} (budget : watched.Budget senders)
    (taken : watched.step setup label = some after) :
    after.Budget senders := by
  obtain ⟨stream, stepped, same⟩ := Option.map_eq_some_iff.mp taken
  subst same
  obtain ⟨size, cost⟩ := budget
  cases task : label.isTask with
  | true =>
      have early : watched.counts label = false := by
        cases label <;> first | rfl | cases task
      rw [early]
      rcases taskStep_of_step task stepped with receiver | sender
      · constructor
        · dsimp only
          rw [receiver.senders]
          exact size
        · intro opened running
          rw [receiver.closed] at opened
          rw [receiver.aborted] at running
          exact Nat.le_trans (cost_of_receiverStep receiver)
            (cost opened running)
      · constructor
        · cases sender <;> simpa [State.setSender] using size
        · intro opened running
          have before : watched.stream.egressClosed = false ∧
              watched.stream.aborted = false := by
            cases sender <;> exact ⟨opened, running⟩
          exact Nat.le_trans (cost_of_senderStep sender before.1 before.2)
            (cost before.1 before.2)
  | false =>
      cases label with
      | write data =>
          simp only [State.step] at stepped
          split_ifs at stepped
          cases stepped
          refine ⟨size, ?_⟩
          intro opened running
          have before := cost opened running
          cases known : watched.stream.counterparty with
          | none =>
              simp [State.cost, Watched.counts, known] at before ⊢
              omega
          | some address =>
              simp [State.cost, Watched.counts, known] at before ⊢
              omega
      | close =>
          cases stepped
          refine ⟨size, ?_⟩
          intro opened
          cases opened
      | abort =>
          cases stepped
          refine ⟨size, ?_⟩
          intro _ running
          cases running
      | _ => cases task

theorem Watched.Budget.start (setup : Setup α) (receivers senders : Nat) :
    (Watched.start setup receivers senders).Budget senders := by
  have idle : ∀ weight : TxPc α → Nat, weight .waiting = 0 →
      total weight (List.replicate senders .waiting) = 0 := by
    intro weight zero
    apply total_eq_zero
    intro pc member
    rw [List.eq_of_mem_replicate member, zero]
  constructor
  · simp [Watched.start, State.start]
  · intro _ _
    simp [State.cost, Watched.start, State.start, idle TxPc.gone rfl,
      idle TxPc.holds rfl]

theorem Watched.Budget.usable {senders : Nat} {watched : Watched α}
    (budget : watched.Budget senders) (fewer : watched.early < senders) :
    watched.stream.Usable := by
  intro _ opened running
  have bound := budget.cost opened running
  have left : total TxPc.gone watched.stream.senders <
      watched.stream.senders.length := by
    rw [budget.size]
    unfold State.cost at bound
    omega
  obtain ⟨pc, member, here⟩ := exists_of_total_lt left
  refine ⟨pc, member, ?_⟩
  intro finished
  rw [finished] at here
  cases here

end Budget

section Exhaust

variable [DecidableEq α] {setup : Setup α}

theorem gives_up {watched : Watched α} {index : Nat}
    (unset : watched.stream.counterparty = none)
    (opened : watched.stream.egressClosed = false)
    (empty : watched.stream.egress = [])
    (current : watched.stream.senders[index]? = some .waiting) :
    Reachable (Watched.step setup) watched
      { stream := watched.stream.setSender index .finished
        early := watched.early + 1 } := by
  have inside := (List.getElem?_eq_some_iff.mp current).1
  have written : watched.step setup (.write []) = some
      { stream := { watched.stream with egress := [[]] }
        early := watched.early + 1 } := by
    simp [Watched.step, State.step, Watched.counts, unset, opened, empty]
  have taken : Watched.step setup
      { stream := { watched.stream with egress := [[]] }
        early := watched.early + 1 } (.take index) = some
      { stream := watched.stream.setSender index (.resolving [])
        early := watched.early + 1 } := by
    simp [Watched.step, State.step, State.txStep, Watched.counts, current,
      State.setSender, empty]
  have left : Watched.step setup
      { stream := watched.stream.setSender index (.resolving [])
        early := watched.early + 1 } (.target index) = some
      { stream := watched.stream.setSender index .finished
        early := watched.early + 1 } := by
    simp [Watched.step, State.step, State.txStep, Watched.counts, inside,
      State.setSender, unset]
  exact ((Reachable.refl.snoc written).snoc taken).snoc left

theorem set_replicate {τ : Type} (old new : τ) (gone left : Nat) :
    (List.replicate gone new ++ List.replicate (left + 1) old).set gone new =
      List.replicate (gone + 1) new ++ List.replicate left old := by
  have last : List.replicate (gone + 1) new =
      List.replicate gone new ++ [new] := List.replicate_succ'
  rw [List.set_append_right _ _ (by simp), last]
  simp [List.replicate_succ]

theorem reachable_exhausted (unset : setup.counterparty = none)
    (receivers : Nat) {gone left : Nat} :
    Reachable (Watched.step setup) (.start setup receivers (gone + left))
      { stream :=
          { State.start setup receivers 0 with
            senders := List.replicate gone .finished ++
              List.replicate left .waiting }
        early := gone } := by
  induction gone generalizing left with
  | zero =>
      rw [Nat.zero_add]
      exact Reachable.refl
  | succ gone induction =>
      have before := @induction (left + 1)
      have current : (List.replicate gone (.finished : TxPc α) ++
          List.replicate (left + 1) .waiting)[gone]? = some .waiting := by
        rw [List.getElem?_append_right (by simp)]
        simp
      have after := before.trans (gives_up unset rfl rfl current)
      rw [show gone + 1 + left = gone + (left + 1) by omega]
      simpa only [State.setSender, set_replicate] using after

theorem sets_counterparty {start watched : Watched α}
    (reached : Reachable (Watched.step setup) start watched)
    (unset : watched.stream.counterparty = none)
    (current : watched.stream.receivers[0]? = some .start)
    (room : 0 < setup.bufSize) (source : α) :
    ∃ receivers, Reachable (Watched.step setup) start
      { stream :=
          { watched.stream with
            counterparty := some source, receivers := receivers }
        early := watched.early } := by
  have inside := (List.getElem?_eq_some_iff.mp current).1
  have heard : RxPc.received setup.bufSize (.datagram ⟨source, [0]⟩) =
      .resolving source [0] := by
    obtain ⟨size, positive⟩ := Nat.exists_eq_succ_of_ne_zero
      (Nat.pos_iff_ne_zero.mp room)
    simp [RxPc.received, Datagram.read, positive]
  have received : watched.step setup
      (.receive 0 (.datagram ⟨source, [0]⟩)) = some
      { stream := watched.stream.setReceiver 0
          ⟨[.datagram ⟨source, [0]⟩], .resolving source [0]⟩
        early := watched.early } := by
    simp [Watched.step, State.step, State.rxStep, Watched.counts, current,
      RxTask.start, heard]
  have resolved : Watched.step setup
      { stream := watched.stream.setReceiver 0
          ⟨[.datagram ⟨source, [0]⟩], .resolving source [0]⟩
        early := watched.early } (.resolve 0) = some
      { stream :=
          { watched.stream with
            counterparty := some source
            receivers := watched.stream.receivers.set 0
              ⟨[.datagram ⟨source, [0]⟩],
                RxPc.resolved setup.mode source source [0]⟩ }
        early := watched.early } := by
    simp [Watched.step, State.step, State.rxStep, Watched.counts, inside,
      State.setReceiver, unset, RxTask.goto]
  exact ⟨_, (reached.snoc received).snoc resolved⟩

theorem exists_unusable (unset : setup.counterparty = none)
    {receivers : Nat} (receives : 0 < receivers) (room : 0 < setup.bufSize)
    (senders : Nat) (source : α) :
    ∃ final, Reachable (Watched.step setup) (.start setup receivers senders)
        final ∧ final.early = senders ∧ ¬final.stream.Usable := by
  have gone : Reachable (Watched.step setup)
      (.start setup receivers (senders + 0)) _ :=
    reachable_exhausted unset receivers
  have idle : (State.start setup receivers 0).receivers[0]? =
      some .start := by
    simp [State.start, receives]
  obtain ⟨tasks, set⟩ := sets_counterparty gone unset idle room source
  refine ⟨_, set, rfl, ?_⟩
  intro usable
  obtain ⟨pc, member, left⟩ := usable rfl rfl rfl
  rw [List.replicate_zero, List.append_nil] at member
  exact left (List.eq_of_mem_replicate member)

end Exhaust

/-- In every run with fewer early buffers than tasks the stream stays usable.
As many early buffers as tasks can make it unusable, unless the counterparty is
configured. -/
theorem usable_with_few_early_writes [DecidableEq α] (setup : Setup α)
    (receivers senders : Nat) :
    (∀ final, Reachable (Watched.step setup) (.start setup receivers senders)
        final → final.early < senders → final.stream.Usable) ∧
      (setup.counterparty = none → 0 < receivers → 0 < setup.bufSize →
        ∀ _ : α, ∃ final, Reachable (Watched.step setup)
          (.start setup receivers senders) final ∧ final.early = senders ∧
          ¬final.stream.Usable) := by
  constructor
  · intro final reachable fewer
    have budget := reachable.invariant
      (fun _ _ _ taken (budget : Watched.Budget senders _) =>
        budget.step taken)
      (.start setup receivers senders)
    exact budget.usable fewer
  · intro unset receives room source
    exact exists_unusable unset receives room senders source

/-- A buffer is written and taken before the first datagram arrives. -/
def earlyWrite : List (Label Nat) :=
  [.write [1], .take 0, .target 0, .receive 0 (.datagram ⟨7, [2]⟩),
    .resolve 0]

/-- Of two tasks one is left. -/
theorem second_sender_left :
    ∃ final, run (Watched.step unconfigured) earlyWrite
        (.start unconfigured 1 2) = some final ∧
      final.early = 1 ∧ final.stream.counterparty = some 7 ∧
      final.stream.Usable := by
  have passed : (run (Watched.step unconfigured) earlyWrite
      (.start unconfigured 1 2)).any (fun final =>
        final.early == 1 && final.stream.counterparty == some 7) = true := by
    decide
  obtain ⟨final, ended, facts⟩ := exists_run _ passed
  simp only [Bool.and_eq_true, beq_iff_eq] at facts
  exact ⟨final, ended, facts.1, facts.2,
    (usable_with_few_early_writes unconfigured 1 2).1 final ⟨_, ended⟩
      (by omega)⟩

/-- The only task is gone when the counterparty is set. -/
theorem only_sender_lost :
    ∃ final, run (State.step unconfigured) earlyWrite
        (State.start unconfigured 1 1) = some final ∧
      final.counterparty = some 7 ∧ final.egressClosed = false ∧
      final.aborted = false ∧ final.senders = [.finished] ∧
      ¬final.Usable := by
  have passed : (run (State.step unconfigured) earlyWrite
      (State.start unconfigured 1 1)).any (fun final =>
        final.counterparty == some 7 && final.egressClosed == false &&
          final.aborted == false && final.senders == [.finished]) = true := by
    decide
  obtain ⟨final, ended, facts⟩ := exists_run _ passed
  simp only [Bool.and_eq_true, beq_iff_eq] at facts
  obtain ⟨⟨⟨set, opened⟩, running⟩, senders⟩ := facts
  refine ⟨final, ended, set, opened, running, senders, ?_⟩
  intro usable
  obtain ⟨pc, member, left⟩ := usable (by simp [set]) opened running
  rw [senders, List.mem_singleton] at member
  exact left member

end HoprUtilities.Network.Udp
