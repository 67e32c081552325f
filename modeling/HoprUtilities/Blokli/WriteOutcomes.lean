import HoprUtilities.Blokli.Writes
import HoprUtilities.Lib.Transition

/-!
# What comes of a write

In every run of writes under injected faults, the phase of a call tells where
its transaction is, and no transaction is submitted twice.  The faults count
the calls at their gates.  What a call reads at its gate, and its confirmation
at the end, settles what comes of it, and later changes of the faults do not
help.
-/

namespace HoprUtilities.Blokli

open HoprUtilities.Lib
open HoprUtilities.Blokli.Connector

variable {κ μ : Type}

section Step

variable {writer : Writer κ μ} {mempool : κ → Mempool}
  {state next : WriteState κ} {label : WriteStep μ}

/-- Where the transaction of a call is, as far as the phase of the call
tells. -/
inductive Handed where
  | nowhere
  | somewhere
  | executed
  | refused
  deriving DecidableEq, Repr

def WritePhase.handed : WritePhase → Handed
  | .returned (.submission _) => .refused
  | .called | .counted | .hung | .passed | .returned _ => .nowhere
  | .submitted _ => .somewhere
  | .watching _ | .seen | .silent | .confirmed | .unconfirmed _ => .executed

/-- Every transaction that has been submitted. -/
def Mempool.submissions (self : Mempool) : List Nat :=
  self.pool ++ (self.executed ++ self.refused.map Prod.fst)

def Mempool.Holds (self : Mempool) (index : Nat) : Handed → Prop
  | .nowhere => index ∉ self.submissions
  | .somewhere => index ∈ self.submissions
  | .executed => index ∈ self.executed
  | .refused => index ∈ self.refused.map Prod.fst

/-- Nothing that has happened to a transaction is forgotten. -/
structure Mempool.Extends (before after : Mempool) : Prop where
  executed : before.executed ⊆ after.executed
  refused : before.refused ⊆ after.refused

theorem Mempool.Extends.refl (self : Mempool) : self.Extends self :=
  ⟨List.Subset.refl _, List.Subset.refl _⟩

/-- No transaction is submitted twice, and phases tell where it is. -/
structure WriteState.Booked (mempool : κ → Mempool) (state : WriteState κ) :
    Prop where
  once : (mempool state.chain).submissions.Nodup
  inside : ∀ index ∈ (mempool state.chain).submissions,
    index < state.calls.length
  holds : ∀ {index : Nat} {call : WriteCall},
    state.calls[index]? = some call →
    (mempool state.chain).Holds index call.phase.handed

namespace Mempool

variable {before after : Mempool} {index : Nat}

theorem Holds.mono {handed : Handed} (holds : before.Holds index handed)
    (same : index ∈ after.submissions ↔ index ∈ before.submissions)
    (extends_ : before.Extends after) : after.Holds index handed := by
  cases handed with
  | nowhere => exact fun member => holds (same.mp member)
  | somewhere => exact same.mpr holds
  | executed => exact extends_.executed holds
  | refused => exact List.map_subset Prod.fst extends_.refused holds

theorem pooled (pending : index ∈ before.pool) :
    before.submissions.Perm (index :: (before.pool.erase index ++
      (before.executed ++ before.refused.map Prod.fst))) :=
  (List.perm_cons_erase pending).append_right _

theorem submissions_submit (self : Mempool) (index : Nat) :
    (self.submit index).submissions.Perm (index :: self.submissions) := by
  simp only [submissions, submit, List.append_assoc]
  exact List.perm_middle

theorem extends_submit (self : Mempool) (index : Nat) :
    self.Extends (self.submit index) :=
  ⟨List.Subset.refl _, List.Subset.refl _⟩

/-- The chain moves transactions and loses none. -/
theorem Looks.submissions (looks : before.Looks after) :
    after.submissions.Perm before.submissions := by
  cases looks with
  | idle => exact List.Perm.refl _
  | @executes index pending =>
      have moved : (before.execute index).submissions.Perm
          (index :: (before.pool.erase index ++ (before.executed ++
            before.refused.map Prod.fst))) := by
        simp only [Mempool.submissions, execute]
        rw [List.append_assoc, ← List.append_assoc,
          ← List.append_assoc (before.pool.erase index)]
        exact List.perm_middle
      exact moved.trans (pooled pending).symm
  | @refuses index error pending =>
      have moved : (before.refuse index error).submissions.Perm
          (index :: (before.pool.erase index ++ (before.executed ++
            before.refused.map Prod.fst))) := by
        simp only [Mempool.submissions, refuse]
        rw [List.map_append, ← List.append_assoc, ← List.append_assoc,
          ← List.append_assoc]
        exact List.perm_append_singleton _ _
      exact moved.trans (pooled pending).symm

theorem Looks.extends_ (looks : before.Looks after) :
    before.Extends after := by
  cases looks with
  | idle => exact .refl _
  | executes => exact ⟨List.subset_append_left _ _, List.Subset.refl _⟩
  | refuses => exact ⟨List.Subset.refl _, List.subset_append_left _ _⟩

end Mempool

/-- An error of the call itself, not of the chain or the test. -/
def WriteError.own : WriteError → Bool
  | .injected _ | .submission _ => false
  | .notConnected | .notFound _ | .alreadyClosed _ | .payload _ => true

/-- Whatever goes wrong here is an error of the call itself. -/
def FailsOwn {α : Type} (result : Except WriteError α) : Prop :=
  ∀ error, result = .error error → error.own = true

theorem failsOwn_ok {α : Type} (value : α) : FailsOwn (Except.ok value) := by
  intro error failed
  cases failed

theorem failsOwn_error {α : Type} {error : WriteError}
    (own : error.own = true) : FailsOwn (Except.error error : Except _ α) := by
  intro same failed
  cases failed
  exact own

theorem FailsOwn.bind {α β : Type} {first : Except WriteError α}
    {rest : α → Except WriteError β} (early : FailsOwn first)
    (late : ∀ value, FailsOwn (rest value)) : FailsOwn (first >>= rest) := by
  intro error failed
  cases outcome : first with
  | error reason =>
      rw [outcome] at failed
      cases failed
      exact early error outcome
  | ok value =>
      rw [outcome] at failed
      exact late value error failed

theorem Writer.generate_failsOwn (payload : Payload) :
    FailsOwn (writer.generate payload) := by
  unfold Writer.generate
  split_ifs
  · split
    · exact failsOwn_error rfl
    · exact failsOwn_ok _
  · exact failsOwn_error rfl

theorem Writer.find_failsOwn (channels : IndexMap ChannelId ChannelEntry)
    (channelId : ChannelId) : FailsOwn (Writer.find channels channelId) := by
  unfold Writer.find
  split
  · exact failsOwn_ok _
  · exact failsOwn_error rfl

theorem Writer.closure_failsOwn (channelId : ChannelId)
    (channel : ChannelEntry) : FailsOwn (writer.closure channelId channel) := by
  unfold Writer.closure
  split
  · exact generate_failsOwn _
  · exact generate_failsOwn _
  · exact failsOwn_error rfl

theorem Writer.prepare_failsOwn (channels : IndexMap ChannelId ChannelEntry)
    (request : WriteRequest) : FailsOwn (writer.prepare channels request) := by
  cases request with
  | openChannel dst amount =>
      apply (generate_failsOwn _).bind
      exact fun _ => failsOwn_ok _
  | fundChannel channelId amount =>
      apply (find_failsOwn channels channelId).bind
      intro channel
      apply (generate_failsOwn _).bind
      exact fun _ => failsOwn_ok _
  | closeChannel channelId =>
      apply (find_failsOwn channels channelId).bind
      intro channel
      apply (closure_failsOwn channelId channel).bind
      exact fun _ => failsOwn_ok _

theorem Progresses.handed {request : WriteRequest} {old new : WritePhase}
    (progresses : Progresses writer state request old new) :
    new.handed = old.handed := by
  cases progresses with
  | @unprepared error prepared =>
      have own := Writer.prepare_failsOwn _ _ error prepared
      cases error with
      | injected _ | submission _ => cases own
      | notConnected | notFound _ | alreadyClosed _ | payload _ => rfl
  | counted | passed _ | failed _ | hung _ | caughtUp _ | expired
  | confirmed _ | unconfirmed _ | silent _ => rfl

namespace WriteState.Booked

theorem begin {chain : κ} (fresh : mempool chain = .empty)
    (faults : ChainFaults) (channels : IndexMap ChannelId ChannelEntry) :
    (WriteState.begin faults channels chain).Booked mempool where
  once := by
    rw [WriteState.begin, fresh]
    exact List.nodup_nil
  inside index member := by
    rw [WriteState.begin, fresh] at member
    cases member
  holds here := by simp [WriteState.begin] at here

/-- The call that moves says where its transaction is; the others stay
right. -/
theorem move {index : Nat} {call new : WriteCall}
    (booked : state.Booked mempool)
    (calls : next.calls = state.calls.set index new)
    (here : state.calls[index]? = some call)
    (once : (mempool next.chain).submissions.Nodup)
    (same : ∀ other, other ≠ index →
      (other ∈ (mempool next.chain).submissions ↔
        other ∈ (mempool state.chain).submissions))
    (extends_ : (mempool state.chain).Extends (mempool next.chain))
    (moved : (mempool next.chain).Holds index new.phase.handed) :
    next.Booked mempool where
  once := once
  inside := by
    have bound := (List.getElem?_eq_some_iff.mp here).1
    intro other member
    rw [calls, List.length_set]
    by_cases apart : other = index
    · rw [apart]
      exact bound
    · exact booked.inside other ((same other apart).mp member)
  holds := by
    intro other thread there
    rw [calls] at there
    rcases getElem?_set_cases there with ⟨rfl, rfl⟩ | ⟨apart, old⟩
    · exact moved
    · exact (booked.holds old).mono (same other apart) extends_

/-- A call moves without its transaction. -/
theorem stay {index : Nat} {call new : WriteCall}
    (booked : state.Booked mempool)
    (calls : next.calls = state.calls.set index new)
    (chain : next.chain = state.chain)
    (here : state.calls[index]? = some call)
    (moved : (mempool state.chain).Holds index new.phase.handed) :
    next.Booked mempool := by
  apply booked.move calls here
  all_goals rw [chain]
  · exact booked.once
  · exact fun _ _ => Iff.rfl
  · exact .refl _
  · exact moved

theorem look (booked : state.Booked mempool)
    (calls : next.calls = state.calls)
    (looks : (mempool state.chain).Looks (mempool next.chain)) :
    next.Booked mempool where
  once := looks.submissions.nodup_iff.mpr booked.once
  inside index member := by
    rw [calls]
    exact booked.inside index (looks.submissions.mem_iff.mp member)
  holds here := by
    rw [calls] at here
    exact (booked.holds here).mono looks.submissions.mem_iff looks.extends_

theorem step (honest : writer.client.Honest mempool)
    (booked : state.Booked mempool)
    (writes : Writes writer state label next) : next.Booked mempool := by
  cases writes with
  | changed _ => exact ⟨booked.once, booked.inside, booked.holds⟩
  | cached _ => exact ⟨booked.once, booked.inside, booked.holds⟩
  | called request =>
      refine ⟨booked.once, ?_, ?_⟩
      · intro index member
        have bound := booked.inside index member
        simp only [List.length_append, List.length_singleton]
        omega
      · intro index call here
        rcases getElem?_concat_cases here with old | ⟨last, rfl⟩
        · exact booked.holds old
        · intro member
          have bound := booked.inside index member
          omega
  | worked moves => exact booked.look rfl (honest.work moves)
  | @advanced index call phase _ faults caller here alive progresses records =>
      refine stay booked rfl rfl here ?_
      have still := booked.holds here
      rw [← progresses.handed] at still
      exact still
  | @submitted index call prepared here alive passed ready =>
      have unsent := booked.holds here
      rw [passed] at unsent
      have perm := (mempool state.chain).submissions_submit index
      apply booked.move rfl here
      all_goals
        dsimp only
        rw [honest.submit]
      · exact perm.nodup_iff.mpr (List.nodup_cons.mpr ⟨unsent, booked.once⟩)
      · intro other apart
        exact perm.mem_iff.trans (List.mem_cons.trans (or_iff_right apart))
      · exact Mempool.extends_submit _ index
      · exact perm.mem_iff.mpr List.mem_cons_self
  | landed here alive waiting done =>
      exact booked.stay rfl rfl here (honest.executed done)
  | rejected here alive waiting done =>
      exact booked.stay rfl rfl here
        (List.mem_map.mpr ⟨_, honest.refused done, rfl⟩)
  | @dropped _ call here alive suspended =>
      have still : (mempool state.chain).Holds _ call.phase.handed :=
        booked.holds here
      exact booked.stay rfl rfl here still

end WriteState.Booked

theorem booked_of_run (honest : writer.client.Honest mempool) {chain : κ}
    (fresh : mempool chain = .empty) {faults : ChainFaults}
    {channels : IndexMap ChannelId ChannelEntry}
    {labels : List (WriteStep μ)} {final : WriteState κ}
    (ran : run (WriteState.step writer) labels
      (.begin faults channels chain) = some final) : final.Booked mempool :=
  run_invariant
    (fun _ _ _ taken booked => booked.step honest (writes_of_step taken)) ran
    (WriteState.Booked.begin fresh faults channels)

/-- A transaction is submitted at most once, and the phase of its call tells
whether the chain has executed it, has refused it, or has never seen it. -/
theorem phase_tells_outcome (honest : writer.client.Honest mempool) {chain : κ}
    (fresh : mempool chain = .empty) {faults : ChainFaults}
    {channels : IndexMap ChannelId ChannelEntry}
    {labels : List (WriteStep μ)} {final : WriteState κ}
    (ran : run (WriteState.step writer) labels
      (.begin faults channels chain) = some final) :
    (mempool final.chain).submissions.Nodup ∧
      ∀ {index : Nat} {call : WriteCall}, final.calls[index]? = some call →
        (mempool final.chain).Holds index call.phase.handed := by
  have booked := booked_of_run honest fresh ran
  exact ⟨booked.once, booked.holds⟩

theorem Progresses.entered {request : WriteRequest} {old new : WritePhase}
    (progresses : Progresses writer state request old new) : new ≠ .called := by
  cases progresses <;> exact WritePhase.noConfusion

/-- A call counts for its operation once it has come to its gate. -/
def WriteCall.counts (op : ChainOp) (call : WriteCall) : Nat :=
  if call.request.op = op ∧ call.phase ≠ .called then 1 else 0

/-- The calls in the faults grow with those that come to their gates. -/
theorem counts_of_writes (writes : Writes writer state label next)
    (op : ChainOp) :
    next.faults.callsOf op + total (WriteCall.counts op) state.calls =
      state.faults.callsOf op + total (WriteCall.counts op) next.calls := by
  -- a call that goes on, past its gate or not
  have same : ∀ {index : Nat} {call new : WriteCall},
      state.calls[index]? = some call →
      new.counts op = call.counts op →
      state.faults.callsOf op + total (WriteCall.counts op) state.calls =
        state.faults.callsOf op +
          total (WriteCall.counts op) (state.calls.set index new) := by
    intro index call new here kept
    have moved := total_set (WriteCall.counts op) new here
    omega
  cases writes with
  | changed change =>
      simp only [ChainFaults.callsOf, ChainFaults.calls_change]
  | cached _ | worked _ => rfl
  | called request =>
      simp [WriteCall.counts]
  | @advanced index call phase _ faults caller here alive progresses records =>
      by_cases first : call.phase = .called
      · rw [if_pos first] at records
        have moved := total_set (WriteCall.counts op)
          { call with phase := phase } here
        have unseen : call.counts op = 0 := by simp [WriteCall.counts, first]
        have seen : WriteCall.counts op { call with phase := phase } =
            if call.request.op = op then 1 else 0 := by
          rw [first] at progresses
          cases progresses
          simp [WriteCall.counts]
        dsimp only [WriteState.setPhase]
        rw [records, ChainFaults.callsOf_record]
        omega
      · rw [if_neg first] at records
        subst records
        apply same here
        simp [WriteCall.counts, first, progresses.entered]
  | submitted here alive passed ready =>
      exact same here (by simp [WriteCall.counts, passed])
  | landed here alive waiting done =>
      exact same here (by simp [WriteCall.counts, waiting])
  | rejected here alive waiting done =>
      exact same here (by simp [WriteCall.counts, waiting])
  | dropped here alive suspended => exact same here rfl

/-- Every call is counted when it comes to its gate, once, whatever the gate
then does to it. -/
theorem calls_counted_at_gate {labels : List (WriteStep μ)}
    {faults : ChainFaults} {channels : IndexMap ChannelId ChannelEntry}
    {chain : κ} {final : WriteState κ}
    (ran : run (WriteState.step writer) labels
      (.begin faults channels chain) = some final) (op : ChainOp) :
    final.faults.callsOf op =
      faults.callsOf op + total (WriteCall.counts op) final.calls := by
  have closed : ∀ (state : WriteState κ) (label : WriteStep μ)
      (next : WriteState κ), state.step writer label = some next →
      state.faults.callsOf op =
        faults.callsOf op + total (WriteCall.counts op) state.calls →
      next.faults.callsOf op =
        faults.callsOf op + total (WriteCall.counts op) next.calls := by
    intro state label next taken counted
    have grown := counts_of_writes (writes_of_step taken) op
    omega
  exact run_invariant closed ran rfl

/-- A place where a call looks at the faults.  What it reads there settles
its phase, and `verdict` how. -/
structure Look (writer : Writer κ μ) where
  reads : ChainFaults → ChainOp → Resolution
  touched : FaultChange → Option ChainOp
  settled : WritePhase → Bool
  verdict : ChainOp → Resolution → WritePhase → Prop
  reads_change : ∀ {faults : ChainFaults} {op : ChainOp} {change : FaultChange},
    touched change ≠ some op →
    reads (faults.change change) op = reads faults op
  reads_record : ∀ {faults : ChainFaults} {op other : ChainOp},
    reads (faults.record other) op = reads faults op
  settles : ∀ {state : WriteState κ} {request : WriteRequest}
    {old new : WritePhase}, Turns writer state request old new →
    settled old = false → settled new = true →
    verdict request.op (reads state.faults request.op) new
  stands : ∀ {state : WriteState κ} {request : WriteRequest}
    {old new : WritePhase} {read : Resolution},
    Turns writer state request old new → settled old = true →
    verdict request.op read old →
    settled new = true ∧ verdict request.op read new

namespace Look

variable (look : Look writer) {op : ChainOp} {index : Nat}

theorem reads_of_writes (writes : Writes writer state label next)
    (steady : ∀ change, label = .change change → look.touched change ≠ some op) :
    look.reads next.faults op = look.reads state.faults op := by
  cases writes with
  | changed change => exact look.reads_change (steady change rfl)
  | advanced caller here alive progresses records =>
      dsimp only
      rw [records]
      split_ifs
      · exact look.reads_record
      · rfl
  | cached _ | called _ | worked _ => rfl
  | submitted here alive passed ready => rfl
  | landed here alive waiting done => rfl
  | rejected here alive waiting done => rfl
  | dropped here alive suspended => rfl

theorem stands_of_run {labels : List (WriteStep μ)} {read : Resolution} :
    ∀ {state final : WriteState κ} {call : WriteCall},
      run (WriteState.step writer) labels state = some final →
      state.calls[index]? = some call → call.request.op = op →
      look.settled call.phase = true → look.verdict op read call.phase →
      ∃ last, final.calls[index]? = some last ∧
        look.verdict op read last.phase := by
  induction labels with
  | nil =>
      intro state final call ran here _ _ verdict
      cases ran
      exact ⟨call, here, verdict⟩
  | cons label rest induction =>
      intro state final call ran here isOp settled verdict
      obtain ⟨next, taken, tail⟩ := Option.bind_eq_some_iff.mp ran
      obtain ⟨new, there, request, turns⟩ :=
        turns_of_writes (writes_of_step taken) here
      subst isOp
      obtain ⟨still, verdictNew⟩ := look.stands turns settled verdict
      exact induction tail there (congrArg WriteRequest.op request) still
        verdictNew

/-- While nobody touches what a call looks at, it is settled by what was there
in the beginning. -/
theorem verdict_of_run {labels : List (WriteStep μ)} :
    ∀ {state final : WriteState κ} {call : WriteCall},
      run (WriteState.step writer) labels state = some final →
      (∀ change, WriteStep.change change ∈ labels →
        look.touched change ≠ some op) →
      (∀ old, state.calls[index]? = some old → old.request.op = op →
        look.settled old.phase = true →
        look.verdict op (look.reads state.faults op) old.phase) →
      look.settled .called = false →
      final.calls[index]? = some call → call.request.op = op →
      look.settled call.phase = true →
      look.verdict op (look.reads state.faults op) call.phase := by
  induction labels with
  | nil =>
      intro state final call ran _ before _ here isOp settled
      cases ran
      exact before call here isOp settled
  | cons label rest induction =>
      intro state final call ran steady before unsettled here isOp settled
      obtain ⟨next, taken, tail⟩ := Option.bind_eq_some_iff.mp ran
      have writes := writes_of_step taken
      have kept := look.reads_of_writes writes fun change same =>
        steady change (same ▸ List.mem_cons_self)
      rw [← kept]
      refine induction tail
        (fun change member => steady change (List.mem_cons_of_mem _ member))
        ?_ unsettled here isOp settled
      intro new there isNew settledNew
      cases was : state.calls[index]? with
      | none =>
          rw [fresh_of_writes writes there was, unsettled] at settledNew
          cases settledNew
      | some old =>
          obtain ⟨_, isThere, request, turns⟩ := turns_of_writes writes was
          rw [there] at isThere
          cases isThere
          have isOld : old.request.op = op := by rw [← request, isNew]
          rw [kept]
          subst isOld
          cases settledOld : look.settled old.phase with
          | false => exact look.settles turns settledOld settledNew
          | true =>
              exact (look.stands turns settledOld
                (before old was rfl settledOld)).2

end Look

/-- A call has been through its gate. -/
def WritePhase.gated : WritePhase → Bool
  | .called | .counted => false
  | _ => true

def gateVerdict (op : ChainOp) : Resolution → WritePhase → Prop
  | .normal, phase => phase ≠ .hung ∧ phase ≠ .returned (.injected op)
  | .failed _, phase => phase = .returned (.injected op)
  | .never, phase => phase = .hung

/-- Behind the gate, a call neither hangs nor fails with an injected error. -/
theorem gateVerdict_stands {request : WriteRequest} {old new : WritePhase}
    {read : Resolution} (turns : Turns writer state request old new)
    (gated : old.gated = true) (verdict : gateVerdict request.op read old) :
    new.gated = true ∧ gateVerdict request.op read new := by
  cases turns with
  | stays => exact ⟨gated, verdict⟩
  | submits =>
      cases read with
      | normal => exact ⟨rfl, by simp [gateVerdict]⟩
      | failed _ | never => cases verdict
  | lands =>
      cases read with
      | normal => exact ⟨rfl, by simp [gateVerdict]⟩
      | failed _ | never => cases verdict
  | rejected =>
      cases read with
      | normal => exact ⟨rfl, by simp [gateVerdict]⟩
      | failed _ | never => cases verdict
  | progresses progresses =>
      cases read with
      | normal =>
          cases progresses with
          | @unprepared error prepared =>
              have own := Writer.prepare_failsOwn _ _ error prepared
              refine ⟨rfl, WritePhase.noConfusion, ?_⟩
              rintro ⟨⟩
              cases own
          | counted | passed _ | failed _ | hung _ => cases gated
          | caughtUp _ | expired | confirmed _ | unconfirmed _ | silent _ =>
              exact ⟨rfl, by simp [gateVerdict]⟩
      | failed _ | never =>
          cases progresses with
          | counted | passed _ | failed _ | hung _ => cases gated
          | unprepared _ | caughtUp _ | expired | confirmed _
          | unconfirmed _ | silent _ => cases verdict

def gateLook (writer : Writer κ μ) : Look writer where
  reads := ChainFaults.gate
  touched := FaultChange.submission?
  settled := WritePhase.gated
  verdict := gateVerdict
  reads_change := ChainFaults.gate_change _
  reads_record := rfl
  settles := by
    intro state request old new turns unsettled settled
    cases turns with
    | stays =>
        rw [unsettled] at settled
        cases settled
    | submits | lands | rejected => cases unsettled
    | progresses progresses =>
        cases progresses with
        | counted => cases settled
        | passed gate =>
            rw [gate]
            exact ⟨WritePhase.noConfusion, WritePhase.noConfusion⟩
        | failed gate =>
            rw [gate]
            rfl
        | hung gate =>
            rw [gate]
            rfl
        | unprepared _ | caughtUp _ | expired | confirmed _
        | unconfirmed _ | silent _ => cases unsettled
  stands := gateVerdict_stands

/-- A confirmation has looked at the faults. -/
def WritePhase.decided : WritePhase → Bool
  | .silent | .confirmed | .unconfirmed _ => true
  | _ => false

def confirmVerdict (op : ChainOp) : Resolution → WritePhase → Prop
  | .normal, phase => phase = .confirmed
  | .failed _, phase => phase = .unconfirmed (.injected op)
  | .never, phase => phase = .silent

def confirmLook (writer : Writer κ μ) : Look writer where
  reads := ChainFaults.confirm
  touched := FaultChange.confirmation?
  settled := WritePhase.decided
  verdict := confirmVerdict
  reads_change := ChainFaults.confirm_change _
  reads_record := rfl
  settles := by
    intro state request old new turns unsettled settled
    cases turns with
    | stays =>
        rw [unsettled] at settled
        cases settled
    | submits | lands | rejected => cases settled
    | progresses progresses =>
        cases progresses with
        | confirmed confirm =>
            rw [confirm]
            rfl
        | unconfirmed confirm =>
            rw [confirm]
            rfl
        | silent confirm =>
            rw [confirm]
            rfl
        | counted | passed _ | failed _ | hung _ | unprepared _ | caughtUp _
        | expired => cases settled
  stands := by
    intro state request old new read turns settled verdict
    cases turns with
    | stays => exact ⟨settled, verdict⟩
    | submits | lands | rejected => cases settled
    | progresses progresses => cases progresses <;> cases settled

section Outcomes

variable {faults : ChainFaults} {channels : IndexMap ChannelId ChannelEntry}
  {chain : κ} {before during after : List (WriteStep μ)}
  {start middle final : WriteState κ} {op : ChainOp} {index : Nat}
  {call : WriteCall}

/-- What a call is settled by is what was set when it began to matter, and it
stays so. -/
theorem Look.decides (honest : writer.client.Honest mempool)
    (fresh : mempool chain = .empty) (look : Look writer)
    (begun : run (WriteState.step writer) before
      (.begin faults channels chain) = some start)
    (ran : run (WriteState.step writer) during start = some middle)
    (ended : run (WriteState.step writer) after middle = some final)
    (unsettled : look.settled .called = false)
    (steady : ∀ change, WriteStep.change change ∈ during →
      look.touched change ≠ some op)
    (new : ∀ old, start.calls[index]? = some old →
      look.settled old.phase = false)
    (here : middle.calls[index]? = some call) (isOp : call.request.op = op)
    (settled : look.settled call.phase = true) :
    final.Booked mempool ∧ ∃ last, final.calls[index]? = some last ∧
      look.verdict op (look.reads start.faults op) last.phase := by
  have verdict := look.verdict_of_run ran steady
    (fun old was _ settledOld => by
      rw [new old was] at settledOld
      cases settledOld) unsettled here isOp settled
  obtain ⟨last, there, stands⟩ :=
    look.stands_of_run ended here isOp settled verdict
  have whole : run (WriteState.step writer) (before ++ (during ++ after))
      (.begin faults channels chain) = some final := by
    rw [run_append, begun, Option.bind_some, run_append, ran,
      Option.bind_some, ended]
  exact ⟨booked_of_run honest fresh whole, last, there, stands⟩

/-- While nobody touches the fault of an operation, the calls that come through
its gate all do what it says: they go on, or they fail, or they hang.  They
stay so whatever happens to the faults later, and the transactions of those
that do not go on are never submitted. -/
theorem gate_decides_submission (honest : writer.client.Honest mempool)
    (fresh : mempool chain = .empty)
    (begun : run (WriteState.step writer) before
      (.begin faults channels chain) = some start)
    (ran : run (WriteState.step writer) during start = some middle)
    (ended : run (WriteState.step writer) after middle = some final)
    (steady : ∀ change, WriteStep.change change ∈ during →
      change.submission? ≠ some op)
    (new : ∀ old, start.calls[index]? = some old → old.phase.gated = false)
    (here : middle.calls[index]? = some call) (isOp : call.request.op = op)
    (gated : call.phase.gated = true) :
    ∃ last, final.calls[index]? = some last ∧
      gateVerdict op (start.faults.gate op) last.phase ∧
      (start.faults.gate op ≠ .normal →
        index ∉ (mempool final.chain).submissions) := by
  obtain ⟨booked, last, there, verdict⟩ :=
    (gateLook writer).decides honest fresh begun ran ended rfl steady new here
      isOp gated
  have holds := booked.holds there
  refine ⟨last, there, verdict, ?_⟩
  intro fault
  dsimp only [gateLook] at verdict
  cases read : start.faults.gate op with
  | normal => exact absurd read fault
  | failed error =>
      rw [read] at verdict
      rw [verdict] at holds
      exact holds
  | never =>
      rw [read] at verdict
      rw [verdict] at holds
      exact holds

/-- While nobody touches the fault of the confirmations of an operation, the
confirmations that look at it all do what it says, and they stay so.  The
transaction has been executed, once, in any case. -/
theorem confirm_decides_outcome (honest : writer.client.Honest mempool)
    (fresh : mempool chain = .empty)
    (begun : run (WriteState.step writer) before
      (.begin faults channels chain) = some start)
    (ran : run (WriteState.step writer) during start = some middle)
    (ended : run (WriteState.step writer) after middle = some final)
    (steady : ∀ change, WriteStep.change change ∈ during →
      change.confirmation? ≠ some op)
    (new : ∀ old, start.calls[index]? = some old →
      old.phase.decided = false)
    (here : middle.calls[index]? = some call) (isOp : call.request.op = op)
    (decided : call.phase.decided = true) :
    ∃ last, final.calls[index]? = some last ∧
      confirmVerdict op (start.faults.confirm op) last.phase ∧
      (mempool final.chain).executed.count index = 1 := by
  obtain ⟨booked, last, there, verdict⟩ := (confirmLook writer).decides honest
    fresh begun ran ended rfl steady new here isOp decided
  refine ⟨last, there, verdict, ?_⟩
  have holds := booked.holds there
  have executed : index ∈ (mempool final.chain).executed := by
    dsimp only [confirmLook] at verdict
    cases read : start.faults.confirm op with
    | normal | failed _ | never =>
        rw [read] at verdict
        rw [verdict] at holds
        exact holds
  have few : (mempool final.chain).executed.Nodup :=
    booked.once.sublist ((List.sublist_append_left _ _).trans
      (List.sublist_append_right _ _))
  exact List.count_eq_one_of_mem few executed

end Outcomes

end Step

inductive MempoolMove where
  | execute (index : Nat)
  | refuse (index : Nat) (error : String)
  deriving DecidableEq

/-- A client that is the chain itself. -/
def directClient : Client Mempool MempoolMove where
  submit := Mempool.submit
  work mempool
    | .execute index =>
        if index ∈ mempool.pool then some (mempool.execute index) else none
    | .refuse index error =>
        if index ∈ mempool.pool then some (mempool.refuse index error)
        else none
  answer mempool index :=
    if index ∈ mempool.executed then some (.ok ())
    else (mempool.refused.find? (·.1 = index)).map fun place =>
      .error place.2

theorem directClient_honest : directClient.Honest id where
  submit _ _ := rfl
  work {chain move next} moves := by
    cases move with
    | execute index =>
        dsimp only [directClient] at moves
        split_ifs at moves with pending
        cases moves
        exact .executes pending
    | refuse index error =>
        dsimp only [directClient] at moves
        split_ifs at moves with pending
        cases moves
        exact .refuses error pending
  executed {chain index} done := by
    dsimp only [directClient] at done
    split_ifs at done with executed
    · exact executed
    · obtain ⟨_, _, same⟩ := Option.map_eq_some_iff.mp done
      cases same
  refused {chain index error} done := by
    dsimp only [directClient] at done
    split_ifs at done
    · cases done
    · obtain ⟨⟨place, reason⟩, found, same⟩ := Option.map_eq_some_iff.mp done
      cases same
      have isPlace := List.find?_some found
      simp only [decide_eq_true_eq] at isPlace
      subst isPlace
      exact List.mem_of_find?_eq_some found

def closer : Writer Mempool MempoolMove where
  reader := .reference
  myAddr := alice
  connected := true
  generator := fun _ => none
  client := directClient

theorem closer_honest : closer.client.Honest id := directClient_honest

def lostClosure : WriteRequest := .closeChannel (joinAddresses alice bob)

def closedEntry : ChannelEntry := { aliceToBobEntry with status := .closed }

/-- A test makes the confirmation of the closure hang, and restores it when
the chain has executed the transaction and the cache shows it. -/
def lostBefore : List (WriteStep MempoolMove) :=
  [.change (.setConfirmation .closeChannel .hang)]

def lostDuring : List (WriteStep MempoolMove) :=
  [.call lostClosure, .record 0, .resolve 0, .submit 0, .work (.execute 0),
    .respond 0, .cache closedEntry, .catchUp 0, .confirm 0]

def lostAfter : List (WriteStep MempoolMove) := [.change (.clear .closeChannel)]

def lostStart : WriteState Mempool :=
  .begin (ChainFaults.new.change (.setConfirmation .closeChannel .hang))
    channelView.channels .empty

theorem lost_runs :
    run (WriteState.step closer) lostBefore
        (.begin .new channelView.channels .empty) = some lostStart ∧
      (run (WriteState.step closer) lostDuring lostStart).map
        WriteState.calls = some [⟨lostClosure, .silent, false⟩] := by
  refine ⟨rfl, ?_⟩
  decide +kernel

theorem phase_tells_outcome_lost :
    ∃ final, run (WriteState.step closer) lostDuring lostStart =
        some final ∧
      final.chain.submissions.Nodup ∧
      ∀ {index : Nat} {call : WriteCall}, final.calls[index]? = some call →
        final.chain.Holds index call.phase.handed := by
  obtain ⟨final, ran, _⟩ := Option.map_eq_some_iff.mp lost_runs.2
  exact ⟨final, ran, phase_tells_outcome closer_honest rfl ran⟩

theorem calls_counted_at_gate_lost :
    ∃ final, run (WriteState.step closer) lostDuring lostStart =
        some final ∧
      final.faults.callsOf .closeChannel =
        lostStart.faults.callsOf .closeChannel +
          total (WriteCall.counts .closeChannel) final.calls := by
  obtain ⟨final, ran, _⟩ := Option.map_eq_some_iff.mp lost_runs.2
  exact ⟨final, ran, calls_counted_at_gate ran .closeChannel⟩

theorem steady_lost (touched : FaultChange → Prop) :
    ∀ change, WriteStep.change change ∈ lostDuring → touched change := by
  intro change member
  simp [lostDuring] at member

theorem confirm_decides_outcome_lost :
    ∃ middle final last,
      run (WriteState.step closer) lostDuring lostStart = some middle ∧
      run (WriteState.step closer) lostAfter middle = some final ∧
      final.calls[0]? = some last ∧
      confirmVerdict .closeChannel
        (lostStart.faults.confirm .closeChannel) last.phase ∧
      final.chain.executed.count 0 = 1 := by
  obtain ⟨middle, ran, calls⟩ := Option.map_eq_some_iff.mp lost_runs.2
  obtain ⟨final, ended⟩ : ∃ final,
      run (WriteState.step closer) lostAfter middle = some final := ⟨_, rfl⟩
  have here : middle.calls[0]? = some ⟨lostClosure, .silent, false⟩ := by
    rw [calls]
    rfl
  have isOp : lostClosure.op = .closeChannel := rfl
  obtain ⟨last, there, verdict, once⟩ := confirm_decides_outcome
    closer_honest rfl lost_runs.1 ran ended (steady_lost _)
    (fun old was => by cases was) here isOp rfl
  exact ⟨middle, final, last, ran, ended, there, verdict, once⟩

/-- The test makes the submissions of closures fail or hang, and restores them
when a call has come through the gate. -/
def faultyStart (fault : Fault) : WriteState Mempool :=
  .begin (ChainFaults.new.change (.set .closeChannel fault))
    channelView.channels .empty

def faultyDuring : List (WriteStep MempoolMove) :=
  [.call lostClosure, .record 0, .resolve 0]

theorem faulty_begins (fault : Fault) :
    run (WriteState.step closer) [.change (.set .closeChannel fault)]
      (.begin .new channelView.channels .empty) = some (faultyStart fault) :=
  rfl

theorem gate_decides_submission_faulty :
    (∃ middle final last,
      run (WriteState.step closer) faultyDuring (faultyStart .fail) =
        some middle ∧
      run (WriteState.step closer) lostAfter middle = some final ∧
      final.calls[0]? = some last ∧
      last.phase = .returned (.injected .closeChannel) ∧
      0 ∉ final.chain.submissions) ∧
    ∃ middle final last,
      run (WriteState.step closer) faultyDuring (faultyStart .hang) =
        some middle ∧
      run (WriteState.step closer) lostAfter middle = some final ∧
      final.calls[0]? = some last ∧ last.phase = .hung ∧
      0 ∉ final.chain.submissions := by
  have steady : ∀ change, WriteStep.change change ∈ faultyDuring →
      change.submission? ≠ some .closeChannel := by
    intro change member
    simp [faultyDuring] at member
  constructor
  · obtain ⟨middle, ran, here⟩ : ∃ middle,
        run (WriteState.step closer) faultyDuring (faultyStart .fail) =
          some middle ∧
        middle.calls[0]? =
          some ⟨lostClosure, .returned (.injected .closeChannel), false⟩ :=
      ⟨_, rfl, rfl⟩
    obtain ⟨final, ended⟩ : ∃ final,
        run (WriteState.step closer) lostAfter middle = some final := ⟨_, rfl⟩
    obtain ⟨last, there, verdict, never⟩ := gate_decides_submission
      closer_honest rfl (faulty_begins .fail) ran ended steady
      (fun old was => by cases was) here rfl rfl
    exact ⟨middle, final, last, ran, ended, there, verdict,
      never Resolution.noConfusion⟩
  · obtain ⟨middle, ran, here⟩ : ∃ middle,
        run (WriteState.step closer) faultyDuring (faultyStart .hang) =
          some middle ∧
        middle.calls[0]? = some ⟨lostClosure, .hung, false⟩ := ⟨_, rfl, rfl⟩
    obtain ⟨final, ended⟩ : ∃ final,
        run (WriteState.step closer) lostAfter middle = some final := ⟨_, rfl⟩
    obtain ⟨last, there, verdict, never⟩ := gate_decides_submission
      closer_honest rfl (faulty_begins .hang) ran ended steady
      (fun old was => by cases was) here rfl rfl
    exact ⟨middle, final, last, ran, ended, there, verdict,
      never Resolution.noConfusion⟩

end HoprUtilities.Blokli
