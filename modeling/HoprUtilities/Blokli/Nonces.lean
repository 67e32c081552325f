import HoprUtilities.Blokli.Emulator
import HoprUtilities.Lib.Threads
import HoprUtilities.Lib.Transition

/-!
# The nonces of the connector

The embedding of `nonce_for` and of the first line of `send_tx` from
`src/testing/blokli/connector.rs`, for the operations that submit a
transaction.  The counters are shared and made on first use, one for each
address, and any number of operations are under way at the same time: an
operation takes a counter from the map and later draws a nonce from it, unless
it is dropped before.

The operations of the node count under the address that the connector was made
with, but sign with its key; a withdrawal counts under the address of the key
that signs.
-/

namespace HoprUtilities.Blokli

open HoprUtilities.Lib

/-- The operations that submit a transaction. -/
inductive Submission (κ : Type) where
  | registerSafe
  | openChannel
  | fundChannel
  | closeChannel
  | redeemTicket
  | withdraw
  | withdrawFromSigner (signer : κ)
  deriving DecidableEq

/-- The key of the connector, and the address that goes with it. -/
structure KeyRing (κ : Type) where
  myAddr : Address
  chainKey : κ

section Operations

variable {κ : Type} (toAddress : κ → Address) (ring : KeyRing κ)

def Submission.signer : Submission κ → κ
  | .withdrawFromSigner signer => signer
  | _ => ring.chainKey

/-- The address whose counter is used. -/
def Submission.counted : Submission κ → Address
  | .withdraw => toAddress ring.chainKey
  | .withdrawFromSigner signer => toAddress signer
  | _ => ring.myAddr

/-- How far an operation has come. -/
inductive SubmissionPc where
  | called
  | holding (counter : Nat)
  | signed (nonce : UInt64)
  | dropped
  deriving DecidableEq

structure SubmissionTask (κ : Type) where
  submission : Submission κ
  pc : SubmissionPc
  deriving DecidableEq

/-- The counters stand in the order in which they were made, and the map leads
to them.  `signed` records the nonces in the order of the draws. -/
structure NonceState (κ : Type) where
  nonces : IndexMap Address Nat
  counters : List UInt64
  tasks : List (SubmissionTask κ)
  signed : List (Submission κ × UInt64)

inductive NonceStep (κ : Type) where
  | call (submission : Submission κ)
  | nonceFor (index : Nat)
  | draw (index : Nat)
  | drop (index : Nat)
  deriving DecidableEq

namespace NonceState

def start : NonceState κ where
  nonces := .empty
  counters := []
  tasks := []
  signed := []

/-- `nonce_for`: a new counter starts at zero. -/
def nonceFor (state : NonceState κ) (signer : Address) :
    Nat × NonceState κ :=
  match state.nonces.get? signer with
  | some counter => (counter, state)
  | none =>
      (state.counters.length,
        { state with
          nonces := state.nonces.put signer state.counters.length
          counters := state.counters ++ [0] })

def setTask (state : NonceState κ) (index : Nat) (task : SubmissionTask κ) :
    NonceState κ :=
  { state with tasks := state.tasks.set index task }

/-- The `fetch_add` of `send_tx`, which wraps around. -/
def sign (state : NonceState κ) (index : Nat) (submission : Submission κ)
    (counter : Nat) (nonce : UInt64) : NonceState κ where
  nonces := state.nonces
  counters := state.counters.set counter (nonce + 1)
  tasks := state.tasks.set index ⟨submission, .signed nonce⟩
  signed := state.signed ++ [(submission, nonce)]

def step (state : NonceState κ) : NonceStep κ → Option (NonceState κ)
  | .call submission =>
      some { state with tasks := state.tasks ++ [⟨submission, .called⟩] }
  | .nonceFor index =>
      match state.tasks[index]? with
      | some ⟨submission, .called⟩ =>
          let (counter, state) :=
            state.nonceFor (submission.counted toAddress ring)
          some (state.setTask index ⟨submission, .holding counter⟩)
      | _ => none
  | .draw index =>
      match state.tasks[index]? with
      | some ⟨submission, .holding counter⟩ =>
          match state.counters[counter]? with
          | some nonce => some (state.sign index submission counter nonce)
          | none => none
      | _ => none
  | .drop index =>
      match state.tasks[index]? with
      | some ⟨submission, .called⟩ =>
          some (state.setTask index ⟨submission, .dropped⟩)
      | some ⟨submission, .holding _⟩ =>
          some (state.setTask index ⟨submission, .dropped⟩)
      | _ => none

/-- The nonces of the transactions that are filed under an address. -/
def filed (addressOf : Submission κ → Address) (state : NonceState κ)
    (address : Address) : List UInt64 :=
  (state.signed.filter fun entry => addressOf entry.1 = address).map Prod.snd

end NonceState

end Operations

/-- The first numbers, as far as they fit, and from zero again. -/
def countUp (length : Nat) : List UInt64 :=
  (List.range length).map UInt64.ofNat

theorem countUp_succ (length : Nat) :
    countUp (length + 1) = countUp length ++ [UInt64.ofNat length] := by
  rw [countUp, List.range_succ, List.map_append]
  rfl

namespace NonceState

variable {κ : Type} {toAddress : κ → Address} {ring : KeyRing κ}
  {state next : NonceState κ}

theorem filed_sign (addressOf : Submission κ → Address) (index : Nat)
    (submission : Submission κ) (counter : Nat) (nonce : UInt64)
    (address : Address) :
    (state.sign index submission counter nonce).filed addressOf address =
      if addressOf submission = address then
        state.filed addressOf address ++ [nonce]
      else state.filed addressOf address := by
  by_cases same : addressOf submission = address <;> simp [filed, sign, same]

/-- Every address has a counter of its own, which has counted the nonces that
were drawn under it. -/
structure Counts (toAddress : κ → Address) (ring : KeyRing κ)
    (state : NonceState κ) : Prop where
  filed : ∀ address,
    state.filed (Submission.counted toAddress ring) address =
      countUp (state.filed (Submission.counted toAddress ring) address).length
  unused : ∀ address, state.nonces.get? address = none →
    state.filed (Submission.counted toAddress ring) address = []
  counter : ∀ {address counter}, state.nonces.get? address = some counter →
    state.counters[counter]? = some (UInt64.ofNat
      (state.filed (Submission.counted toAddress ring) address).length)
  own : ∀ {address other counter}, state.nonces.get? address = some counter →
    state.nonces.get? other = some counter → address = other
  held : ∀ {submission counter},
    ⟨submission, .holding counter⟩ ∈ state.tasks →
    state.nonces.get? (submission.counted toAddress ring) = some counter

theorem Counts.start : Counts toAddress ring .start where
  filed _ := rfl
  unused _ _ := rfl
  counter here := by cases here
  own here := by cases here
  held member := by cases member

theorem Counts.tasks (counts : Counts toAddress ring state)
    {tasks : List (SubmissionTask κ)}
    (kept : ∀ {submission counter}, ⟨submission, .holding counter⟩ ∈ tasks →
      state.nonces.get? (submission.counted toAddress ring) = some counter) :
    Counts toAddress ring { state with tasks := tasks } where
  filed := counts.filed
  unused := counts.unused
  counter := counts.counter
  own := counts.own
  held := kept

theorem Counts.setTask (counts : Counts toAddress ring state) (index : Nat)
    {task : SubmissionTask κ}
    (kept : ∀ {counter}, task.pc = .holding counter →
      state.nonces.get? (task.submission.counted toAddress ring) =
        some counter) :
    Counts toAddress ring (state.setTask index task) := by
  apply counts.tasks
  intro submission counter member
  rcases List.mem_or_eq_of_mem_set member with stays | same
  · exact counts.held stays
  · subst same
    exact kept rfl

theorem Counts.nonceFor (counts : Counts toAddress ring state)
    (signer : Address) :
    Counts toAddress ring (state.nonceFor signer).2 ∧
      (state.nonceFor signer).2.nonces.get? signer =
        some (state.nonceFor signer).1 := by
  unfold NonceState.nonceFor
  cases found : state.nonces.get? signer with
  | some counter => exact ⟨counts, found⟩
  | none =>
      have inside : ∀ {address counter},
          state.nonces.get? address = some counter →
          counter < state.counters.length := by
        intro address counter here
        exact (List.getElem?_eq_some_iff.mp (counts.counter here)).1
      dsimp only
      constructor
      · constructor
        · exact counts.filed
        · intro address missing
          dsimp only at missing
          rw [IndexMap.get?_put] at missing
          split at missing
          · cases missing
          · exact counts.unused address missing
        · intro address counter here
          dsimp only at here ⊢
          rw [IndexMap.get?_put] at here
          split at here
          · next same =>
              cases here
              have none := counts.unused signer found
              change (state.counters ++ [0])[state.counters.length]? =
                some (UInt64.ofNat (state.filed _ address).length)
              rw [same, none]
              simp
          · rw [List.getElem?_append_left (inside here)]
            exact counts.counter here
        · intro address other counter here there
          dsimp only at here there
          rw [IndexMap.get?_put] at here there
          split at here
          · next isSigner =>
              cases here
              split at there
              · next alsoSigner => rw [isSigner, alsoSigner]
              · exact (Nat.lt_irrefl _ (inside there)).elim
          · split at there
            · cases there
              exact (Nat.lt_irrefl _ (inside here)).elim
            · exact counts.own here there
        · intro submission counter member
          have here := counts.held member
          dsimp only
          rw [IndexMap.get?_put]
          split
          · next same =>
              rw [same, found] at here
              cases here
          · exact here
      · exact IndexMap.get?_put_self ..

theorem Counts.draw (counts : Counts toAddress ring state) (index : Nat)
    {submission : Submission κ} {counter : Nat} {nonce : UInt64}
    (held : state.nonces.get? (submission.counted toAddress ring) =
      some counter)
    (current : state.counters[counter]? = some nonce) :
    Counts toAddress ring (state.sign index submission counter nonce) := by
  have drawn := counts.counter held
  rw [current, Option.some.injEq] at drawn
  constructor
  · intro address
    have before := counts.filed address
    rw [filed_sign]
    split
    · next same =>
        rw [List.length_append, List.length_singleton, countUp_succ, ← before,
          drawn, same]
    · exact before
  · intro address missing
    rw [filed_sign]
    split
    · next same =>
        change state.nonces.get? address = none at missing
        rw [← same, held] at missing
        cases missing
    · exact counts.unused address missing
  · intro address other here
    change state.nonces.get? address = some other at here
    change (state.counters.set counter (nonce + 1))[other]? = _
    rw [filed_sign]
    split
    · next same =>
        rw [← same, held] at here
        cases here
        have bound := (List.getElem?_eq_some_iff.mp current).1
        rw [List.getElem?_set_self bound, List.length_append,
          List.length_singleton, drawn, same, UInt64.ofNat_add]
        rfl
    · next apart =>
        have differ : counter ≠ other := by
          intro same
          subst same
          exact apart (counts.own held here)
        rw [List.getElem?_set_ne differ]
        exact counts.counter here
  · exact counts.own
  · intro other place member
    rcases List.mem_or_eq_of_mem_set member with stays | same
    · exact counts.held stays
    · cases same

theorem Counts.step (counts : Counts toAddress ring state)
    {label : NonceStep κ}
    (taken : state.step toAddress ring label = some next) :
    Counts toAddress ring next := by
  cases label with
  | call submission =>
      cases taken
      apply counts.tasks
      intro other counter member
      rcases List.mem_append.mp member with stays | added
      · exact counts.held stays
      · cases List.mem_singleton.mp added
  | nonceFor index =>
      simp only [NonceState.step] at taken
      split at taken
      · next submission current =>
          cases taken
          obtain ⟨kept, here⟩ :=
            counts.nonceFor (submission.counted toAddress ring)
          apply kept.setTask
          intro counter same
          cases same
          exact here
      · cases taken
  | draw index =>
      simp only [NonceState.step] at taken
      split at taken
      · next submission counter current =>
          have held := counts.held (List.mem_of_getElem? current)
          split at taken
          · next nonce here =>
              cases taken
              exact counts.draw index held here
          · cases taken
      · cases taken
  | drop index =>
      simp only [NonceState.step] at taken
      split at taken
      · cases taken
        exact counts.setTask index fun same => by cases same
      · cases taken
        exact counts.setTask index fun same => by cases same
      · cases taken

/-- If the connector was made with the address of its key, every operation
counts under the address that signs. -/
theorem counted_eq_signer (own : ring.myAddr = toAddress ring.chainKey)
    (submission : Submission κ) :
    submission.counted toAddress ring = toAddress (submission.signer ring) := by
  cases submission <;> first | exact own | rfl

def openThenWithdraw : List (NonceStep κ) :=
  [.call .openChannel, .call .withdraw, .nonceFor 0, .nonceFor 1, .draw 0,
    .draw 1]

/-- With another address they both sign with the first nonce. -/
theorem nonce_used_twice (other : ring.myAddr ≠ toAddress ring.chainKey) :
    ∃ final, run (step toAddress ring) openThenWithdraw .start = some final ∧
      final.signed = [(.openChannel, 0), (.withdraw, 0)] := by
  have apart : toAddress ring.chainKey ≠ ring.myAddr := Ne.symm other
  have empty : (IndexMap.empty : IndexMap Address Nat).get? ring.myAddr =
      none := rfl
  have missing : (IndexMap.empty.put ring.myAddr 0).get?
      (toAddress ring.chainKey) = none :=
    IndexMap.get?_put_of_ne apart
  have ended : (run (step toAddress ring) openThenWithdraw .start).map
      NonceState.signed = some [(.openChannel, 0), (.withdraw, 0)] := by
    simp [run, openThenWithdraw, step, start, nonceFor, setTask, sign,
      Submission.counted, empty, missing]
  exact Option.map_eq_some_iff.mp ended

/-- In every interleaving of operations, the transactions signed by an address
have the nonces from zero on, in the order of the draws, exactly if the
connector was made with the address of its key.  Otherwise it may happen that
the opening of a channel and a withdrawal are signed with the same nonce. -/
theorem nonces_count_up_iff_own_address (toAddress : κ → Address)
    (ring : KeyRing κ) :
    ((∀ labels final, run (step toAddress ring) labels .start = some final →
      ∀ address, final.filed (fun submission =>
          toAddress (submission.signer ring)) address =
        countUp (final.filed (fun submission =>
          toAddress (submission.signer ring)) address).length) ↔
      ring.myAddr = toAddress ring.chainKey) ∧
    (ring.myAddr ≠ toAddress ring.chainKey →
      ∃ labels final, run (step toAddress ring) labels .start = some final ∧
        final.signed = [(.openChannel, 0), (.withdraw, 0)]) := by
  refine ⟨⟨?_, ?_⟩, ?_⟩
  · intro all
    by_contra other
    obtain ⟨final, ended, signed⟩ := nonce_used_twice other
    have clash := all _ final ended (toAddress ring.chainKey)
    have twice : final.filed (fun submission =>
        toAddress (submission.signer ring)) (toAddress ring.chainKey) =
          [0, 0] := by
      rw [filed, signed]
      simp [Submission.signer]
    rw [twice] at clash
    revert clash
    decide
  · intro own labels final ended address
    have same : (fun submission => toAddress (submission.signer ring)) =
        Submission.counted toAddress ring :=
      funext fun submission => (counted_eq_signer own submission).symm
    have counts : Counts toAddress ring final :=
      run_invariant (fun _ _ _ taken counts => counts.step taken) ended .start
    rw [same]
    exact counts.filed address
  · intro other
    exact ⟨openThenWithdraw, nonce_used_twice other⟩

end NonceState

end HoprUtilities.Blokli
