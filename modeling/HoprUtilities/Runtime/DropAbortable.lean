import HoprUtilities.Lib.Transition
import HoprUtilities.Network.CopyBuffer
import Mathlib.Data.List.Perm.Basic

/-!
# Streams that are dropped when they are aborted

The embedding of `DropAbortable` from `src/runtime.rs`, around the receiver of
a channel.  The senders of the channel run beside the owner of the stream.
A sender that finds no room parks and tries again.

The channel and the `Abortable` around its receiver are in other crates: they
are the parameter of the steps, and `Fifo` says what they are documented to
do.
-/

namespace HoprUtilities.Runtime

open HoprUtilities.Lib
open HoprUtilities.Network (Poll)

variable {ι σ : Type}

structure DropAbortable (σ : Type) where
  inner : Option σ
  deriving DecidableEq

namespace DropAbortable

def new (stream : σ) : DropAbortable σ where
  inner := some stream

/-- The end of the inner stream drops it. -/
def pollNext (pollNext : σ → Poll (Option ι) × σ) (this : DropAbortable σ) :
    Poll (Option ι) × DropAbortable σ :=
  match this.inner with
  | none => (.ready none, this)
  | some inner =>
      match pollNext inner with
      | (.ready none, _) => (.ready none, { this with inner := none })
      | (other, inner) => (other, { this with inner := some inner })

end DropAbortable

/-- A channel whose receiver is in an `Abortable`. -/
structure AbortableChannel (ι σ : Type) where
  /-- The handle may have been used before the poll, and may be used in the
  middle of it. -/
  pollNext : Bool → Bool → σ → Poll (Option ι) × σ
  /-- A sender that finds no room has to wait. -/
  trySend : σ → ι → Option σ
  /-- The last sender is dropped. -/
  close : σ → σ

/-- The channel hands out its items in their order, and the `Abortable` ends
it once the handle was used. -/
structure AbortableChannel.Fifo (channel : AbortableChannel ι σ)
    (queue : σ → List ι) : Prop where
  aborts : ∀ meanwhile stream,
    (channel.pollNext true meanwhile stream).1 = .ready none
  delivers : ∀ {stream item rest} meanwhile, queue stream = item :: rest →
    ∃ next, channel.pollNext false meanwhile stream =
        (.ready (some item), next) ∧ queue next = rest
  waits : ∀ {stream} meanwhile, queue stream = [] →
    (channel.pollNext false meanwhile stream).1 = .ready none ∨
      meanwhile = false ∧ ∃ next,
        channel.pollNext false meanwhile stream = (.pending, next) ∧
          queue next = []
  sends : ∀ {stream item next}, channel.trySend stream item = some next →
    queue next = queue stream ++ [item]
  closes : ∀ stream, queue (channel.close stream) = queue stream

/-- A channel behind an abortable stream.  `accepted` are the items the channel
has taken in, `delivered` those the owner got, and `refused` those that were
handed back or cancelled. -/
structure Feed (ι σ : Type) where
  stream : DropAbortable σ
  aborted : Bool
  sendersGone : Bool
  parked : List ι
  accepted : List ι
  delivered : List ι
  refused : List ι

inductive FeedStep (ι : Type) where
  | send (item : ι)
  /-- A parked sender tries again. -/
  | resume (index : Nat)
  /-- A parked sender is cancelled. -/
  | cancel (index : Nat)
  /-- The last sender is dropped. -/
  | leave
  | abort
  /-- The owner polls.  The abort may come between the two looks at the
  flag. -/
  | poll (meanwhile : Bool)
  | drop
  deriving DecidableEq, Repr

def FeedStep.sent? : FeedStep ι → Option ι
  | .send item => some item
  | _ => none

def itemOf : Poll (Option ι) → List ι
  | .ready (some item) => [item]
  | _ => []

namespace Feed

def new (stream : σ) : Feed ι σ where
  stream := .new stream
  aborted := false
  sendersGone := false
  parked := []
  accepted := []
  delivered := []
  refused := []

/-- The items that senders have offered, wherever they are. -/
def offered (feed : Feed ι σ) : List ι :=
  feed.accepted ++ feed.parked ++ feed.refused

def queue (queue : σ → List ι) (feed : Feed ι σ) : List ι :=
  match feed.stream.inner with
  | some stream => queue stream
  | none => []

variable (channel : AbortableChannel ι σ)

def unpark (feed : Feed ι σ) (index : Nat) : Feed ι σ :=
  { feed with parked := feed.parked.eraseIdx index }

def offer (feed : Feed ι σ) (item : ι) : Feed ι σ :=
  match feed.stream.inner with
  | none => { feed with refused := feed.refused ++ [item] }
  | some stream =>
      match channel.trySend stream item with
      | some sent =>
          { feed with
            stream := ⟨some sent⟩, accepted := feed.accepted ++ [item] }
      | none => { feed with parked := feed.parked ++ [item] }

def polled (feed : Feed ι σ) (meanwhile : Bool) : Feed ι σ :=
  let (result, stream) :=
    feed.stream.pollNext (channel.pollNext feed.aborted meanwhile)
  { feed with
    stream := stream
    aborted := feed.aborted || meanwhile
    delivered := feed.delivered ++ itemOf result }

/-- The senders and the owner of a `DropAbortable`. -/
def step (feed : Feed ι σ) : FeedStep ι → Option (Feed ι σ)
  | .send item =>
      if feed.sendersGone then none else some (feed.offer channel item)
  | .resume index =>
      (feed.parked[index]?).map (offer channel (feed.unpark index))
  | .cancel index =>
      (feed.parked[index]?).map fun item =>
        { feed.unpark index with refused := feed.refused ++ [item] }
  | .leave =>
      if feed.parked.isEmpty then
        some
          { feed with
            sendersGone := true
            stream := ⟨feed.stream.inner.map channel.close⟩ }
      else none
  | .abort => some { feed with aborted := true }
  | .poll meanwhile => some (feed.polled channel meanwhile)
  | .drop => some { feed with stream := ⟨none⟩ }

/-- What a sender that tries to send comes to. -/
inductive Offered (feed : Feed ι σ) (item : ι) : Feed ι σ → Prop where
  | refused (gone : feed.stream.inner = none) :
      Offered feed item { feed with refused := feed.refused ++ [item] }
  | accepted {stream sent : σ} (here : feed.stream.inner = some stream)
      (room : channel.trySend stream item = some sent) :
      Offered feed item
        { feed with
          stream := ⟨some sent⟩, accepted := feed.accepted ++ [item] }
  | parked {stream : σ} (here : feed.stream.inner = some stream)
      (full : channel.trySend stream item = none) :
      Offered feed item { feed with parked := feed.parked ++ [item] }

theorem offer_offered (feed : Feed ι σ) (item : ι) :
    Offered channel feed item (feed.offer channel item) := by
  unfold offer
  split
  · next gone => exact .refused gone
  · next stream here =>
      split
      · next sent room => exact .accepted here room
      · next full => exact .parked here full

/-- What a poll of the owner comes to. -/
inductive Polled (queue : σ → List ι) (feed : Feed ι σ) (meanwhile : Bool) :
    Feed ι σ → Prop where
  | ended (finished : feed.aborted = true ∨ feed.queue queue = []) :
      Polled queue feed meanwhile
        { feed with
          stream := ⟨none⟩
          aborted := feed.aborted || meanwhile }
  | delivered {stream next : σ} {item : ι}
      (here : feed.stream.inner = some stream)
      (calm : feed.aborted = false)
      (first : queue stream = item :: queue next) :
      Polled queue feed meanwhile
        { feed with
          stream := ⟨some next⟩
          aborted := feed.aborted || meanwhile
          delivered := feed.delivered ++ [item] }
  | pending {stream next : σ} (here : feed.stream.inner = some stream)
      (calm : feed.aborted = false ∧ meanwhile = false)
      (empty : queue stream = [] ∧ queue next = []) :
      Polled queue feed meanwhile { feed with stream := ⟨some next⟩ }

theorem polled_eq {channel : AbortableChannel ι σ} {feed : Feed ι σ}
    {meanwhile : Bool} {result : Poll (Option ι)} {stream : DropAbortable σ}
    (polls : feed.stream.pollNext (channel.pollNext feed.aborted meanwhile) =
      (result, stream)) :
    feed.polled channel meanwhile =
      { feed with
        stream := stream
        aborted := feed.aborted || meanwhile
        delivered := feed.delivered ++ itemOf result } := by
  rw [polled, polls]

/-- The end of the inner stream, whatever it leaves behind. -/
theorem pollNext_of_end {stream : σ} {poll : σ → Poll (Option ι) × σ}
    (ends : (poll stream).1 = .ready none) :
    DropAbortable.pollNext poll ⟨some stream⟩ = (.ready none, ⟨none⟩) := by
  obtain ⟨next, polls⟩ : ∃ next, poll stream = (.ready none, next) :=
    ⟨_, Prod.ext ends rfl⟩
  simp only [DropAbortable.pollNext, polls]

theorem polled_polled {channel : AbortableChannel ι σ} {queue : σ → List ι}
    (fifo : channel.Fifo queue) (feed : Feed ι σ) (meanwhile : Bool) :
    Polled queue feed meanwhile (feed.polled channel meanwhile) := by
  have ends : feed.aborted = true ∨ feed.queue queue = [] →
      feed.stream.pollNext (channel.pollNext feed.aborted meanwhile) =
        (.ready none, ⟨none⟩) →
      Polled queue feed meanwhile (feed.polled channel meanwhile) := by
    intro finished polls
    have ended : Polled queue feed meanwhile _ := .ended finished
    simpa [polled_eq polls, itemOf] using ended
  obtain ⟨inner, here⟩ : ∃ inner, feed.stream = ⟨inner⟩ := ⟨_, rfl⟩
  cases inner with
  | none =>
      apply ends (.inr (by rw [Feed.queue, here]))
      rw [here]
      rfl
  | some stream =>
      cases aborted : feed.aborted with
      | true =>
          apply ends (.inl aborted)
          rw [here, aborted]
          exact pollNext_of_end (fifo.aborts meanwhile stream)
      | false =>
          have inside : feed.stream.inner = some stream :=
            congrArg DropAbortable.inner here
          cases first : queue stream with
          | cons item rest =>
              obtain ⟨next, polls, left⟩ := fifo.delivers meanwhile first
              subst left
              have polled : feed.stream.pollNext
                  (channel.pollNext feed.aborted meanwhile) =
                    (.ready (some item), ⟨some next⟩) := by
                simp only [here, aborted, DropAbortable.pollNext, polls]
              rw [polled_eq polled]
              exact .delivered inside aborted first
          | nil =>
              have empty : feed.queue queue = [] := by
                rw [Feed.queue, here]
                exact first
              rcases fifo.waits meanwhile first with
                ended | ⟨still, next, polls, left⟩
              · apply ends (.inr empty)
                rw [here, aborted]
                exact pollNext_of_end ended
              · have polled : feed.stream.pollNext
                    (channel.pollNext feed.aborted meanwhile) =
                      (.pending, ⟨some next⟩) := by
                  simp only [here, aborted, DropAbortable.pollNext, polls]
                have same : feed.polled channel meanwhile =
                    { feed with stream := ⟨some next⟩ } := by
                  rw [polled_eq polled]
                  simp [itemOf, still]
                rw [same]
                exact .pending inside ⟨aborted, still⟩ ⟨first, left⟩

inductive Stepped (feed : Feed ι σ) : FeedStep ι → Feed ι σ → Prop where
  | sent {item : ι} {next : Feed ι σ} (offer : Offered channel feed item next) :
      Stepped feed (.send item) next
  | resumed {index : Nat} {item : ι} {next : Feed ι σ}
      (waiting : feed.parked[index]? = some item)
      (offer : Offered channel (feed.unpark index) item next) :
      Stepped feed (.resume index) next
  | cancelled {index : Nat} {item : ι}
      (waiting : feed.parked[index]? = some item) :
      Stepped feed (.cancel index)
        { feed.unpark index with refused := feed.refused ++ [item] }
  | left (alone : feed.parked = []) :
      Stepped feed .leave
        { feed with
          sendersGone := true
          stream := ⟨feed.stream.inner.map channel.close⟩ }
  | aborted : Stepped feed .abort { feed with aborted := true }
  | polled (meanwhile : Bool) :
      Stepped feed (.poll meanwhile) (feed.polled channel meanwhile)
  | dropped : Stepped feed .drop { feed with stream := ⟨none⟩ }

section Steps

variable {channel : AbortableChannel ι σ} {queue : σ → List ι}
  {feed next : Feed ι σ} {label : FeedStep ι}

theorem stepped_of_step (taken : feed.step channel label = some next) :
    Stepped channel feed label next := by
  cases label with
  | send item =>
      dsimp only [step] at taken
      split_ifs at taken
      cases taken
      exact .sent (offer_offered channel feed item)
  | resume index =>
      obtain ⟨item, waiting, rfl⟩ := Option.map_eq_some_iff.mp taken
      exact .resumed waiting (offer_offered channel _ item)
  | cancel index =>
      obtain ⟨item, waiting, rfl⟩ := Option.map_eq_some_iff.mp taken
      exact .cancelled waiting
  | leave =>
      dsimp only [step] at taken
      split_ifs at taken with alone
      cases taken
      exact .left (List.isEmpty_iff.mp alone)
  | abort =>
      cases taken
      exact .aborted
  | poll meanwhile =>
      cases taken
      exact .polled meanwhile
  | drop =>
      cases taken
      exact .dropped

theorem Offered.offered {item : ι} (offer : Offered channel feed item next) :
    next.offered.Perm (item :: feed.offered) := by
  cases offer with
  | refused gone =>
      rw [Feed.offered, ← List.append_assoc]
      exact List.perm_append_comm
  | accepted here room =>
      simp only [Feed.offered, List.append_assoc]
      exact List.perm_middle
  | parked here full =>
      have split : feed.accepted ++ (feed.parked ++ [item]) ++ feed.refused =
          feed.accepted ++ feed.parked ++ item :: feed.refused := by simp
      rw [Feed.offered, split]
      exact List.perm_middle

theorem Offered.aborted {item : ι} (offer : Offered channel feed item next) :
    next.aborted = feed.aborted := by
  cases offer <;> rfl

theorem Polled.offered {meanwhile : Bool}
    (polled : Polled queue feed meanwhile next) : next.offered = feed.offered := by
  cases polled <;> rfl

theorem offered_parked {index : Nat} {item : ι}
    (waiting : feed.parked[index]? = some item) :
    feed.offered.Perm (item :: (feed.unpark index).offered) := by
  obtain ⟨inside, rfl⟩ := List.getElem?_eq_some_iff.mp waiting
  have parked := List.getElem_cons_eraseIdx_perm inside
  have moved : feed.offered.Perm
      (feed.accepted ++ (feed.parked[index] :: feed.parked.eraseIdx index) ++
        feed.refused) :=
    (parked.symm.append_left _).append_right _
  refine moved.trans ?_
  rw [List.append_assoc, List.cons_append, offered, List.append_assoc]
  exact List.perm_middle

/-- The items that the channel took are delivered in their order.  `open_` says
that the stream was neither aborted nor dropped. -/
structure Flows (queue : σ → List ι) (open_ : Prop) (feed : Feed ι σ) :
    Prop where
  ordered : ∀ stream, feed.stream.inner = some stream →
    feed.accepted = feed.delivered ++ queue stream
  delivered : feed.delivered <+: feed.accepted
  complete : open_ → feed.accepted = feed.delivered ++ feed.queue queue

variable {open_ : Prop}

/-- As long as the receiver is there, its queue is what is missing. -/
theorem flows_of_inner {stream : σ} (here : feed.stream.inner = some stream)
    (ordered : feed.accepted = feed.delivered ++ queue stream) :
    Flows queue open_ feed where
  ordered other there := by
    rw [here] at there
    cases there
    exact ordered
  delivered := ordered ▸ List.prefix_append _ _
  complete _ := by
    rw [Feed.queue, here]
    exact ordered

theorem Flows.offer (fifo : channel.Fifo queue) (flows : Flows queue open_ feed)
    {item : ι} (offer : Offered channel feed item next) :
    Flows queue open_ next := by
  cases offer with
  | refused gone => exact ⟨flows.ordered, flows.delivered, flows.complete⟩
  | parked here full => exact ⟨flows.ordered, flows.delivered, flows.complete⟩
  | accepted here room =>
      apply flows_of_inner rfl
      rw [flows.ordered _ here, List.append_assoc, fifo.sends room]

theorem Flows.poll (flows : Flows queue (open_ ∧ feed.aborted = false) feed)
    {meanwhile : Bool} (polled : Polled queue feed meanwhile next) :
    Flows queue (open_ ∧ next.aborted = false) next := by
  cases polled with
  | pending here calm empty =>
      apply flows_of_inner rfl
      rw [flows.ordered _ here, empty.1, empty.2]
  | delivered here calm first =>
      apply flows_of_inner rfl
      rw [flows.ordered _ here, first, List.append_assoc]
      rfl
  | ended finished =>
      refine ⟨fun _ there => (by cases there), flows.delivered, ?_⟩
      intro still
      obtain ⟨opened, calm⟩ := still
      rw [Bool.or_eq_false_iff] at calm
      have complete := flows.complete ⟨opened, calm.1⟩
      rcases finished with aborted | empty
      · rw [calm.1] at aborted
        cases aborted
      · rw [empty] at complete
        exact complete

/-- Where the offered items are, after the steps taken so far. -/
structure Sound (queue : σ → List ι) (taken : List (FeedStep ι))
    (feed : Feed ι σ) : Prop where
  offered : (taken.filterMap FeedStep.sent?).Perm feed.offered
  flows : Flows queue (.drop ∉ taken ∧ feed.aborted = false) feed

theorem sound_new {stream : σ} (fresh : queue stream = []) :
    Sound queue [] (new stream) where
  offered := List.Perm.nil
  flows := flows_of_inner rfl fresh.symm

theorem Flows.same (flows : Flows queue open_ feed)
    (stream : next.stream = feed.stream)
    (accepted : next.accepted = feed.accepted)
    (delivered : next.delivered = feed.delivered) :
    Flows queue open_ next := by
  constructor
  · rw [stream, accepted, delivered]
    exact flows.ordered
  · rw [accepted, delivered]
    exact flows.delivered
  · rw [Feed.queue, stream, accepted, delivered]
    exact flows.complete

theorem Flows.weaken {other : Prop} (flows : Flows queue open_ feed)
    (weaker : other → open_) : Flows queue other feed :=
  ⟨flows.ordered, flows.delivered, fun holds => flows.complete (weaker holds)⟩

theorem Sound.step (fifo : channel.Fifo queue) {taken : List (FeedStep ι)}
    (sound : Sound queue taken feed)
    (took : feed.step channel label = some next) :
    Sound queue (taken ++ [label]) next := by
  have sent : ((taken ++ [label]).filterMap FeedStep.sent?).Perm
      (label.sent?.toList ++ feed.offered) := by
    have last : [label].filterMap FeedStep.sent? = label.sent?.toList := by
      cases label <;> rfl
    rw [List.filterMap_append, last]
    exact List.perm_append_comm.trans (sound.offered.append_left _)
  have still : ∀ {aborted : Bool},
      .drop ∉ taken ++ [label] ∧ aborted = false →
        .drop ∉ taken ∧ aborted = false :=
    fun both => ⟨fun member => both.1 (List.mem_append_left _ member), both.2⟩
  cases stepped_of_step took with
  | sent offer =>
      refine ⟨sent.trans offer.offered.symm, ?_⟩
      rw [offer.aborted]
      exact (sound.flows.weaken still).offer fifo offer
  | resumed waiting offer =>
      refine ⟨sent.trans ?_, ?_⟩
      · exact (offered_parked waiting).trans offer.offered.symm
      · rw [offer.aborted]
        apply Flows.offer fifo _ offer
        exact (sound.flows.weaken still).same rfl rfl rfl
  | cancelled waiting =>
      refine ⟨sent.trans ?_, ?_⟩
      · refine (offered_parked waiting).trans ?_
        rw [Feed.offered, Feed.offered, ← List.append_assoc]
        exact (List.perm_append_singleton _ _).symm
      · exact (sound.flows.weaken still).same rfl rfl rfl
  | left alone =>
      refine ⟨sent, ?_⟩
      have flows := sound.flows.weaken still
      cases here : feed.stream.inner with
      | none =>
          refine ⟨fun _ there => (by cases there), flows.delivered, ?_⟩
          intro holds
          have complete := flows.complete holds
          rw [Feed.queue, here] at complete
          exact complete
      | some stream =>
          apply flows_of_inner rfl
          rw [fifo.closes]
          exact flows.ordered stream here
  | aborted =>
      refine ⟨sent, ?_⟩
      exact ⟨sound.flows.ordered, sound.flows.delivered,
        fun both => absurd both.2 (by simp)⟩
  | polled meanwhile =>
      have polled := polled_polled fifo feed meanwhile
      refine ⟨?_, (sound.flows.weaken still).poll polled⟩
      rw [polled.offered]
      exact sent
  | dropped =>
      refine ⟨sent, fun _ there => (by cases there), sound.flows.delivered,
        fun both => (both.1 (by simp)).elim⟩

/-- Nothing goes through a channel whose receiver is gone. -/
structure Shut (before feed : Feed ι σ) : Prop where
  gone : feed.stream.inner = none
  accepted : feed.accepted = before.accepted
  delivered : feed.delivered = before.delivered

theorem Offered.shut {before : Feed ι σ} {item : ι}
    (shut : Shut before feed) (offer : Offered channel feed item next) :
    Shut before next := by
  cases offer with
  | refused gone => exact ⟨gone, shut.accepted, shut.delivered⟩
  | accepted here room | parked here full =>
      rw [shut.gone] at here
      cases here

theorem Shut.poll {before : Feed ι σ} (shut : Shut before feed)
    {meanwhile : Bool} (polled : Polled queue feed meanwhile next) :
    Shut before next := by
  cases polled with
  | ended finished => exact ⟨rfl, shut.accepted, shut.delivered⟩
  | delivered here calm first | pending here calm empty =>
      rw [shut.gone] at here
      cases here

theorem Shut.step (fifo : channel.Fifo queue) {before : Feed ι σ}
    (shut : Shut before feed) (took : feed.step channel label = some next) :
    Shut before next := by
  have same : ∀ index, Shut before (feed.unpark index) :=
    fun _ => ⟨shut.gone, shut.accepted, shut.delivered⟩
  cases stepped_of_step took with
  | sent offer => exact offer.shut shut
  | resumed waiting offer => exact Offered.shut (same _) offer
  | cancelled waiting | aborted =>
      exact ⟨shut.gone, shut.accepted, shut.delivered⟩
  | left alone =>
      refine ⟨?_, shut.accepted, shut.delivered⟩
      dsimp only
      rw [shut.gone, Option.map_none]
  | polled meanwhile => exact shut.poll (polled_polled fifo feed meanwhile)
  | dropped => exact ⟨rfl, shut.accepted, shut.delivered⟩

theorem Polled.shut {meanwhile : Bool} (aborted : feed.aborted = true)
    (polled : Polled queue feed meanwhile next) : Shut feed next := by
  cases polled with
  | ended finished => exact ⟨rfl, rfl, rfl⟩
  | delivered here calm first =>
      rw [calm] at aborted
      cases aborted
  | pending here calm empty =>
      rw [calm.1] at aborted
      cases aborted

end Steps

variable {channel : AbortableChannel ι σ} {queue : σ → List ι} {stream : σ}

/-- In every run, each item that a sender offered is taken by the channel,
parked, or refused, just once.  The owner gets the accepted items in their
order, and unless the stream was aborted or dropped it gets them all. -/
theorem feed_conserves (fifo : channel.Fifo queue) (fresh : queue stream = [])
    {labels : List (FeedStep ι)} {feed : Feed ι σ}
    (ran : run (step channel) labels (new stream) = some feed) :
    (labels.filterMap FeedStep.sent?).Perm
        (feed.accepted ++ feed.parked ++ feed.refused) ∧
      feed.delivered <+: feed.accepted ∧
      (feed.aborted = false → .drop ∉ labels →
        feed.accepted = feed.delivered ++ feed.queue queue) := by
  have sound : Sound queue ([] ++ labels) feed :=
    run_taken (fun _ _ _ _ took sound => sound.step fifo took) ran
      (sound_new fresh)
  exact ⟨sound.offered, sound.flows.delivered,
    fun calm undropped => sound.flows.complete ⟨undropped, calm⟩⟩

end Feed

/-- The receiver of a bounded channel. -/
structure Receiver (ι : Type) where
  queue : List ι
  sendersGone : Bool
  deriving DecidableEq, Repr

/-- `Abortable` reads the flag before it polls the receiver, and once more when
that is pending. -/
def bounded (capacity : Nat) : AbortableChannel ι (Receiver ι) where
  pollNext aborted meanwhile receiver :=
    if aborted then (.ready none, receiver)
    else
      match receiver.queue with
      | item :: rest => (.ready (some item), { receiver with queue := rest })
      | [] =>
          (if receiver.sendersGone || meanwhile then .ready none else .pending,
            receiver)
  trySend receiver item :=
    if receiver.queue.length < capacity then
      some { receiver with queue := receiver.queue ++ [item] }
    else none
  close receiver := { receiver with sendersGone := true }

theorem bounded_fifo (capacity : Nat) :
    (bounded capacity : AbortableChannel ι (Receiver ι)).Fifo
      Receiver.queue where
  aborts _ _ := rfl
  delivers {stream item rest} _ first :=
    ⟨{ stream with queue := rest }, by simp [bounded, first], rfl⟩
  waits {stream} meanwhile empty := by
    cases fired : meanwhile <;> cases gone : stream.sendersGone <;>
      simp [bounded, empty, gone]
  sends {stream item next} sent := by
    dsimp only [bounded] at sent
    split_ifs at sent
    cases sent
    rfl
  closes _ := rfl

namespace Feed

/-- The third sender is parked behind a full channel, and the fourth one too.
The third one is let in when the owner has polled, the fourth one is refused
when the aborted stream has dropped the channel. -/
def parkedAndRefused : List (FeedStep Nat) :=
  [.send 1, .send 2, .send 3, .send 4, .poll false, .resume 0, .abort,
    .poll false, .resume 0]

theorem feed_conserves_parked :
    ∃ feed, run (step (bounded 2)) (parkedAndRefused.take 6)
        (new ⟨[], false⟩) = some feed ∧
      feed.delivered = [1] ∧ feed.parked = [4] ∧
      feed.accepted = feed.delivered ++ feed.queue Receiver.queue ∧
      ∃ final, run (step (bounded 2)) parkedAndRefused
          (new ⟨[], false⟩) = some final ∧
        final.refused = [4] ∧ final.delivered <+: final.accepted ∧
        [1, 2, 3, 4].Perm (final.accepted ++ final.parked ++ final.refused) := by
  obtain ⟨feed, ran, delivered, parked, calm⟩ : ∃ feed,
      run (step (bounded 2)) (parkedAndRefused.take 6)
          (new ⟨[], false⟩) = some feed ∧
        feed.delivered = [1] ∧ feed.parked = [4] ∧ feed.aborted = false :=
    ⟨_, rfl, rfl, rfl, rfl⟩
  obtain ⟨final, ended, refused⟩ : ∃ final,
      run (step (bounded 2)) parkedAndRefused (new ⟨[], false⟩) =
          some final ∧ final.refused = [4] := ⟨_, rfl, rfl⟩
  obtain ⟨offered, prefixed, _⟩ := feed_conserves (bounded_fifo 2) rfl ended
  exact ⟨feed, ran, delivered, parked,
    (feed_conserves (bounded_fifo 2) rfl ran).2.2 calm (by decide), final,
    ended, refused, prefixed, offered⟩

/-- The first poll after the abort closes the channel for good: nothing more is
delivered or accepted, and whoever is parked is refused when it tries again. -/
theorem aborted_feed_closes {channel : AbortableChannel ι σ}
    {queue : σ → List ι} (fifo : channel.Fifo queue) {feed next final : Feed ι σ}
    {meanwhile : Bool} {labels : List (FeedStep ι)}
    (aborted : feed.aborted = true)
    (polled : feed.step channel (.poll meanwhile) = some next)
    (ran : run (step channel) labels next = some final) :
    final.stream.inner = none ∧ final.accepted = feed.accepted ∧
      final.delivered = feed.delivered ∧
      ∀ index item, final.parked[index]? = some item →
        final.step channel (.resume index) =
          some { final with
            parked := final.parked.eraseIdx index
            refused := final.refused ++ [item] } := by
  have first : Shut feed next := by
    cases polled
    exact (polled_polled fifo feed meanwhile).shut aborted
  have shut : Shut feed final :=
    run_invariant (fun _ _ _ took shut => shut.step fifo took) ran first
  refine ⟨shut.gone, shut.accepted, shut.delivered, ?_⟩
  intro index item waiting
  rw [step, waiting, Option.map_some, offer, unpark, shut.gone]

/-- Two items in the channel, a third sender parked, and the stream
aborted. -/
def stranded : Feed Nat (Receiver Nat) where
  stream := ⟨some ⟨[1, 2], false⟩⟩
  aborted := true
  sendersGone := false
  parked := [3]
  accepted := [1, 2]
  delivered := []
  refused := []

theorem aborted_feed_closes_stranded :
    ∃ next final, stranded.step (bounded 2) (.poll false) = some next ∧
      run (step (bounded 2)) [.send 4] next = some final ∧
      final.stream.inner = none ∧ final.accepted = [1, 2] := by
  obtain ⟨next, polled⟩ : ∃ next,
      stranded.step (bounded 2) (.poll false) = some next := ⟨_, rfl⟩
  obtain ⟨final, ran⟩ : ∃ final,
      run (step (bounded 2)) [.send 4] next = some final := by
    cases polled
    exact ⟨_, rfl⟩
  obtain ⟨gone, accepted, _⟩ :=
    aborted_feed_closes (bounded_fifo 2) rfl polled ran
  exact ⟨next, final, polled, ran, gone, accepted⟩

end Feed

end HoprUtilities.Runtime
