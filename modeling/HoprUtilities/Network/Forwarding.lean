import HoprUtilities.Lib.History
import HoprUtilities.Network.TimeoutSink

/-!
# Forwarding a stream into a sink with a timeout

The embedding of `ForwardWithTimeout` from `src/network_types/timeout.rs`, for
any sink whose errors are `SinkTimeoutError`s, and what it does over a fresh
`TimeoutSink`: nothing is lost silently, and nothing is given up early.
-/

namespace HoprUtilities.Network.Timeout

open HoprUtilities.Lib

/-- `ForwardWithTimeout`, with the world it is polled in.  `sink` says that the
field of that name is set and `peer` is what it holds; `done` is the flag of
the fused stream. -/
structure ForwardWithTimeout (σ α ε κ : Type) where
  sink : Bool
  done : Bool
  bufferedItem : Option α
  peer : σ
  world : World α ε κ
  deriving DecidableEq, Repr

/-- The result of one poll of the future. -/
abbrev Forwarded (ε : Type) := Poll (Except ε Unit)

namespace ForwardWithTimeout

section Operations

variable {σ α ε κ β : Type}

abbrev ForwardM (σ α ε κ β : Type) :=
  EStateM Stop (ForwardWithTimeout σ α ε κ) β

def new (peer : σ) (world : World α ε κ) : ForwardWithTimeout σ α ε κ :=
  { sink := true
    done := false
    bufferedItem := none
    peer := peer
    world := world }

def isTerminated (self : ForwardWithTimeout σ α ε κ) : Bool := !self.sink

def onSink (code : EStateM Stop (σ × World α ε κ) β) : ForwardM σ α ε κ β :=
  zoom id (fun this => (this.peer, this.world))
    (fun (peer, world) this => { this with peer := peer, world := world }) code

def note (event : Event α ε κ) : ForwardM σ α ε κ PUnit :=
  modify fun this => { this with world := this.world.record 0 event }

def pollNext : ForwardM σ α ε κ (Poll (Option (Except ε α))) := do
  let this ← get
  if this.done then return .ready none
  else
    match ← zoom id ForwardWithTimeout.world
        (fun world this => { this with world := world }) World.pollNext with
    | .ready none => do
        modify fun this => { this with done := true }
        return .ready none
    | answer => return answer

/-- `.map_err(|e| e.try_as_inner().unwrap())?` on an error. -/
def failWith (error : SinkTimeoutError ε) : ForwardM σ α ε κ (Forwarded ε) :=
  match error.tryAsInner with
  | some error => return .ready (.error error)
  | none => throw (.panicked "called `Option::unwrap()` on a `None` value")

variable (si : Sink σ (World α ε κ) α (SinkTimeoutError ε))

def finish : ForwardM σ α ε κ (Forwarded ε) := do
  match ← onSink si.pollClose with
  | .pending => return .pending
  | .ready (.error error) => failWith error
  | .ready (.ok ()) => do
      modify fun this => { this with sink := false }
      return .ready (.ok ())

/-- The stream has nothing for now. -/
def rest : ForwardM σ α ε κ (Forwarded ε) := do
  match ← onSink si.pollFlush with
  | .pending => return .pending
  | .ready (.error error) => failWith error
  | .ready (.ok ()) => return .pending

/-- The second half of the loop of `poll`; `again` is its next round. -/
def pull (again : ForwardM σ α ε κ (Forwarded ε)) :
    ForwardM σ α ε κ (Forwarded ε) := do
  match ← pollNext with
  | .ready (some (.error error)) => return .ready (.error error)
  | .ready (some (.ok item)) => do
      modify fun this => { this with bufferedItem := some item }
      again
  | .ready none => finish si
  | .pending => rest si

/-- Give the buffered item to the sink that is ready for it. -/
def send (item : α) (again : ForwardM σ α ε κ (Forwarded ε)) :
    ForwardM σ α ε κ (Forwarded ε) := do
  modify fun this => { this with bufferedItem := none }
  match ← onSink (si.startSend item) with
  | .error error => failWith error
  | .ok () => pull si again

def discard (item : α) (this : ForwardWithTimeout σ α ε κ) :
    ForwardWithTimeout σ α ε κ :=
  { this with
    bufferedItem := none
    world := this.world.record 0 (.discarded item) }

/-- `si.as_mut().poll_ready(cx)` with the item buffered. -/
def offer (item : α) :
    ForwardM σ α ε κ (Poll (Except (SinkTimeoutError ε) Unit)) := do
  modify fun this =>
    { this with world := this.world.elapse.record 0 (.asked item) }
  let answer ← onSink si.pollReady
  note (.answered item answer)
  return answer

def pollLoop : Nat → ForwardM σ α ε κ (Forwarded ε)
  | 0 => throw .horizon
  | fuel + 1 => do
      let this ← get
      match this.bufferedItem with
      | none => pull si (pollLoop fuel)
      | some item =>
          match ← offer si item with
          | .pending => return .pending
          | .ready (.ok ()) => send si item (pollLoop fuel)
          | .ready (.error .timeout) => do
              modify (discard item)
              pollLoop fuel
          | .ready (.error (.inner error)) => return .ready (.error error)

/-- `poll`.  A round of the loop that is followed by another one has taken an
item from the stream or has dropped one. -/
def poll : ForwardM σ α ε κ (Forwarded ε) := fun this =>
  if this.sink then
    pollLoop si (2 * this.world.script.nexts.length + 2) this
  else .error (.panicked "polled `Forward` after completion") this

/-- Poll the future over and over, also after an error, and collect the
results. -/
def pollTimes : Nat → ForwardM σ α ε κ (List (Forwarded ε))
  | 0 => return []
  | polls + 1 => do
      let results ← pollTimes polls
      return results ++ [← poll si]

end Operations

end ForwardWithTimeout

section History

variable {α ε κ : Type}

/-- The items taken from the stream. -/
def taken (log : List (Nat × Event α ε κ)) : List α :=
  log.filterMap (·.2.taken?)

/-- The items given to the innermost sink. -/
def sent (log : List (Nat × Event α ε κ)) : List α :=
  log.filterMap (·.2.sent?)

def discarded (log : List (Nat × Event α ε κ)) : List α :=
  log.filterMap (·.2.discarded?)

@[simp] theorem taken_append (log more : List (Nat × Event α ε κ)) :
    taken (log ++ more) = taken log ++ taken more :=
  List.filterMap_append

@[simp] theorem sent_append (log more : List (Nat × Event α ε κ)) :
    sent (log ++ more) = sent log ++ sent more :=
  List.filterMap_append

@[simp] theorem discarded_append (log more : List (Nat × Event α ε κ)) :
    discarded (log ++ more) = discarded log ++ discarded more :=
  List.filterMap_append

theorem Event.isQuiet_iff {event : Event α ε κ} :
    event.isQuiet = true ↔ event.taken? = none ∧ event.sent? = none ∧
      event.discarded? = none := by
  simp [isQuiet, and_assoc]

theorem moved_quiet {more : List (Nat × Event α ε κ)}
    (quiet : ∀ entry ∈ more, entry.2.isQuiet = true) :
    taken more = [] ∧ sent more = [] ∧ discarded more = [] := by
  refine ⟨List.filterMap_eq_nil_iff.mpr ?_, List.filterMap_eq_nil_iff.mpr ?_,
    List.filterMap_eq_nil_iff.mpr ?_⟩
  · intro entry member
    exact (Event.isQuiet_iff.mp (quiet entry member)).1
  · intro entry member
    exact (Event.isQuiet_iff.mp (quiet entry member)).2.1
  · intro entry member
    exact (Event.isQuiet_iff.mp (quiet entry member)).2.2

/-- The log from the moment the item was taken, which was first offered to the
sink at the time `asked`. -/
def Since (log : List (Nat × Event α ε κ)) (item : α) (asked : Nat) : Prop :=
  ∃ older time recent,
    log = older ++ (time, .next (.ready (some (.ok item)))) ::
      (asked, .asked item) :: recent ∧
    taken recent = []

theorem Since.append {log more : List (Nat × Event α ε κ)} {item : α}
    {asked : Nat} (since : Since log item asked) (none : taken more = []) :
    Since (log ++ more) item asked := by
  obtain ⟨older, time, recent, logged, untaken⟩ := since
  refine ⟨older, time, recent ++ more, by simp [logged], ?_⟩
  rw [taken_append, untaken, none, List.append_nil]

/-- An item may be discarded right after `poll_ready` has timed out with this
item buffered, and after the full timeout since it was first offered if the
timers are punctual. -/
def Justified (timeout : Nat) (before : List (Nat × Event α ε κ))
    (entry : Nat × Event α ε κ) : Prop :=
  ∀ item, entry.2 = .discarded item →
    before.getLast? =
      some (entry.1, .answered item (.ready (.error .timeout))) ∧
    ∃ asked, Since before item asked ∧
      (Punctual before → asked + timeout ≤ entry.1)

/-- The discarded items have cost the full timeout each. -/
def Paid (start timeout : Nat) (log : List (Nat × Event α ε κ))
    (time : Nat) : Prop :=
  Punctual log → start + (discarded log).length * timeout ≤ time

theorem Paid.append {start timeout time later : Nat}
    {log more : List (Nat × Event α ε κ)} (paid : Paid start timeout log time)
    (kept : discarded more = []) (order : time ≤ later) :
    Paid start timeout (log ++ more) later := by
  intro punctual
  rw [discarded_append, kept, List.append_nil]
  exact Nat.le_trans (paid punctual.of_append) order

end History

section Invariant

variable {α ε : Type}

/-- The item is on offer since the time `asked`, and the timer no older. -/
structure OnOffer (start timeout : Nat) (item : α) (asked : Nat)
    (timer : Option Sleep) (world : World α ε ε) : Prop where
  since : Since world.log item asked
  paid : Paid start timeout world.log asked
  past : asked ≤ world.clock
  timer : ∀ sleep, timer = some sleep →
    asked ≤ sleep.since ∧ sleep.duration = timeout

/-- What is going on with the buffered item. -/
inductive Attempt (start timeout : Nat) :
    Option α → Option Sleep → World α ε ε → Prop where
  | idle {world : World α ε ε}
      (paid : Paid start timeout world.log world.clock) :
      Attempt start timeout none none world
  | fresh {item : α} {world : World α ε ε}
      (last : ∃ older time, world.log =
        older ++ [(time, .next (.ready (some (.ok item))))])
      (paid : Paid start timeout world.log world.clock) :
      Attempt start timeout (some item) none world
  | waiting {item : α} {asked : Nat} {timer : Option Sleep}
      {world : World α ε ε}
      (offered : OnOffer start timeout item asked timer world) :
      Attempt start timeout (some item) timer world

/-- The future over a `TimeoutSink`. -/
abbrev Timing (α ε : Type) := ForwardWithTimeout (TimeoutSink Unit) α ε ε

def Accounted (buffered : Option α) (log : List (Nat × Event α ε ε)) : Prop :=
  ∃ handled, taken log = handled ++ buffered.toList ∧
    Interleaving handled (sent log) (discarded log)

structure Sound (start timeout : Nat) (this : Timing α ε) : Prop where
  timeout_eq : this.peer.timeout = timeout
  accounted : Accounted this.bufferedItem this.world.log
  justified : Chronicle (Justified timeout) this.world.log
  attempt : Attempt start timeout this.bufferedItem this.peer.timer this.world
  ended : this.done = true →
    ∃ time, (time, .next (.ready none)) ∈ this.world.log

theorem Attempt.paid {start timeout : Nat} {buffered : Option α}
    {timer : Option Sleep} {world : World α ε ε}
    (attempt : Attempt start timeout buffered timer world) :
    Paid start timeout world.log world.clock := by
  cases attempt with
  | idle paid => exact paid
  | fresh last paid => exact paid
  | waiting offered =>
      intro punctual
      exact Nat.le_trans (offered.paid punctual) offered.past

theorem OnOffer.passes {start timeout asked : Nat} {item : α}
    {timer later : Option Sleep} {before after : World α ε ε}
    (offered : OnOffer start timeout item asked timer before)
    (passes : Passes before after)
    (armed : ∀ sleep, later = some sleep → timer = some sleep ∨
      before.clock ≤ sleep.since ∧ sleep.duration = timeout) :
    OnOffer start timeout item asked later after := by
  obtain ⟨more, logged, quiet⟩ := passes.log
  obtain ⟨untaken, _, kept⟩ := moved_quiet quiet
  constructor
  · rw [logged]
    exact offered.since.append untaken
  · rw [logged]
    exact offered.paid.append kept (Nat.le_refl _)
  · exact Nat.le_trans offered.past passes.clock
  · intro sleep set
    rcases armed sleep set with old | ⟨created, duration⟩
    · exact offered.timer sleep old
    · exact ⟨Nat.le_trans offered.past created, duration⟩

theorem justified_of_quiet (timeout : Nat) {entry : Nat × Event α ε ε}
    (quiet : entry.2.isQuiet = true) (before : List (Nat × Event α ε ε)) :
    Justified timeout before entry := by
  intro item equality
  rw [equality] at quiet
  cases quiet

namespace Sound

variable {start timeout : Nat} {this next : Timing α ε} {item : α}

/-- While nothing happens to the items, only the attempt has to be followed. -/
theorem of_passes (sound : Sound start timeout this)
    (buffered : next.bufferedItem = this.bufferedItem)
    (kept : next.peer.timeout = this.peer.timeout)
    (passes : Passes this.world next.world)
    (attempt : Attempt start timeout next.bufferedItem next.peer.timer
      next.world)
    (ended : next.done = true →
      ∃ time, (time, .next (.ready none)) ∈ next.world.log) :
    Sound start timeout next := by
  obtain ⟨more, logged, quiet⟩ := passes.log
  obtain ⟨untaken, unsent, undiscarded⟩ := moved_quiet quiet
  obtain ⟨handled, parts, interleaved⟩ := sound.accounted
  refine ⟨kept.trans sound.timeout_eq, ⟨handled, ?_, ?_⟩, ?_, attempt, ended⟩
  · rw [logged, taken_append, untaken, List.append_nil, buffered, parts]
  · rw [logged, sent_append, discarded_append, unsent, undiscarded,
      List.append_nil, List.append_nil]
    exact interleaved
  · rw [logged]
    apply sound.justified.append
    intro entry member before
    exact justified_of_quiet timeout (quiet entry member) before

theorem ended_of_append (sound : Sound start timeout this)
    (done : next.done = this.done) {more : List (Nat × Event α ε ε)}
    (logged : next.world.log = this.world.log ++ more) :
    next.done = true →
      ∃ time, (time, .next (.ready none)) ∈ next.world.log := by
  intro isOver
  obtain ⟨time, member⟩ := sound.ended (done.symm.trans isOver)
  rw [logged]
  exact ⟨time, List.mem_append_left _ member⟩

theorem ended_of_passes (sound : Sound start timeout this)
    (done : next.done = this.done) (passes : Passes this.world next.world) :
    next.done = true →
      ∃ time, (time, .next (.ready none)) ∈ next.world.log := by
  obtain ⟨more, logged, _⟩ := passes.log
  exact sound.ended_of_append done logged

theorem timer_eq_none (sound : Sound start timeout this)
    (empty : this.bufferedItem = none) : this.peer.timer = none := by
  have attempt := sound.attempt
  rw [empty] at attempt
  generalize this.peer.timer = timer at attempt
  cases attempt with
  | idle paid => rfl

theorem paid_of_passes (sound : Sound start timeout this)
    {world : World α ε ε} (passes : Passes this.world world) :
    Paid start timeout world.log world.clock := by
  obtain ⟨more, logged, quiet⟩ := passes.log
  rw [logged]
  exact sound.attempt.paid.append (moved_quiet quiet).2.2 passes.clock

theorem idle (sound : Sound start timeout this)
    (empty : this.bufferedItem = none) (buffered : next.bufferedItem = none)
    (peer : next.peer = this.peer) (done : next.done = this.done)
    (passes : Passes this.world next.world) : Sound start timeout next := by
  apply sound.of_passes (buffered.trans empty.symm) (by rw [peer]) passes
  · rw [buffered, peer, sound.timer_eq_none empty]
    exact .idle (sound.paid_of_passes passes)
  · exact sound.ended_of_passes done passes

theorem ask (sound : Sound start timeout this)
    (buffered : this.bufferedItem = some item)
    (asking : next =
      { this with world := this.world.elapse.record 0 (.asked item) }) :
    Sound start timeout next ∧
      ∃ asked, OnOffer start timeout item asked next.peer.timer
        next.world := by
  subst asking
  have passes : Passes this.world
      (this.world.elapse.record 0 (.asked item)) :=
    ⟨Nat.le_add_right _ _, _, rfl, by simp [Event.isQuiet, Event.taken?,
      Event.sent?, Event.discarded?]⟩
  have offered : ∃ asked, OnOffer start timeout item asked this.peer.timer
      (this.world.elapse.record 0 (.asked item)) := by
    have attempt := sound.attempt
    rw [buffered] at attempt
    generalize this.peer.timer = timer at attempt
    generalize this.world = world at attempt passes
    cases attempt with
    | fresh last paid =>
        obtain ⟨older, time, logged⟩ := last
        refine ⟨world.elapse.clock, ?_, ?_, Nat.le_refl _, ?_⟩
        · refine ⟨older, time, [], ?_, rfl⟩
          change world.log ++ _ = _
          rw [logged, List.append_assoc]
          rfl
        · exact paid.append rfl (Nat.le_add_right _ _)
        · intro sleep set
          cases set
    | waiting offered =>
        exact ⟨_, offered.passes passes (fun sleep set => .inl set)⟩
  obtain ⟨asked, offered⟩ := offered
  refine ⟨sound.of_passes rfl rfl passes ?_ ?_, asked, offered⟩
  · rw [buffered]
    exact .waiting offered
  · exact sound.ended_of_passes rfl passes

theorem waited {asked : Nat} (sound : Sound start timeout this)
    (buffered : this.bufferedItem = some item)
    (offered : OnOffer start timeout item asked this.peer.timer this.world)
    (waited : Waited (this.peer, this.world) (next.peer, next.world))
    (same : next.bufferedItem = this.bufferedItem)
    (done : next.done = this.done) :
    Sound start timeout next ∧
      OnOffer start timeout item asked next.peer.timer next.world := by
  have still : OnOffer start timeout item asked next.peer.timer
      next.world := by
    apply offered.passes waited.passes
    intro sleep set
    rcases waited.timer sleep set with old | ⟨created, duration⟩
    · exact .inl old
    · exact .inr ⟨created, duration.trans sound.timeout_eq⟩
  refine ⟨sound.of_passes same waited.timeout waited.passes ?_ ?_, still⟩
  · rw [same, buffered]
    exact .waiting still
  · exact sound.ended_of_passes done waited.passes

theorem send (sound : Sound start timeout this)
    (buffered : this.bufferedItem = some item)
    (cleared : this.peer.timer = none) (empty : next.bufferedItem = none)
    (peer : next.peer = this.peer) (done : next.done = this.done)
    (clock : this.world.clock ≤ next.world.clock)
    (logged : next.world.log =
      this.world.log ++ [(this.world.clock, .startSend item)]) :
    Sound start timeout next := by
  obtain ⟨handled, parts, interleaved⟩ := sound.accounted
  refine ⟨?_, ⟨handled ++ [item], ?_, ?_⟩, ?_, ?_, ?_⟩
  · rw [peer, sound.timeout_eq]
  · rw [logged, taken_append, parts, buffered, empty]
    rfl
  · rw [logged, sent_append, discarded_append]
    change Interleaving _ _ (_ ++ [])
    rw [List.append_nil]
    exact interleaved.left item
  · rw [logged]
    apply sound.justified.snoc
    intro other equality
    cases equality
  · rw [empty, peer, cleared]
    apply Attempt.idle
    rw [logged]
    exact sound.attempt.paid.append rfl clock
  · exact sound.ended_of_append done logged

theorem discard {asked : Nat} (sound : Sound start timeout this)
    (buffered : this.bufferedItem = some item)
    (cleared : this.peer.timer = none)
    (offered : OnOffer start timeout item asked this.peer.timer this.world)
    (timedOut : this.world.log.getLast? = some (this.world.clock,
      .answered item (.ready (.error .timeout))))
    (waited : Punctual this.world.log → asked + timeout ≤ this.world.clock) :
    Sound start timeout (this.discard item) := by
  obtain ⟨handled, parts, interleaved⟩ := sound.accounted
  have logged : (this.discard item).world.log =
      this.world.log ++ [(this.world.clock, .discarded item)] := rfl
  refine ⟨sound.timeout_eq, ⟨handled ++ [item], ?_, ?_⟩, ?_, ?_, ?_⟩
  · rw [logged, taken_append, parts, buffered]
    rfl
  · rw [logged, sent_append, discarded_append]
    change Interleaving _ (_ ++ []) _
    rw [List.append_nil]
    exact interleaved.right item
  · rw [logged]
    apply sound.justified.snoc
    intro other equality
    cases equality
    exact ⟨timedOut, asked, offered.since, waited⟩
  · change Attempt start timeout none this.peer.timer _
    rw [cleared]
    apply Attempt.idle
    intro punctual
    have before := offered.paid punctual.of_append
    have after := waited punctual.of_append
    have count : (discarded (this.discard item).world.log).length =
        (discarded this.world.log).length + 1 := by
      rw [logged, discarded_append, List.length_append]
      rfl
    change _ ≤ this.world.clock
    rw [count, Nat.add_mul, Nat.one_mul]
    omega
  · exact sound.ended_of_append rfl logged

theorem take (sound : Sound start timeout this)
    (empty : this.bufferedItem = none)
    (buffered : next.bufferedItem = some item)
    (peer : next.peer = this.peer) (done : next.done = this.done)
    (answers : Answers (.next (.ready (some (.ok item)))) this.world
      next.world) : Sound start timeout next := by
  obtain ⟨handled, parts, interleaved⟩ := sound.accounted
  refine ⟨?_, ⟨handled, ?_, ?_⟩, ?_, ?_, ?_⟩
  · rw [peer, sound.timeout_eq]
  · rw [answers.log, taken_append, parts, empty, buffered, List.append_assoc]
    rfl
  · rw [answers.log, sent_append, discarded_append]
    change Interleaving _ (_ ++ []) (_ ++ [])
    rw [List.append_nil, List.append_nil]
    exact interleaved
  · rw [answers.log]
    apply sound.justified.snoc
    intro other equality
    cases equality
  · rw [buffered, peer, sound.timer_eq_none empty]
    refine .fresh ⟨_, _, answers.log⟩ ?_
    rw [answers.log]
    exact sound.attempt.paid.append rfl answers.clock
  · exact sound.ended_of_append done answers.log

end Sound

end Invariant

section Rounds

variable {α ε β : Type} {start timeout : Nat}

/-- The sink of the future, around an arbitrary inner sink. -/
abbrev timed : Sink (TimeoutSink Unit) (World α ε ε) α (SinkTimeoutError ε) :=
  TimeoutSink.sink scripted

/-- The future has completed with `Ok`. -/
structure Finished (this : Timing α ε) : Prop where
  empty : this.bufferedItem = none
  ended : ∃ time, (time, .next (.ready none)) ∈ this.world.log
  closed : ∃ time, this.world.log.getLast? =
    some (time, .close (.ready (.ok ())))

/-- What every part of a poll ends with. -/
def Outcome (start timeout : Nat) (result : Forwarded ε)
    (this : Timing α ε) : Prop :=
  Sound start timeout this ∧ (result = .ready (.ok ()) → Finished this)

theorem Outcome.pending {this : Timing α ε}
    (sound : Sound start timeout this) :
    Outcome start timeout .pending this := by
  refine ⟨sound, ?_⟩
  intro finished
  cases finished

theorem Outcome.failed {this : Timing α ε} (sound : Sound start timeout this)
    (error : ε) : Outcome start timeout (.ready (.error error)) this := by
  refine ⟨sound, ?_⟩
  intro finished
  cases finished

/-- Wherever the code ends or stops, the future is sound. -/
abbrev Guarded (start timeout : Nat) (pre : Timing α ε → Prop)
    (code : ForwardWithTimeout.ForwardM (TimeoutSink Unit) α ε ε
      (Forwarded ε)) : Prop :=
  Triple pre code (Outcome start timeout)
    (fun _ this => Sound start timeout this)

theorem Guarded.pending {pre : Timing α ε → Prop}
    (sound : ∀ this, pre this → Sound start timeout this) :
    Guarded start timeout pre (pure .pending) :=
  Triple.pure (fun this holds => .pending (sound this holds))

theorem Guarded.failed {pre : Timing α ε → Prop}
    (sound : ∀ this, pre this → Sound start timeout this) (error : ε) :
    Guarded start timeout pre (pure (.ready (.error error))) :=
  Triple.pure (fun this holds => .failed (sound this holds) error)

namespace ForwardWithTimeout

theorem onSink_triple {code : EStateM Stop (Timed α ε ε) β}
    {post : β → Timed α ε ε → Prop} {stopped : Stop → Timed α ε ε → Prop}
    (before : Timing α ε)
    (triple : Triple (· = (before.peer, before.world)) code post stopped) :
    Triple (· = before) (onSink code)
      (fun value after => post value (after.peer, after.world) ∧
        after.bufferedItem = before.bufferedItem ∧ after.done = before.done)
      (fun call after => stopped call (after.peer, after.world) ∧
        after.bufferedItem = before.bufferedItem ∧
        after.done = before.done) := by
  apply Triple.zoom
  intro start same
  subst same
  apply triple.consequence (fun _ same => same)
  · intro value after holds
    exact ⟨holds, rfl, rfl⟩
  · intro call after holds
    exact ⟨holds, rfl, rfl⟩

theorem failWith_triple (error : SinkTimeoutError ε) :
    Guarded start timeout (Sound start timeout : Timing α ε → Prop)
      (failWith error) := by
  cases error with
  | timeout => exact Triple.throw (fun _ sound => sound)
  | inner error => exact Guarded.failed (fun _ sound => sound) error

theorem finish_triple :
    Guarded start timeout (fun this : Timing α ε =>
        Sound start timeout this ∧ this.bufferedItem = none ∧
          this.done = true)
      (finish timed) := by
  apply Triple.of_forall
  intro before premise
  obtain ⟨sound, empty, isOver⟩ := premise
  have waits := onSink_triple before
    (TimeoutSink.pollClose_triple (before.peer, before.world))
  apply Triple.bind (fun answer after => Sound start timeout after ∧
    after.bufferedItem = none ∧ after.done = true ∧
    (answer = .ready (.ok ()) → after.world.log.getLast? =
      some (after.world.clock, .close (.ready (.ok ())))))
  · apply waits.consequence (fun _ same => same)
    · intro answer after holds
      obtain ⟨⟨peer, passes, closed⟩, buffered, done⟩ := holds
      exact ⟨sound.idle empty (buffered.trans empty) peer done passes,
        buffered.trans empty, done.trans isOver, closed⟩
    · intro call after holds
      obtain ⟨unchanged, buffered, done⟩ := holds
      obtain ⟨peer, world⟩ := Prod.mk.inj unchanged
      apply sound.idle empty (buffered.trans empty) peer done
      rw [world]
      exact .refl _
  · intro answer
    match answer with
    | .pending => exact Guarded.pending (fun _ holds => holds.1)
    | .ready (.error error) =>
        exact (failWith_triple error).strengthenPre (fun _ holds => holds.1)
    | .ready (.ok ()) =>
        apply Triple.modify_bind
        intro after holds
        obtain ⟨sound, empty, isOver, closed⟩ := holds
        apply Triple.pure
        intro final same
        subst same
        refine ⟨⟨sound.timeout_eq, sound.accounted, sound.justified,
          sound.attempt, sound.ended⟩, ?_⟩
        intro _
        exact ⟨empty, sound.ended isOver, _, closed rfl⟩

theorem rest_triple :
    Guarded start timeout (fun this : Timing α ε =>
      Sound start timeout this ∧ this.bufferedItem = none) (rest timed) := by
  apply Triple.of_forall
  intro before premise
  obtain ⟨sound, empty⟩ := premise
  have waits := onSink_triple before
    (TimeoutSink.pollFlush_triple (before.peer, before.world))
  apply Triple.bind (fun _ after => Sound start timeout after)
  · apply waits.consequence (fun _ same => same)
    · intro answer after holds
      obtain ⟨⟨peer, passes⟩, buffered, done⟩ := holds
      exact sound.idle empty (buffered.trans empty) peer done passes
    · intro call after holds
      obtain ⟨unchanged, buffered, done⟩ := holds
      obtain ⟨peer, world⟩ := Prod.mk.inj unchanged
      apply sound.idle empty (buffered.trans empty) peer done
      rw [world]
      exact .refl _
  · intro answer
    match answer with
    | .pending => exact Guarded.pending (fun _ sound => sound)
    | .ready (.error error) => exact failWith_triple error
    | .ready (.ok ()) => exact Guarded.pending (fun _ sound => sound)

/-- What `poll_next` of the fused stream returns. -/
inductive Pulled (before : Timing α ε) :
    Poll (Option (Except ε α)) → Timing α ε → Prop where
  | item {item : α} {after : Timing α ε}
      (answers : Answers (.next (.ready (some (.ok item)))) before.world
        after.world)
      (peer : after.peer = before.peer) (done : after.done = before.done) :
      Pulled before (.ready (some (.ok item))) after
  | ended {after : Timing α ε} (passes : Passes before.world after.world)
      (peer : after.peer = before.peer)
      (buffered : after.bufferedItem = before.bufferedItem)
      (isOver : after.done = true)
      (logged : before.done = true ∨
        ∃ time, (time, .next (.ready none)) ∈ after.world.log) :
      Pulled before (.ready none) after
  | nothing {answer : Poll (Option (Except ε α))} {after : Timing α ε}
      (passes : Passes before.world after.world)
      (peer : after.peer = before.peer)
      (buffered : after.bufferedItem = before.bufferedItem)
      (done : after.done = before.done)
      (absent : answer = .pending ∨
        ∃ error, answer = .ready (some (.error error))) :
      Pulled before answer after

theorem pollNext_triple (before : Timing α ε) :
    Triple (· = before) pollNext (Pulled before)
      (fun _ after => after = before) := by
  apply Triple.get_bind
  intro this same
  subst same
  by_cases isOver : this.done = true
  · rw [if_pos isOver]
    apply Triple.pure
    intro after same
    subst same
    exact .ended (.refl _) rfl rfl isOver (.inl isOver)
  · rw [if_neg isOver]
    apply Triple.bind (fun answer after => ∃ world,
      Answers (.next answer) this.world world ∧
        after = { this with world := world })
    · apply Triple.zoom
      intro state same
      subst same
      apply (World.call_triple _ _ _ _ _).consequence (fun _ same => same)
      · intro answer world answers
        exact ⟨world, answers, rfl⟩
      · intro call world same
        subst same
        rfl
    · intro answer
      match answer with
      | .ready none =>
          apply Triple.modify_bind
          intro after premise
          obtain ⟨world, answers, same⟩ := premise
          subst same
          apply Triple.pure
          intro final same
          subst same
          refine .ended (answers.passes rfl) rfl rfl rfl (.inr ?_)
          exact ⟨world.clock, by
            change _ ∈ world.log
            rw [answers.log]
            exact List.mem_concat_self⟩
      | .ready (some (.ok item)) =>
          apply Triple.pure
          intro after premise
          obtain ⟨world, answers, same⟩ := premise
          subst same
          exact .item answers rfl rfl
      | .ready (some (.error error)) =>
          apply Triple.pure
          intro after premise
          obtain ⟨world, answers, same⟩ := premise
          subst same
          exact .nothing (answers.passes rfl) rfl rfl rfl (.inr ⟨error, rfl⟩)
      | .pending =>
          apply Triple.pure
          intro after premise
          obtain ⟨world, answers, same⟩ := premise
          subst same
          exact .nothing (answers.passes rfl) rfl rfl rfl (.inl rfl)

theorem pull_triple {again : ForwardM (TimeoutSink Unit) α ε ε (Forwarded ε)}
    (next : Guarded start timeout (Sound start timeout) again) :
    Guarded start timeout (fun this : Timing α ε =>
      Sound start timeout this ∧ this.bufferedItem = none)
      (pull timed again) := by
  apply Triple.of_forall
  intro before premise
  obtain ⟨sound, empty⟩ := premise
  apply Triple.bind (Pulled before)
  · apply (pollNext_triple before).consequence (fun _ same => same)
      (fun _ _ pulled => pulled)
    intro call after same
    subst same
    exact sound
  · intro answer
    apply Triple.of_forall
    intro after pulled
    cases pulled with
    | item answers peer done =>
        apply Triple.modify_bind
        intro state same
        subst same
        apply next.startingAt
        exact sound.take empty rfl peer done answers
    | ended passes peer buffered isOver logged =>
        apply finish_triple.startingAt
        refine ⟨?_, buffered.trans empty, isOver⟩
        have kept := buffered.trans empty
        apply sound.of_passes buffered (by rw [peer]) passes
        · rw [kept, peer, sound.timer_eq_none empty]
          exact .idle (sound.paid_of_passes passes)
        · intro _
          rcases logged with already | now
          · exact sound.ended_of_passes (isOver.trans already.symm) passes isOver
          · exact now
    | nothing passes peer buffered done absent =>
        have idle : Sound start timeout after :=
          sound.idle empty (buffered.trans empty) peer done passes
        rcases absent with rfl | ⟨error, rfl⟩
        · exact rest_triple.startingAt ⟨idle, buffered.trans empty⟩
        · exact (Guarded.failed (fun _ sound => sound) error).startingAt idle

theorem send_triple {again : ForwardM (TimeoutSink Unit) α ε ε (Forwarded ε)}
    (next : Guarded start timeout (Sound start timeout) again) (item : α) :
    Guarded start timeout (fun this : Timing α ε =>
      Sound start timeout this ∧ this.bufferedItem = some item ∧
        this.peer.timer = none)
      (send timed item again) := by
  apply Triple.modify_bind
  intro before premise
  obtain ⟨sound, buffered, cleared⟩ := premise
  have gives := onSink_triple { before with bufferedItem := none }
    (TimeoutSink.startSend_triple item (before.peer, before.world))
  apply Triple.bind (fun _ after => Sound start timeout after ∧
    after.bufferedItem = none)
  · apply gives.consequence (fun _ same => same)
    · intro answer after holds
      obtain ⟨⟨peer, clock, logged⟩, empty, done⟩ := holds
      exact ⟨sound.send buffered cleared empty peer done clock logged, empty⟩
    · intro call after holds
      obtain ⟨⟨peer, clock, logged⟩, empty, done⟩ := holds
      exact sound.send buffered cleared empty peer done clock logged
  · intro answer
    cases answer with
    | error error =>
        exact (failWith_triple error).strengthenPre (fun _ holds => holds.1)
    | ok => exact pull_triple next

/-- What the offer of an item comes back with. -/
inductive Replied (start timeout : Nat) (item : α) :
    Poll (Except (SinkTimeoutError ε) Unit) → Timing α ε → Prop where
  | pending {this : Timing α ε} (sound : Sound start timeout this) :
      Replied start timeout item .pending this
  | ready {this : Timing α ε} (sound : Sound start timeout this)
      (buffered : this.bufferedItem = some item)
      (cleared : this.peer.timer = none) (res : Except ε Unit) :
      Replied start timeout item (.ready (res.mapError .inner)) this
  | expired {this : Timing α ε}
      (sound : Sound start timeout (this.discard item)) :
      Replied start timeout item (.ready (.error .timeout)) this

theorem offer_triple (item : α) :
    Triple (fun this : Timing α ε => Sound start timeout this ∧
        this.bufferedItem = some item)
      (offer timed item) (Replied start timeout item)
      (fun _ this => Sound start timeout this) := by
  apply Triple.modify_bind
  intro before premise
  obtain ⟨sound, buffered⟩ := premise
  obtain ⟨sound, asked, offered⟩ := sound.ask buffered rfl
  generalize asking : ({ before with
    world := before.world.elapse.record 0 (.asked item) } : Timing α ε) =
      this at sound offered
  have onOffer : this.bufferedItem = some item := by
    rw [← asking]
    exact buffered
  have polls := onSink_triple this
    (TimeoutSink.pollReady_triple (this.peer, this.world))
  apply Triple.bind (fun answer after =>
    Offered (this.peer, this.world) answer (after.peer, after.world) ∧
    after.bufferedItem = this.bufferedItem ∧ after.done = this.done)
  · apply polls.consequence (fun _ same => same) (fun _ _ holds => holds)
    intro call after holds
    obtain ⟨waited, same, done⟩ := holds
    exact (sound.waited onOffer offered waited same done).1
  · intro answer
    apply Triple.modify_bind
    intro after premise
    obtain ⟨outcome, same, done⟩ := premise
    apply Triple.pure
    intro final noted
    subst noted
    have follow : Waited (this.peer, this.world) (after.peer, after.world) →
        Sound start timeout { after with
          world := after.world.record 0 (.answered item answer) } ∧
        OnOffer start timeout item asked after.peer.timer
          (after.world.record 0 (.answered item answer)) := by
      intro waited
      exact sound.waited onOffer offered (waited.record rfl) same done
    cases outcome with
    | pending waited => exact .pending (follow waited).1
    | ready waited cleared res =>
        exact .ready (follow waited).1 (same.trans onOffer) cleared res
    | expired waited cleared sleep armed polled =>
        obtain ⟨soundly, still⟩ := follow waited
        apply Replied.expired
        apply soundly.discard (same.trans onOffer) cleared still
        · simp [World.record]
        · intro punctual
          have elapsed := punctual.of_append.elapsed polled
          have created : asked ≤ sleep.since ∧ sleep.duration = timeout := by
            rcases armed with old | ⟨created, duration⟩
            · exact offered.timer sleep old
            · exact ⟨Nat.le_trans offered.past created,
                duration.trans sound.timeout_eq⟩
          obtain ⟨created, duration⟩ := created
          change _ ≤ after.world.clock
          change _ ≤ after.world.clock at elapsed
          omega

theorem pollLoop_triple (fuel : Nat) :
    Guarded start timeout (Sound start timeout : Timing α ε → Prop)
      (pollLoop timed fuel) := by
  induction fuel with
  | zero => exact Triple.throw (fun _ sound => sound)
  | succ fuel induction =>
      apply Triple.get_bind
      intro this sound
      cases buffered : this.bufferedItem with
      | none =>
          exact (pull_triple induction).startingAt ⟨sound, buffered⟩
      | some item =>
          apply Triple.bind _ ((offer_triple item).startingAt ⟨sound, buffered⟩)
          intro answer
          apply Triple.of_forall
          intro after replied
          cases replied with
          | pending sound =>
              exact (Guarded.pending (fun _ sound => sound)).startingAt sound
          | ready sound onOffer cleared res =>
              cases res with
              | ok =>
                  exact (send_triple induction item).startingAt
                    ⟨sound, onOffer, cleared⟩
              | error error =>
                  exact (Guarded.failed (fun _ sound => sound)
                    error).startingAt sound
          | expired sound =>
              apply Triple.modify_bind
              intro final same
              subst same
              exact induction.startingAt sound

theorem poll_triple :
    Guarded start timeout (Sound start timeout : Timing α ε → Prop)
      (poll timed) := by
  intro this sound
  unfold poll
  by_cases set : this.sink = true
  · rw [if_pos set]
    exact pollLoop_triple _ this sound
  · rw [if_neg set]
    exact sound

theorem pollTimes_triple (polls : Nat) :
    Triple (Sound start timeout)
      (pollTimes timed polls :
        ForwardM (TimeoutSink Unit) α ε ε (List (Forwarded ε)))
      (fun results this => Sound start timeout this ∧
        (results.getLast? = some (.ready (.ok ())) → Finished this))
      (fun _ this => Sound start timeout this) := by
  induction polls with
  | zero =>
      apply Triple.pure
      intro this sound
      refine ⟨sound, ?_⟩
      intro finished
      cases finished
  | succ polls induction =>
      apply Triple.bind _ induction
      intro results
      apply Triple.bind _ (poll_triple.strengthenPre (fun _ holds => holds.1))
      intro result
      apply Triple.pure
      intro this outcome
      refine ⟨outcome.1, ?_⟩
      intro finished
      apply outcome.2
      simpa using finished

end ForwardWithTimeout

theorem Sound.new (world : World α ε ε) (fresh : world.log = [])
    (timeout : Nat) :
    Sound world.clock timeout
      (.new (.withTimeout () timeout) world : Timing α ε) := by
  constructor
  · rfl
  · refine ⟨[], ?_, ?_⟩
    · change taken world.log = _
      rw [fresh]
      rfl
    · change Interleaving [] (sent world.log) (discarded world.log)
      rw [fresh]
      exact .nil
  · change Chronicle _ world.log
    rw [fresh]
    exact .nil
  · apply Attempt.idle
    intro _
    change world.clock + (discarded world.log).length * timeout ≤ world.clock
    rw [fresh]
    simp [discarded]
  · intro isOver
    cases isOver

end Rounds

namespace ForwardWithTimeout

section Unrolling

variable {σ α ε κ β : Type}
  {si : Sink σ (World α ε κ) α (SinkTimeoutError ε)}

/-- The rounds that the loop may still take. -/
def rounds (this : ForwardWithTimeout σ α ε κ) : Nat :=
  2 * this.world.script.nexts.length + this.bufferedItem.toList.length

/-- The code ends, or it stops at a call or in a panic. -/
def Ends (pre : ForwardWithTimeout σ α ε κ → Prop)
    (code : ForwardM σ α ε κ β) : Prop :=
  Triple pre code (fun _ _ => True) (fun stop _ => stop ≠ .horizon)

theorem onSink_keeps {code : EStateM Stop (σ × World α ε κ) β}
    (keeps : Keeps code) (this : ForwardWithTimeout σ α ε κ) :
    Triple (· = this) (onSink code)
      (fun _ after => after.world.script.nexts = this.world.script.nexts ∧
        after.bufferedItem = this.bufferedItem)
      (fun stop _ => stop ≠ .horizon) := by
  apply Triple.zoom
  intro start same
  subst same
  apply ((keeps start.world.script.nexts).startingAt rfl).consequence
    (fun _ same => same)
  · intro value after kept
    exact ⟨kept, rfl⟩
  · intro stop after call
    exact call

theorem failWith_ends (pre : ForwardWithTimeout σ α ε κ → Prop)
    (error : SinkTimeoutError ε) : Ends pre (failWith error) := by
  cases error with
  | timeout => exact Triple.throw (fun _ _ => Stop.noConfusion)
  | inner error => exact Triple.pure (fun _ _ => trivial)

theorem pollNext_ends {fuel : Nat} :
    Triple (fun this : ForwardWithTimeout σ α ε κ =>
        2 * this.world.script.nexts.length ≤ fuel)
      pollNext
      (fun answer after => ∀ item, answer = .ready (some (.ok item)) →
        2 * after.world.script.nexts.length + 2 ≤ fuel)
      (fun stop _ => stop ≠ .horizon) := by
  apply Triple.get_bind
  intro this bound
  by_cases isOver : this.done = true
  · rw [if_pos isOver]
    apply Triple.pure
    intro after same item equality
    cases equality
  · rw [if_neg isOver]
    apply Triple.bind (fun _ after =>
      2 * after.world.script.nexts.length + 2 ≤ fuel)
    · apply Triple.zoom
      intro start same world view
      subst same view
      unfold World.pollNext World.call
      dsimp only
      cases answers : start.world.script.nexts with
      | nil => exact Stop.noConfusion
      | cons entry rest =>
          rw [answers, List.length_cons] at bound
          change 2 * rest.length + 2 ≤ fuel
          omega
    · intro answer
      split
      · apply Triple.modify_bind
        intro after premise
        apply Triple.pure
        intro final same item equality
        cases equality
      · apply Triple.pure
        intro after premise item _
        exact premise

theorem onSink_ends {pre : ForwardWithTimeout σ α ε κ → Prop}
    {code : EStateM Stop (σ × World α ε κ) β} (keeps : Keeps code)
    {next : β → ForwardM σ α ε κ (Forwarded ε)}
    (tail : ∀ value, Ends (fun _ => True) (next value)) :
    Ends pre (onSink code >>= next) := by
  apply Triple.bind (fun _ _ => True)
  · apply Triple.of_forall
    intro this _
    exact (onSink_keeps keeps this).consequence
      (fun _ same => same) (fun _ _ _ => trivial) (fun _ _ call => call)
  · exact tail

theorem pull_ends (apart : Apart si) {fuel : Nat}
    {again : ForwardM σ α ε κ (Forwarded ε)}
    (next : Ends (fun this => this.rounds < fuel) again) :
    Ends (fun this => 2 * this.world.script.nexts.length ≤ fuel)
      (pull si again) := by
  apply Triple.bind _ pollNext_ends
  intro answer
  split
  · exact Triple.pure (fun _ _ => trivial)
  · next item =>
      apply Triple.modify_bind
      intro after premise
      apply next.startingAt
      have bound := premise item rfl
      change 2 * after.world.script.nexts.length + 1 < fuel
      omega
  · apply onSink_ends apart.pollClose
    intro answer
    split
    · exact Triple.pure (fun _ _ => trivial)
    · exact failWith_ends _ _
    · apply Triple.modify_bind
      intro after _
      exact Triple.pure (fun _ _ => trivial)
  · apply onSink_ends apart.pollFlush
    intro answer
    split
    · exact Triple.pure (fun _ _ => trivial)
    · exact failWith_ends _ _
    · exact Triple.pure (fun _ _ => trivial)

theorem send_ends (apart : Apart si) {fuel : Nat}
    {again : ForwardM σ α ε κ (Forwarded ε)}
    (next : Ends (fun this => this.rounds < fuel) again) (item : α) :
    Ends (fun this => 2 * this.world.script.nexts.length ≤ fuel)
      (send si item again) := by
  apply Triple.modify_bind
  intro this bound
  apply Triple.bind _ (onSink_keeps (apart.startSend item) _)
  intro started
  cases started with
  | error error => exact failWith_ends _ error
  | ok =>
      apply (pull_ends apart next).strengthenPre
      intro sent premise
      rw [premise.1]
      exact bound

theorem offer_ends (apart : Apart si) {fuel : Nat} (item : α) :
    Triple (fun this : ForwardWithTimeout σ α ε κ =>
        2 * this.world.script.nexts.length < fuel)
      (offer si item)
      (fun _ after => 2 * after.world.script.nexts.length < fuel)
      (fun stop _ => stop ≠ .horizon) := by
  apply Triple.modify_bind
  intro this bound
  apply Triple.bind _ (onSink_keeps apart.pollReady _)
  intro answer
  apply Triple.modify_bind
  intro after premise
  apply Triple.pure
  intro final same
  subst same
  change 2 * after.world.script.nexts.length < fuel
  rw [premise.1]
  exact bound

theorem pollLoop_ends (apart : Apart si) (fuel : Nat) :
    Ends (fun this => this.rounds < fuel) (pollLoop si fuel) := by
  induction fuel with
  | zero =>
      intro this bound
      exact absurd bound (Nat.not_lt_zero _)
  | succ fuel induction =>
      apply Triple.get_bind
      intro this bound
      cases buffered : this.bufferedItem with
      | none =>
          simp only [rounds, buffered, Option.toList_none,
            List.length_nil] at bound
          exact (pull_ends apart induction).startingAt
            (Nat.lt_succ_iff.mp bound)
      | some item =>
          simp only [rounds, buffered, Option.toList_some,
            List.length_singleton] at bound
          apply Triple.bind _
            ((offer_ends apart item).startingAt (Nat.lt_of_succ_lt_succ bound))
          intro answer
          split
          · exact Triple.pure (fun _ _ => trivial)
          · exact (send_ends apart induction item).strengthenPre
              (fun _ bound => Nat.le_of_lt bound)
          · apply Triple.modify_bind
            intro state bound
            exact induction.startingAt bound
          · exact Triple.pure (fun _ _ => trivial)

theorem poll_ends (apart : Apart si) (pre : ForwardWithTimeout σ α ε κ → Prop) :
    Ends pre (poll si) := by
  intro this _
  unfold poll
  by_cases set : this.sink = true
  · rw [if_pos set]
    apply pollLoop_ends apart _ this
    have atMost : this.bufferedItem.toList.length ≤ 1 := by
      cases this.bufferedItem <;> simp
    unfold rounds
    omega
  · rw [if_neg set]
    exact Stop.noConfusion

theorem pollTimes_ends (polls : Nat) :
    Ends (fun _ => True) (pollTimes timed polls :
      ForwardM (TimeoutSink Unit) α ε ε (List (Forwarded ε))) := by
  induction polls with
  | zero => exact Triple.pure (fun _ _ => trivial)
  | succ polls induction =>
      apply Triple.bind _ induction
      intro results
      apply Triple.bind _ (poll_ends apart_sink _)
      intro result
      exact Triple.pure (fun _ _ => trivial)

end Unrolling

end ForwardWithTimeout

section Forwarding

variable {α ε : Type}

open ForwardWithTimeout

/-- The future over a fresh sink with a timeout, in a world whose stream, sink
and timers are going to give the answers of the script. -/
def forwarding (script : Script α ε ε) (clock timeout : Nat) : Timing α ε :=
  .new (.withTimeout () timeout) { script := script, clock := clock, log := [] }

/-- At every point of every run, the items taken from the stream are an
interleaving of those given to the inner sink and those discarded, but for at
most a buffered one.  An item is discarded only right after `poll_ready` has
timed out with this item buffered, and if no timer is early, only when the
timeout has passed since the first `poll_ready` for this item, so that each
discarded item takes the whole timeout.  When the future completes with `Ok`,
the stream has ended, no item is buffered and the inner sink is closed. -/
theorem forward_accounts_for_every_item (script : Script α ε ε)
    (clock timeout polls : Nat) {final : Timing α ε}
    (observed : Observed (pollTimes timed polls)
      (forwarding script clock timeout) final) :
    (∃ handled,
      taken final.world.log = handled ++ final.bufferedItem.toList ∧
      Interleaving handled (sent final.world.log)
        (discarded final.world.log)) ∧
    (∀ before time item after,
      final.world.log = before ++ (time, .discarded item) :: after →
      before.getLast? =
        some (time, .answered item (.ready (.error .timeout))) ∧
      ∃ asked, Since before item asked ∧
        (Punctual before → asked + timeout ≤ time)) ∧
    (Punctual final.world.log →
      clock + (discarded final.world.log).length * timeout ≤
        final.world.clock) ∧
    (∀ results, pollTimes timed polls (forwarding script clock timeout) =
        .ok results final →
      results.getLast? = some (.ready (.ok ())) →
      final.bufferedItem = none ∧
      (∃ time, (time, .next (.ready none)) ∈ final.world.log) ∧
      ∃ time, final.world.log.getLast? =
        some (time, .close (.ready (.ok ())))) := by
  have fresh : Sound clock timeout (forwarding script clock timeout) :=
    Sound.new { script := script, clock := clock, log := [] } rfl timeout
  have triple : Triple (Sound clock timeout)
      (pollTimes timed polls : ForwardM (TimeoutSink Unit) α ε ε _) _ _ :=
    pollTimes_triple polls
  have sound : Sound clock timeout final :=
    triple.observed fresh observed (fun _ _ holds => holds.1)
      (fun _ _ holds => holds)
  refine ⟨sound.accounted, ?_, sound.attempt.paid, ?_⟩
  · intro before time item after split
    exact sound.justified before _ after split item rfl
  · intro results ended last
    have finished := (triple.ok fresh ended).2 last
    exact ⟨finished.empty, finished.ended, finished.closed⟩

/-- The sink has room for the first item only. -/
def oneRoom : Script Nat Unit Unit :=
  { nexts := [(1, .ready (some (.ok 7))), (2, .pending),
      (1, .ready (some (.ok 8))), (0, .ready none)]
    readies := [(0, .ready (.ok ())), (1, .pending), (4, .pending),
      (5, .pending)]
    starts := [(1, .ok ())]
    flushes := [(0, .ready (.ok ()))]
    closes := [(2, .ready (.ok ()))]
    sleeps := [(0, .pending), (1, .pending), (0, .ready ())]
    pauses := [] }

def oneRoomEnd : Timing Nat Unit :=
  halt (pollTimes timed 4) (forwarding oneRoom 0 10)

theorem forward_accounts_for_every_item_oneRoom :
    sent oneRoomEnd.world.log = [7] ∧ discarded oneRoomEnd.world.log = [8] ∧
    taken oneRoomEnd.world.log = [7, 8] ∧
    0 + (discarded oneRoomEnd.world.log).length * 10 ≤
      oneRoomEnd.world.clock ∧
    oneRoomEnd.bufferedItem = none ∧
    ∃ time, oneRoomEnd.world.log.getLast? =
      some (time, .close (.ready (.ok ()))) := by
  have seen : Observed (pollTimes timed 4) (forwarding oneRoom 0 10)
      oneRoomEnd := observed_halt _ _
  have results : value? (pollTimes timed 4) (forwarding oneRoom 0 10) =
      some [.pending, .pending, .pending, .ready (.ok ())] := by
    decide +kernel
  have ended : pollTimes timed 4 (forwarding oneRoom 0 10) =
      .ok [.pending, .pending, .pending, .ready (.ok ())] oneRoomEnd :=
    eq_ok_of_value? results
  have punctual : Punctual oneRoomEnd.world.log := by decide +kernel
  have facts := forward_accounts_for_every_item oneRoom 0 10 4 seen
  have finished := facts.2.2.2 _ ended rfl
  exact ⟨by decide +kernel, by decide +kernel, by decide +kernel,
    facts.2.2.1 punctual, finished.1, finished.2.2⟩

end Forwarding

end HoprUtilities.Network.Timeout
