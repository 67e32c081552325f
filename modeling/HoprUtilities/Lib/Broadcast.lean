import HoprUtilities.Lib.Threads
import Mathlib.Data.List.Basic

/-!
# Broadcasts that overflow

A broadcast channel keeps each message until every active receiver has taken
it.  When it is full, the oldest message goes, and a receiver that has not
taken it yet misses it.  Messages are numbered in the order in which they were
sent.

`Transcript` says what a receiver gets: the next message that it is due, or the
oldest of the last `capacity` messages if that one is gone.  The receivers do
not notice each other.  A channel `Overflows` if this is what its operations
do.  `Queue` is such a channel: the receivers share it, and `head` is the
number of the oldest message that it still holds.
-/

namespace HoprUtilities.Lib

variable {α χ : Type}

/-- A receiver.  `reads` are the numbers of the messages it got. -/
structure Cursor where
  joined : Nat
  next : Nat
  active : Bool
  reads : List Nat
  deriving DecidableEq, Repr

def Cursor.start (sent : Nat) : Cursor where
  joined := sent
  next := sent
  active := true
  reads := []

def Cursor.read (self : Cursor) (place : Nat) : Cursor :=
  { self with next := place + 1, reads := self.reads ++ [place] }

/-- What was sent, and what the receivers have read of it. -/
structure Transcript (α : Type) where
  sent : List α
  cursors : List Cursor
  deriving DecidableEq, Repr

namespace Transcript

def empty : Transcript α where
  sent := []
  cursors := []

/-- A message is sent if anybody listens. -/
def tryBroadcast (self : Transcript α) (message : α) : Transcript α :=
  if self.cursors.any (·.active) then
    { self with sent := self.sent ++ [message] }
  else self

def activate (self : Transcript α) : Transcript α :=
  { self with cursors := self.cursors ++ [.start self.sent.length] }

/-- A receiver takes the next message, past those that are gone. -/
def tryRecv (capacity : Nat) (self : Transcript α) (index : Nat) :
    Option (α × Transcript α) := do
  let cursor ← self.cursors[index]?
  let place := max cursor.next (self.sent.length - capacity)
  if cursor.active then
    let message ← self.sent[place]?
    return (message,
      { self with cursors := self.cursors.set index (cursor.read place) })
  else none

def drop (self : Transcript α) (index : Nat) : Transcript α :=
  match self.cursors[index]? with
  | some cursor =>
      { self with
        cursors := self.cursors.set index { cursor with active := false } }
  | none => self

end Transcript

/-- The operations of a broadcast channel.  Its receivers are numbered in the
order in which they were activated. -/
structure Broadcast (α χ : Type) where
  tryBroadcast : χ → α → χ
  activate : χ → χ
  tryRecv : χ → Nat → Option (α × χ)
  drop : χ → Nat → χ

structure Broadcast.Overflows (channel : Broadcast α χ) (capacity : Nat)
    (transcript : χ → Transcript α) : Prop where
  tryBroadcast : ∀ state message,
    transcript (channel.tryBroadcast state message) =
      (transcript state).tryBroadcast message
  activate : ∀ state,
    transcript (channel.activate state) = (transcript state).activate
  tryRecv : ∀ state index,
    (channel.tryRecv state index).map (Prod.map id transcript) =
      (transcript state).tryRecv capacity index
  drop : ∀ state index,
    transcript (channel.drop state index) = (transcript state).drop index

/-- What a receiver got, and why it did not get the rest: the messages it
missed are more than `capacity` before the end. -/
structure Cursor.Fair (capacity sent : Nat) (cursor : Cursor) : Prop where
  joined_le : cursor.joined ≤ cursor.next
  next_le : cursor.next ≤ sent
  ordered : cursor.reads.Pairwise (· < ·)
  inside : ∀ number ∈ cursor.reads,
    cursor.joined ≤ number ∧ number < cursor.next
  missed : ∀ number, cursor.joined ≤ number → number < cursor.next →
    number ∈ cursor.reads ∨ number + capacity < sent

theorem Cursor.Fair.grown {capacity sent more : Nat} {cursor : Cursor}
    (fair : cursor.Fair capacity sent) (grown : sent ≤ more) :
    cursor.Fair capacity more where
  joined_le := fair.joined_le
  next_le := Nat.le_trans fair.next_le grown
  ordered := fair.ordered
  inside := fair.inside
  missed number joined before := by
    rcases fair.missed number joined before with read | missed
    · exact .inl read
    · exact .inr (Nat.lt_of_lt_of_le missed grown)

/-- A receiver reads the message it is due, or the oldest that is left. -/
theorem Cursor.Fair.read {capacity sent : Nat} {cursor : Cursor}
    (fair : cursor.Fair capacity sent)
    (inside : max cursor.next (sent - capacity) < sent) :
    Fair capacity sent
      (cursor.read (max cursor.next (sent - capacity))) where
  joined_le := by
    have joined_le := fair.joined_le
    dsimp only [Cursor.read]
    omega
  next_le := inside
  ordered := by
    apply List.pairwise_append.mpr
    refine ⟨fair.ordered, List.pairwise_singleton _ _, ?_⟩
    intro earlier member last same
    rw [List.mem_singleton.mp same]
    exact Nat.lt_of_lt_of_le (fair.inside earlier member).2
      (Nat.le_max_left _ _)
  inside := by
    have joined_le := fair.joined_le
    apply forall_concat
    · intro number member
      have old := fair.inside number member
      dsimp only [Cursor.read]
      omega
    · dsimp only [Cursor.read]
      omega
  missed number joined before := by
    rcases Nat.lt_or_ge number cursor.next with old | new
    · rcases fair.missed number joined old with read | missed
      · exact .inl (List.mem_append_left _ read)
      · exact .inr missed
    · dsimp only [Cursor.read] at before
      by_cases last : number = max cursor.next (sent - capacity)
      · exact .inl (List.mem_append_right _ (List.mem_singleton.mpr last))
      · exact .inr (by omega)

/-- What every receiver got, and why it did not get the rest. -/
def Transcript.Fair (capacity : Nat) (transcript : Transcript α) : Prop :=
  ∀ cursor ∈ transcript.cursors,
    cursor.Fair capacity transcript.sent.length

namespace Transcript

variable {capacity index : Nat} {transcript : Transcript α}

@[simp] theorem cursors_tryBroadcast (message : α) :
    (transcript.tryBroadcast message).cursors = transcript.cursors := by
  unfold tryBroadcast
  split_ifs <;> rfl

theorem Fair.tryBroadcast (fair : transcript.Fair capacity) (message : α) :
    (transcript.tryBroadcast message).Fair capacity := by
  intro cursor member
  rw [cursors_tryBroadcast] at member
  apply (fair cursor member).grown
  unfold Transcript.tryBroadcast
  split_ifs
  · simp
  · exact Nat.le_refl _

theorem Fair.activate (fair : transcript.Fair capacity) :
    transcript.activate.Fair capacity := by
  apply forall_concat fair
  refine ⟨Nat.le_refl _, Nat.le_refl _, List.Pairwise.nil, ?_, ?_⟩
  · intro number member
    cases member
  · intro number joined before
    exact absurd before (Nat.not_lt.mpr joined)

theorem Fair.drop (fair : transcript.Fair capacity) (index : Nat) :
    (transcript.drop index).Fair capacity := by
  unfold Transcript.drop
  split
  · next cursor here =>
      have old := fair cursor (List.mem_of_getElem? here)
      exact forall_set fair
        ⟨old.joined_le, old.next_le, old.ordered, old.inside, old.missed⟩
  · exact fair

theorem tryRecv_eq_some {message : α} {next : Transcript α}
    (taken : transcript.tryRecv capacity index = some (message, next)) :
    ∃ cursor place, transcript.cursors[index]? = some cursor ∧
      cursor.active = true ∧
      place = max cursor.next (transcript.sent.length - capacity) ∧
      transcript.sent[place]? = some message ∧
      next = { transcript with
        cursors := transcript.cursors.set index (cursor.read place) } := by
  unfold tryRecv at taken
  obtain ⟨cursor, here, taken⟩ := Option.bind_eq_some_iff.mp taken
  dsimp only at taken
  split_ifs at taken with active
  obtain ⟨found, there, taken⟩ := Option.bind_eq_some_iff.mp taken
  cases taken
  exact ⟨cursor, _, here, active, rfl, there, rfl⟩

theorem Fair.tryRecv (fair : transcript.Fair capacity) {message : α}
    {next : Transcript α}
    (taken : transcript.tryRecv capacity index = some (message, next)) :
    next.Fair capacity := by
  obtain ⟨cursor, place, here, _, isPlace, there, rfl⟩ := tryRecv_eq_some taken
  have inside := (List.getElem?_eq_some_iff.mp there).1
  apply forall_set fair
  subst isPlace
  exact (fair cursor (List.mem_of_getElem? here)).read inside

end Transcript

/-- What the receivers share.  `head` is the number of the oldest message. -/
structure Queue (α : Type) where
  sent : List α
  head : Nat
  cursors : List Cursor
  deriving DecidableEq, Repr

namespace Queue

def empty : Queue α where
  sent := []
  head := 0
  cursors := []

/-- The number of the first message that an active receiver has not taken. -/
def due (self : Queue α) : Nat :=
  (self.cursors.filter (·.active)).foldr (fun cursor => min cursor.next)
    self.sent.length

/-- Messages that every active receiver has taken leave the queue. -/
def collect (self : Queue α) : Queue α :=
  { self with head := max self.head self.due }

def tryBroadcast (capacity : Nat) (self : Queue α) (message : α) : Queue α :=
  if self.cursors.any (·.active) then
    { self with
      sent := self.sent ++ [message]
      head :=
        if capacity ≤ self.sent.length - self.head then self.head + 1
        else self.head }
  else self

def activate (self : Queue α) : Queue α :=
  { self with cursors := self.cursors ++ [.start self.sent.length] }

def setCursor (self : Queue α) (index : Nat) (cursor : Cursor) : Queue α :=
  collect { self with cursors := self.cursors.set index cursor }

def tryRecv (self : Queue α) (index : Nat) : Option (α × Queue α) := do
  let cursor ← self.cursors[index]?
  let place := max cursor.next self.head
  if cursor.active then
    let message ← self.sent[place]?
    return (message, self.setCursor index (cursor.read place))
  else none

def drop (self : Queue α) (index : Nat) : Queue α :=
  match self.cursors[index]? with
  | some cursor => self.setCursor index { cursor with active := false }
  | none => self

def transcript (self : Queue α) : Transcript α where
  sent := self.sent
  cursors := self.cursors

/-- The queue fits, and an active receiver only lags behind it when it is
full. -/
structure Sound (capacity : Nat) (queue : Queue α) : Prop where
  head_le : queue.head ≤ queue.sent.length
  fits : queue.sent.length ≤ queue.head + capacity
  lag : ∀ cursor ∈ queue.cursors, cursor.active = true →
    cursor.next < queue.head → queue.head + capacity = queue.sent.length

variable {capacity index : Nat} {queue : Queue α}

theorem sound_empty : Sound capacity (empty : Queue α) where
  head_le := Nat.le_refl _
  fits := Nat.zero_le _
  lag _ member := by cases member

theorem due_le (queue : Queue α) : queue.due ≤ queue.sent.length := by
  unfold due
  induction queue.cursors.filter (·.active) with
  | nil => exact Nat.le_refl _
  | cons cursor rest induction =>
      exact Nat.le_trans (Nat.min_le_right _ _) induction

theorem due_le_next {cursor : Cursor} (member : cursor ∈ queue.cursors)
    (active : cursor.active = true) : queue.due ≤ cursor.next := by
  unfold due
  have listed := List.mem_filter.mpr ⟨member, active⟩
  revert listed
  induction queue.cursors.filter (·.active) with
  | nil =>
      intro listed
      cases listed
  | cons first rest induction =>
      intro listed
      rcases List.mem_cons.mp listed with same | later
      · subst same
        exact Nat.min_le_left _ _
      · exact Nat.le_trans (Nat.min_le_right _ _) (induction later)

/-- The next message of an active receiver is the one it is due, as long as
that is one of the last `capacity`. -/
theorem Sound.place (sound : queue.Sound capacity) {cursor : Cursor}
    (member : cursor ∈ queue.cursors) (active : cursor.active = true) :
    max cursor.next queue.head =
      max cursor.next (queue.sent.length - capacity) := by
  have fits := sound.fits
  have lag := sound.lag cursor member active
  omega

theorem Sound.collect (sound : queue.Sound capacity) :
    queue.collect.Sound capacity where
  head_le := Nat.max_le.mpr ⟨sound.head_le, queue.due_le⟩
  fits := by
    have fits := sound.fits
    change queue.sent.length ≤ max queue.head queue.due + capacity
    omega
  lag cursor member active behind := by
    have due : queue.due ≤ cursor.next := due_le_next member active
    have lag := sound.lag cursor member active
    change max queue.head queue.due + capacity = queue.sent.length
    change cursor.next < max queue.head queue.due at behind
    omega

theorem Sound.tryBroadcast (sound : queue.Sound capacity) (message : α) :
    (queue.tryBroadcast capacity message).Sound capacity := by
  have head_le := sound.head_le
  have fits := sound.fits
  unfold Queue.tryBroadcast
  split_ifs with heard full
  · refine ⟨?_, ?_, ?_⟩
    all_goals
      simp only [List.length_append, List.length_singleton]
    · omega
    · omega
    · intros
      omega
  · refine ⟨?_, ?_, ?_⟩
    all_goals
      simp only [List.length_append, List.length_singleton]
    · omega
    · omega
    · intro cursor member active behind
      have lag := sound.lag cursor member active behind
      omega
  · exact sound

theorem Sound.activate (sound : queue.Sound capacity) :
    queue.activate.Sound capacity where
  head_le := sound.head_le
  fits := sound.fits
  lag cursor member active behind := by
    rcases List.mem_append.mp member with old | new
    · exact sound.lag cursor old active behind
    · have head_le := sound.head_le
      rw [List.mem_singleton.mp new] at behind
      change queue.sent.length < queue.head at behind
      omega

theorem Sound.setCursor (sound : queue.Sound capacity) (index : Nat)
    {cursor : Cursor}
    (keepsUp : cursor.active = true → queue.head ≤ cursor.next) :
    (queue.setCursor index cursor).Sound capacity := by
  apply Sound.collect
  refine ⟨sound.head_le, sound.fits, ?_⟩
  apply forall_set sound.lag
  intro active behind
  exact absurd behind (Nat.not_lt.mpr (keepsUp active))

theorem Sound.drop (sound : queue.Sound capacity) (index : Nat) :
    (queue.drop index).Sound capacity := by
  unfold Queue.drop
  split
  · exact sound.setCursor index (fun active => by cases active)
  · exact sound

theorem tryRecv_eq_some {message : α} {next : Queue α}
    (taken : queue.tryRecv index = some (message, next)) :
    ∃ cursor, queue.cursors[index]? = some cursor ∧
      cursor.active = true ∧
      queue.sent[max cursor.next queue.head]? = some message ∧
      next = queue.setCursor index
        (cursor.read (max cursor.next queue.head)) := by
  unfold tryRecv at taken
  obtain ⟨cursor, here, taken⟩ := Option.bind_eq_some_iff.mp taken
  dsimp only at taken
  split_ifs at taken with active
  obtain ⟨found, there, taken⟩ := Option.bind_eq_some_iff.mp taken
  cases taken
  exact ⟨cursor, here, active, there, rfl⟩

theorem Sound.tryRecv (sound : queue.Sound capacity) {message : α}
    {next : Queue α} (taken : queue.tryRecv index = some (message, next)) :
    next.Sound capacity := by
  obtain ⟨cursor, here, active, there, rfl⟩ := tryRecv_eq_some taken
  apply sound.setCursor
  intro _
  exact Nat.le_succ_of_le (Nat.le_max_right _ _)

theorem transcript_tryBroadcast (queue : Queue α) (message : α) :
    (queue.tryBroadcast capacity message).transcript =
      queue.transcript.tryBroadcast message := by
  unfold Queue.tryBroadcast Transcript.tryBroadcast transcript
  split_ifs <;> rfl

theorem transcript_drop (queue : Queue α) (index : Nat) :
    (queue.drop index).transcript = queue.transcript.drop index := by
  unfold Queue.drop Transcript.drop
  dsimp only [transcript]
  split <;> rfl

theorem Sound.transcript_tryRecv (sound : queue.Sound capacity)
    (index : Nat) :
    (queue.tryRecv index).map (Prod.map id transcript) =
      queue.transcript.tryRecv capacity index := by
  unfold Queue.tryRecv Transcript.tryRecv
  dsimp only [transcript]
  cases here : queue.cursors[index]? with
  | none => rfl
  | some cursor =>
      simp only [Option.bind_eq_bind, Option.bind_some]
      split_ifs with active
      · rw [sound.place (List.mem_of_getElem? here) active]
        cases queue.sent[max cursor.next (queue.sent.length - capacity)]? with
        | none => rfl
        | some message => rfl
      · rfl

end Queue

/-- A queue of a given size. -/
def BoundedQueue (α : Type) (capacity : Nat) : Type :=
  { queue : Queue α // queue.Sound capacity }

namespace BoundedQueue

variable {capacity : Nat}

def empty : BoundedQueue α capacity := ⟨Queue.empty, Queue.sound_empty⟩

def transcript (self : BoundedQueue α capacity) : Transcript α :=
  self.1.transcript

def broadcast (α : Type) (capacity : Nat) :
    Broadcast α (BoundedQueue α capacity) where
  tryBroadcast queue message :=
    ⟨queue.1.tryBroadcast capacity message, queue.2.tryBroadcast message⟩
  activate queue := ⟨queue.1.activate, queue.2.activate⟩
  tryRecv queue index :=
    (queue.1.tryRecv index).pmap
      (fun result sound => (result.1, ⟨result.2, sound⟩))
      (fun _ taken => queue.2.tryRecv taken)
  drop queue index := ⟨queue.1.drop index, queue.2.drop index⟩

theorem overflows :
    (broadcast α capacity).Overflows capacity transcript where
  tryBroadcast queue message := queue.1.transcript_tryBroadcast message
  activate _ := rfl
  tryRecv queue index := by
    rw [transcript, ← queue.2.transcript_tryRecv index, broadcast,
      Option.map_pmap]
    exact Option.pmap_eq_map _ (Prod.map id Queue.transcript) _ _
  drop queue index := queue.1.transcript_drop index

end BoundedQueue

end HoprUtilities.Lib
