import HoprUtilities.Lib.Chunks
import HoprUtilities.Lib.Transition
import HoprUtilities.Network.CopyBuffer
import Mathlib.Data.List.Induction

/-!
# Chunks between byte streams and packets

The embedding of `AsyncReadStreamer` and `AsyncWriteSink` from
`src/network_types/utils.rs`.  The reader and the sink are arbitrary: their
answers are part of every poll, and a list of them is one way in which
readiness, short reads and errors may fall out.
-/

namespace HoprUtilities.Network

open HoprUtilities.Lib

/-- What the task budget and the sink answer in one poll, each if it is asked.
Without `tokio_unstable` the budget is not. -/
structure SinkAnswers where
  proceed : Poll Unit
  ready : Poll (IoResult Unit)
  startSend : IoResult Unit
  deriving DecidableEq, Repr

namespace SinkAnswers

def grants (self : SinkAnswers) : Bool :=
  self.proceed = .ready () && self.ready = .ready (.ok ()) &&
    self.startSend = .ok ()

/-- The sink may not be ready, but it does not fail. -/
def calm (self : SinkAnswers) : Bool :=
  (self.ready = .pending || self.ready = .ready (.ok ())) &&
    self.startSend = .ok ()

end SinkAnswers

def AsyncWriteSink.pollWrite (C : Nat) (buf : Bytes) (sink : SinkAnswers) :
    Poll (IoResult Nat) × Option Bytes :=
  match sink.proceed with
  | .pending => (.pending, none)
  | .ready () =>
      match sink.ready with
      | .pending => (.pending, none)
      | .ready (.error error) => (.ready (.error error), none)
      | .ready (.ok ()) =>
          let len := min buf.length C
          match sink.startSend with
          | .ok () => (.ready (.ok len), some (buf.take len))
          | .error error => (.ready (.error error), some (buf.take len))

/-- A loop that writes until nothing is left. -/
structure Writing where
  rest : Bytes
  handed : List Bytes
  failed : Option IoError
  deriving DecidableEq, Repr

namespace Writing

/-- The next poll of the loop, which retries with the same bytes. -/
def step (C : Nat) (self : Writing) (sink : SinkAnswers) : Writing :=
  if self.rest = [] ∨ self.failed.isSome then self
  else
    let (answer, packet) := AsyncWriteSink.pollWrite C self.rest sink
    let handed := self.handed ++ packet.toList
    match answer with
    | .pending => { self with handed := handed }
    | .ready (.ok 0) =>
        { self with handed := handed, failed := some (.simple .writeZero) }
    | .ready (.ok count) =>
        { self with rest := self.rest.drop count, handed := handed }
    | .ready (.error error) =>
        { self with handed := handed, failed := some error }

def start (bytes : Bytes) : Writing where
  rest := bytes
  handed := []
  failed := none

end Writing

def writeAll (C : Nat) (bytes : Bytes) (pattern : List SinkAnswers) :
    Writing :=
  pattern.foldl (Writing.step C) (.start bytes)

def AsyncReadStreamer.pollNext (S : Nat) (reader : Poll (IoResult Bytes)) :
    Poll (Option (IoResult Bytes)) :=
  match fitRead S reader with
  | .pending => .pending
  | .ready (.ok []) => .ready none
  | .ready (.ok data) => .ready (some (.ok data))
  | .ready (.error error) => .ready (some (.error error))

/-- What a stream has yielded up to its first `None`, and what its reader has
delivered for it. -/
structure Streaming where
  items : List Bytes
  failures : List IoError
  ended : Bool
  delivered : Bytes
  deriving DecidableEq, Repr

namespace Streaming

def start : Streaming where
  items := []
  failures := []
  ended := false
  delivered := []

def step (S : Nat) (self : Streaming) (reader : Poll (IoResult Bytes)) :
    Streaming :=
  if self.ended then self
  else
    let read :=
      match fitRead S reader with
      | .ready (.ok data) => { self with delivered := self.delivered ++ data }
      | _ => self
    match AsyncReadStreamer.pollNext S reader with
    | .pending => read
    | .ready none => { read with ended := true }
    | .ready (some (.ok item)) => { read with items := read.items ++ [item] }
    | .ready (some (.error error)) =>
        { read with failures := read.failures ++ [error] }

end Streaming

def streamAll (S : Nat) (reads : List (Poll (IoResult Bytes))) : Streaming :=
  reads.foldl (Streaming.step S) .start

/-- Every item of the stream is written before the next one is asked for. -/
structure Piping where
  streaming : Streaming
  writing : Writing
  deriving DecidableEq, Repr

inductive PipeCall where
  | next (reader : Poll (IoResult Bytes))
  | write (sink : SinkAnswers)
  deriving DecidableEq, Repr

namespace Piping

def start : Piping where
  streaming := .start
  writing := .start []

def step (S C : Nat) (self : Piping) : PipeCall → Option Piping
  | .next reader =>
      if self.streaming.ended = false ∧ self.writing.rest = [] ∧
          self.writing.failed = none then
        let item :=
          match AsyncReadStreamer.pollNext S reader with
          | .ready (some (.ok item)) => item
          | _ => []
        some
          { streaming := self.streaming.step S reader
            writing := { self.writing with rest := item } }
      else none
  | .write sink =>
      if self.writing.rest = [] then none
      else some { self with writing := self.writing.step C sink }

end Piping

namespace Writing

theorem take_min (bytes : Bytes) (C : Nat) :
    bytes.take (min bytes.length C) = bytes.take C := by
  rcases Nat.le_total bytes.length C with short | long
  · rw [Nat.min_eq_left short, List.take_length, List.take_of_length_le short]
  · rw [Nat.min_eq_right long]

theorem drop_min (bytes : Bytes) (C : Nat) :
    bytes.drop (min bytes.length C) = bytes.drop C := by
  rcases Nat.le_total bytes.length C with short | long
  · rw [Nat.min_eq_left short, List.drop_length, List.drop_of_length_le short]
  · rw [Nat.min_eq_right long]

theorem step_finished {C : Nat} {self : Writing} (empty : self.rest = [])
    (sink : SinkAnswers) : self.step C sink = self :=
  if_pos (Or.inl empty)

/-- A poll hands over a packet and counts it, hands over nothing, or fails. -/
theorem step_cases {C : Nat} (positive : 1 ≤ C) {self : Writing}
    (working : self.rest ≠ []) (healthy : self.failed = none)
    (sink : SinkAnswers) :
    (sink.grants = true ∧
      self.step C sink =
        { self with
          rest := self.rest.drop C
          handed := self.handed ++ [self.rest.take C] }) ∨
    (sink.grants = false ∧ self.step C sink = self) ∨
    (sink.calm = false ∧ (self.step C sink).failed.isSome = true) := by
  obtain ⟨proceed, ready, startSend⟩ := sink
  have running : ¬(self.rest = [] ∨ self.failed.isSome = true) := by
    simp [working, healthy]
  rw [step, if_neg running]
  cases proceed with
  | pending =>
      right
      left
      simp [SinkAnswers.grants, AsyncWriteSink.pollWrite]
  | ready =>
      cases ready with
      | pending =>
          right
          left
          simp [SinkAnswers.grants, AsyncWriteSink.pollWrite]
      | ready answer =>
          cases answer with
          | error error =>
              right
              right
              simp [SinkAnswers.calm, AsyncWriteSink.pollWrite]
          | ok =>
              cases startSend with
              | error error =>
                  right
                  right
                  simp [SinkAnswers.calm, AsyncWriteSink.pollWrite]
              | ok =>
                  left
                  have counted : min self.rest.length C ≠ 0 := by
                    have some := List.length_pos_iff.mpr working
                    omega
                  obtain ⟨count, same⟩ := Nat.exists_eq_succ_of_ne_zero counted
                  refine ⟨rfl, ?_⟩
                  rw [← drop_min, ← take_min]
                  simp [AsyncWriteSink.pollWrite, same]

/-- What has been handed over and what is left give the bytes, in chunks. -/
structure Cut (C : Nat) (bytes : Bytes) (writing : Writing) : Prop where
  joined : writing.handed.flatten ++ writing.rest = bytes
  chunks : Chunks C writing.handed writing.rest

theorem cut_take {C : Nat} (positive : 1 ≤ C) {bytes : Bytes}
    {self : Writing} (cut : self.Cut C bytes) (working : self.rest ≠ []) :
    Cut C bytes
      { self with
        rest := self.rest.drop C
        handed := self.handed ++ [self.rest.take C] } :=
  { joined := by
      rw [List.flatten_append, List.flatten_singleton, List.append_assoc,
        List.take_append_drop]
      exact cut.joined
    chunks := cut.chunks.take positive working }

theorem writeAll_append_singleton (C : Nat) (bytes : Bytes)
    (pattern : List SinkAnswers) (sink : SinkAnswers) :
    writeAll C bytes (pattern ++ [sink]) =
      (writeAll C bytes pattern).step C sink := by
  simp [writeAll]

/-- A sink that does not fail is handed one chunk for every time it is ready,
until none is left. -/
theorem writeAll_calm {C : Nat} (positive : 1 ≤ C) (bytes : Bytes)
    {pattern : List SinkAnswers}
    (calm : ∀ sink ∈ pattern, sink.calm = true) :
    (writeAll C bytes pattern).failed = none ∧
    (writeAll C bytes pattern).Cut C bytes ∧
    (writeAll C bytes pattern).rest =
      bytes.drop (C * pattern.countP SinkAnswers.grants) := by
  induction pattern using List.reverseRecOn with
  | nil =>
      exact ⟨rfl, { joined := rfl, chunks := .nil C bytes }, rfl⟩
  | append_singleton pattern sink induction =>
      obtain ⟨healthy, cut, left⟩ := induction fun sink member =>
        calm sink (List.mem_append_left _ member)
      have last := calm sink (by simp)
      rw [writeAll_append_singleton, List.countP_append,
        List.countP_singleton, Nat.mul_add]
      by_cases working : (writeAll C bytes pattern).rest = []
      · rw [step_finished working]
        have short : bytes.length ≤
            C * pattern.countP SinkAnswers.grants := by
          rw [left] at working
          exact List.drop_eq_nil_iff.mp working
        refine ⟨healthy, cut, working.trans ?_⟩
        rw [List.drop_of_length_le (Nat.le_add_right_of_le short)]
      · rcases step_cases positive working healthy sink with
          ⟨grants, taken⟩ | ⟨refuses, same⟩ | ⟨fails, _⟩
        · rw [taken, grants]
          refine ⟨healthy, cut_take positive cut working, ?_⟩
          rw [left, List.drop_drop, if_pos rfl, Nat.mul_one]
        · rw [same, refuses]
          exact ⟨healthy, cut, left⟩
        · rw [last] at fails
          cases fails

end Writing

namespace Streaming

/-- The items are the bytes that were delivered. -/
structure Splits (S : Nat) (stream : Streaming) : Prop where
  bounded : ∀ item ∈ stream.items, item ≠ [] ∧ item.length ≤ S
  joined : stream.items.flatten = stream.delivered

theorem fitRead_le {S : Nat} {reader : Poll (IoResult Bytes)} {data : Bytes}
    (answer : fitRead S reader = .ready (.ok data)) : data.length ≤ S := by
  cases reader with
  | pending => cases answer
  | ready result =>
      cases result with
      | error error => cases answer
      | ok read =>
          cases answer
          rw [List.length_take]
          exact Nat.min_le_left _ _

theorem splits_step {S : Nat} {self : Streaming} (splits : self.Splits S)
    (reader : Poll (IoResult Bytes)) : (self.step S reader).Splits S := by
  rw [step]
  split_ifs with ended
  · exact splits
  · cases answer : fitRead S reader with
    | pending =>
        simpa only [AsyncReadStreamer.pollNext, answer] using splits
    | ready result =>
        cases result with
        | error error =>
            simp only [AsyncReadStreamer.pollNext, answer]
            exact ⟨splits.bounded, splits.joined⟩
        | ok data =>
            cases data with
            | nil =>
                simp only [AsyncReadStreamer.pollNext, answer,
                  List.append_nil]
                exact ⟨splits.bounded, splits.joined⟩
            | cons byte rest =>
                simp only [AsyncReadStreamer.pollNext, answer]
                refine ⟨fun item member => ?_, ?_⟩
                · rcases List.mem_append.mp member with older | newest
                  · exact splits.bounded item older
                  · rw [List.mem_singleton.mp newest]
                    exact ⟨List.cons_ne_nil _ _, fitRead_le answer⟩
                · rw [List.flatten_append, splits.joined,
                    List.flatten_singleton]

theorem splits_streamAll (S : Nat) (reads : List (Poll (IoResult Bytes))) :
    (streamAll S reads).Splits S := by
  induction reads using List.reverseRecOn with
  | nil =>
      exact
        { bounded := fun _ member => nomatch member
          joined := rfl }
  | append_singleton reads reader induction =>
      have last := splits_step induction reader
      simpa [streamAll] using last

theorem delivered_step {S : Nat} {self : Streaming}
    (going : self.ended = false) (reader : Poll (IoResult Bytes)) :
    (self.step S reader).delivered = self.delivered ++
      match AsyncReadStreamer.pollNext S reader with
      | .ready (some (.ok item)) => item
      | _ => [] := by
  rw [step, if_neg (by simp [going])]
  cases answer : fitRead S reader with
  | pending => simp [AsyncReadStreamer.pollNext, answer]
  | ready result =>
      cases result with
      | error error => simp [AsyncReadStreamer.pollNext, answer]
      | ok data =>
          cases data with
          | nil => simp [AsyncReadStreamer.pollNext, answer]
          | cons byte rest => simp [AsyncReadStreamer.pollNext, answer]

end Streaming

namespace Piping

/-- Unless the sink has failed, no byte is lost and none is sent twice. -/
def Passes (self : Piping) : Prop :=
  self.writing.failed = none →
    self.writing.handed.flatten ++ self.writing.rest =
      self.streaming.delivered

theorem passes_step {S C : Nat} (positive : 1 ≤ C) (self : Piping)
    (call : PipeCall) (next : Piping)
    (taken : self.step S C call = some next) (passes : self.Passes) :
    next.Passes := by
  intro healthy
  cases call with
  | next reader =>
      simp only [step] at taken
      split_ifs at taken with idle
      obtain ⟨going, empty, unfailed⟩ := idle
      cases taken
      have before := passes unfailed
      rw [empty, List.append_nil] at before
      rw [Streaming.delivered_step going, ← before]
  | write sink =>
      simp only [step] at taken
      split_ifs at taken with working
      cases taken
      by_cases unfailed : self.writing.failed = none
      · have before := passes unfailed
        rcases Writing.step_cases positive working unfailed sink with
          ⟨_, counted⟩ | ⟨_, same⟩ | ⟨_, fails⟩
        · rw [counted, List.flatten_append, List.flatten_singleton,
            List.append_assoc, List.take_append_drop]
          exact before
        · rw [same]
          exact before
        · rw [healthy] at fails
          cases fails
      · have stopped : self.writing.step C sink = self.writing :=
          if_pos (Or.inr (Option.isSome_iff_ne_none.mpr unfailed))
        rw [stopped] at healthy
        exact absurd healthy unfailed

theorem passes_run {S C : Nat} (positive : 1 ≤ C) {calls : List PipeCall}
    {last : Piping} (ran : run (step S C) calls start = some last) :
    last.Passes :=
  run_invariant (passes_step positive) ran fun _ => rfl

end Piping

/-- Bytes pass through the adaptors unchanged: a write as chunks of one size, a
read as items of at most one size, and both together as what they were. -/
theorem chunking_preserves_bytes (S : Nat) {C : Nat} (positive : 1 ≤ C) :
    (∀ (bytes : Bytes) (pattern : List SinkAnswers),
      (∀ sink ∈ pattern, sink.calm = true) →
      let last := writeAll C bytes pattern
      last.failed = none ∧ last.handed.flatten ++ last.rest = bytes ∧
      (last.rest = [] ↔
        bytes.length ≤ C * pattern.countP SinkAnswers.grants) ∧
      (last.rest = [] →
        last.handed.length = (bytes.length + C - 1) / C ∧
        last.handed.flatten = bytes ∧
        (∀ packet ∈ last.handed.dropLast, packet.length = C) ∧
        ∀ packet ∈ last.handed, 0 < packet.length ∧ packet.length ≤ C)) ∧
    (∀ reads : List (Poll (IoResult Bytes)),
      let stream := streamAll S reads
      (∀ item ∈ stream.items, item ≠ [] ∧ item.length ≤ S) ∧
      stream.items.flatten = stream.delivered) ∧
    ∀ calls last, run (Piping.step S C) calls Piping.start = some last →
      last.writing.failed = none →
      last.writing.handed.flatten ++ last.writing.rest =
        last.streaming.delivered := by
  refine ⟨fun bytes pattern calm => ?_, fun reads => ?_, ?_⟩
  · obtain ⟨healthy, cut, left⟩ := Writing.writeAll_calm positive bytes calm
    refine ⟨healthy, cut.joined, ?_, fun finished => ?_⟩
    · rw [left, List.drop_eq_nil_iff]
    · have whole := cut.joined
      have chunks := cut.chunks
      rw [finished] at whole chunks
      rw [List.append_nil] at whole
      have count := chunks.length_eq positive
      rw [whole] at count
      exact ⟨count, whole, chunks.full, chunks.bounded⟩
  · have splits := Streaming.splits_streamAll S reads
    exact ⟨splits.bounded, splits.joined⟩
  · intro calls last ran healthy
    exact Piping.passes_run positive ran healthy

/-- The budget is used up before the first packet, and the sink is not ready
for the second one at once. -/
theorem chunking_preserves_bytes_paused :
    let ready : SinkAnswers := ⟨.ready (), .ready (.ok ()), .ok ()⟩
    let last := writeAll 2 [1, 2, 3]
      [{ ready with proceed := .pending }, ready,
        { ready with ready := .pending }, ready]
    last.handed.length = 2 ∧ last.handed.flatten = [1, 2, 3] ∧
      last.handed = [[1, 2], [3]] := by
  intro ready last
  obtain ⟨writes, _, _⟩ :=
    chunking_preserves_bytes 4 (show 1 ≤ 2 by decide)
  have calm : ∀ sink ∈
      [{ ready with proceed := .pending }, ready,
        { ready with ready := .pending }, ready],
      sink.calm = true := by decide
  obtain ⟨_, _, _, finished⟩ := writes [1, 2, 3] _ calm
  obtain ⟨count, joined, _, _⟩ := finished (by decide)
  exact ⟨count, joined, by decide⟩

end HoprUtilities.Network
