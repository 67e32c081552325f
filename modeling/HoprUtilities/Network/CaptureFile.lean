import HoprUtilities.Network.Capture

/-!
# The file of a captured connection

The embedding of the task that `PcapIO::new` of `src/network_types/capture.rs`
spawns, beside the calls of the connection.  The task creates the file, takes
the packets out of the channel one at a time, and has each of them written by a
blocking thread.  An error of the thread ends the task; an error of the write
is in the result of the thread, where nobody looks at it.

The encoding of the blocks is in another crate.  A write may fail before or
after a part of the block is in the file.
-/

namespace HoprUtilities.Network

open HoprUtilities.Lib

def CapturedPacket.name : CapturedPacket → String
  | incoming _ _ => "Incoming"
  | outgoing _ _ => "Outgoing"

def CapturedPacket.timestamp : CapturedPacket → Nat
  | incoming timestamp _ | outgoing timestamp _ => timestamp

def CapturedPacket.data : CapturedPacket → Bytes
  | incoming _ data | outgoing _ data => data

structure EnhancedPacketBlock where
  interfaceId : Nat
  timestamp : Nat
  originalLen : UInt32
  data : Bytes
  comment : String
  deriving DecidableEq, Repr

def CapturedPacket.block (packet : CapturedPacket) : EnhancedPacketBlock where
  interfaceId := 0
  timestamp := packet.timestamp
  originalLen := packet.data.length.toUInt32
  data := packet.data
  comment := packet.name

inductive PcapChunk where
  | sectionHeader
  | interfaceDescription
  | packet (block : EnhancedPacketBlock)
  /-- What a failed write has left. -/
  | torn
  deriving DecidableEq, Repr

def PcapChunk.packet? : PcapChunk → Option EnhancedPacketBlock
  | .packet block => some block
  | _ => none

inductive WriteOutcome where
  | written
  | failed (torn : Bool)
  /-- The write does not return. -/
  | lost (torn : Bool)
  deriving DecidableEq, Repr

/-- What a write adds to the file. -/
def WriteOutcome.chunks (chunk : PcapChunk) : WriteOutcome → List PcapChunk
  | .written => [chunk]
  | .failed true | .lost true => [.torn]
  | .failed false | .lost false => []

def WriteOutcome.isLost : WriteOutcome → Bool
  | .lost _ => true
  | _ => false

inductive CaptureTask where
  | starting
  | waiting
  | writing (packet : CapturedPacket)
  /-- The channel has come to its end. -/
  | ended
  /-- The file could not be begun. -/
  | uncreated
  | broken
  deriving DecidableEq, Repr

/-- The packet that the blocking thread has. -/
def CaptureTask.inHand : CaptureTask → List CapturedPacket
  | .writing packet => [packet]
  | _ => []

/-- `log` has every packet that was handed to the thread, and what came of
it. -/
structure CaptureFile where
  capturing : Capturing
  live : Bool
  task : CaptureTask
  file : List PcapChunk
  log : List (CapturedPacket × WriteOutcome)
  deriving DecidableEq, Repr

/-- A call of the connection, or a step of the task. -/
inductive FileStep where
  | call (call : CaptureCall)
  | dropIo
  | create (interface : WriteOutcome)
  | notCreated (torn : Bool)
  | next
  | finish
  | write (outcome : WriteOutcome)
  deriving DecidableEq, Repr

/-- The calls of the connection itself. -/
def CaptureCall.isIo : CaptureCall → Bool
  | .receive | .giveUp => false
  | _ => true

namespace CaptureFile

def new : CaptureFile where
  capturing := .new
  live := true
  task := .starting
  file := []
  log := []

def sender (self : CaptureFile) : CaptureChannel := self.capturing.io.sender

/-- The task drops the receiver when it is over. -/
def giveUp (self : CaptureFile) (task : CaptureTask) : Option CaptureFile := do
  let capturing ← self.capturing.step .giveUp
  return { self with
    capturing := capturing
    task := task }

def step (self : CaptureFile) : FileStep → Option CaptureFile
  | .call call =>
      if self.live && call.isIo then do
        let capturing ← self.capturing.step call
        return { self with capturing := capturing }
      else none
  | .dropIo => if self.live then some { self with live := false } else none
  | .create interface =>
      if self.task = .starting then
        let created :=
          { self with
            file :=
              .sectionHeader :: interface.chunks .interfaceDescription }
        -- the task itself writes the description
        if interface.isLost then created.giveUp .uncreated
        else some { created with task := .waiting }
      else none
  | .notCreated torn =>
      if self.task = .starting then
        giveUp { self with file := if torn then [.torn] else [] } .uncreated
      else none
  | .next =>
      if self.task = .waiting then do
        let packet ← self.sender.sent[self.sender.received]?
        let capturing ← self.capturing.step .receive
        return { self with
          capturing := capturing
          task := .writing packet }
      else none
  | .finish =>
      if self.task = .waiting ∧
          self.sender.received = self.sender.sent.length ∧
          (self.sender.closed || !self.live) = true then
        self.giveUp .ended
      else none
  | .write outcome =>
      match self.task with
      | .writing packet =>
          let written :=
            { self with
              file := self.file ++ outcome.chunks (.packet packet.block)
              log := self.log ++ [(packet, outcome)] }
          if outcome.isLost then written.giveUp .broken
          else some { written with task := .waiting }
      | _ => none

/-- The blocks of the packets in the file. -/
def packets (self : CaptureFile) : List EnhancedPacketBlock :=
  self.file.filterMap PcapChunk.packet?

variable {state next : CaptureFile} {label : FileStep}

/-- What a call of the connection does to the channel. -/
structure Sends (before after : CaptureChannel) : Prop where
  received : after.received = before.received
  dropped : after.dropped = before.dropped
  sent : ∃ more, after.sent = before.sent ++ more ∧
    (before.connected = false → more = [])

theorem sends_refl (channel : CaptureChannel) : Sends channel channel :=
  ⟨rfl, rfl, [], (List.append_nil _).symm, fun _ => rfl⟩

theorem sends_trySend (channel : CaptureChannel) (packet : CapturedPacket) :
    Sends channel (channel.trySend packet) := by
  unfold CaptureChannel.trySend
  split_ifs with room
  · refine ⟨rfl, rfl, [packet], rfl, ?_⟩
    intro unconnected
    rw [unconnected] at room
    cases room
  · exact sends_refl channel

theorem sends_close (channel : CaptureChannel) (close : Bool) :
    Sends channel (if close then channel.closeChannel else channel) := by
  split_ifs
  · exact ⟨rfl, rfl, [], (List.append_nil _).symm, fun _ => rfl⟩
  · exact sends_refl channel

theorem sends_of_call {capturing after : Capturing} {call : CaptureCall}
    (taken : capturing.step call = some after) (isIo : call.isIo = true) :
    Sends capturing.io.sender after.io.sender := by
  cases call with
  | write timestamp buf inner =>
      cases taken
      exact sends_trySend _ _
  | flush inner =>
      cases taken
      exact sends_refl _
  | close inner =>
      cases taken
      exact sends_close _ _
  | read timestamp room inner =>
      cases taken
      dsimp only [ PcapIO.pollRead]
      split
      · exact sends_refl _
      · exact sends_close _ _
      · exact sends_trySend _ _
      · exact sends_refl _
  | receive | giveUp => cases isIo

/-- The file, the packets that were handed to the thread, and the channel. -/
structure Recorded (state : CaptureFile) : Prop where
  in_order : state.log.map Prod.fst ++ state.task.inHand =
    state.sender.sent.take state.sender.received
  received_le : state.sender.received ≤ state.sender.sent.length
  on_file : state.packets =
    (state.log.filter (·.2 = .written)).map (·.1.block)
  begins : state.task = .starting → state.file = [] ∧ state.log = []
  broken_iff : state.task = .broken ↔ ∃ entry ∈ state.log, entry.2.isLost
  complete : state.task = .ended →
    state.sender.received = state.sender.sent.length ∧
      state.sender.dropped = true

theorem recorded_new : new.Recorded where
  in_order := rfl
  received_le := Nat.le_refl _
  on_file := rfl
  begins _ := ⟨rfl, rfl⟩
  broken_iff := by simp [new]
  complete ended := by cases ended

theorem Recorded.call (recorded : state.Recorded) {capturing : Capturing}
    {call : CaptureCall} (isIo : call.isIo = true)
    (taken : state.capturing.step call = some capturing) :
    Recorded { state with capturing := capturing } := by
  have sends := sends_of_call taken isIo
  obtain ⟨more, sent, still⟩ := sends.sent
  have received : capturing.io.sender.received = state.sender.received :=
    sends.received
  have bound := recorded.received_le
  refine ⟨?_, ?_, recorded.on_file, recorded.begins, recorded.broken_iff, ?_⟩
  · dsimp only [sender] at bound ⊢
    rw [sent, sends.received, List.take_append_of_le_length bound]
    exact recorded.in_order
  · dsimp only [sender] at bound ⊢
    rw [sent, sends.received, List.length_append]
    omega
  · intro ended
    obtain ⟨all, dropped⟩ := recorded.complete ended
    have nothing : more = [] := by
      apply still
      dsimp only [sender] at dropped
      simp [CaptureChannel.connected, dropped]
    dsimp only [sender] at all dropped ⊢
    rw [sent, nothing, List.append_nil, sends.received, sends.dropped]
    exact ⟨all, dropped⟩

theorem packets_append (state : CaptureFile) (outcome : WriteOutcome)
    (block : EnhancedPacketBlock) :
    (state.file ++ outcome.chunks (.packet block)).filterMap
        PcapChunk.packet? =
      state.packets ++ if outcome = .written then [block] else [] := by
  rw [List.filterMap_append]
  cases outcome with
  | written => rfl
  | failed torn => cases torn <;> rfl
  | lost torn => cases torn <;> rfl

theorem Recorded.write (recorded : state.Recorded) {packet : CapturedPacket}
    (writing : state.task = .writing packet) (outcome : WriteOutcome)
    (task : CaptureTask) (handed : task.inHand = [])
    (capturing : Capturing)
    (sent : capturing.io.sender.sent = state.sender.sent)
    (received : capturing.io.sender.received = state.sender.received)
    (begins : task ≠ .starting) (ended : task ≠ .ended)
    (broken : task = .broken ↔ outcome.isLost = true) :
    Recorded
      { capturing := capturing
        live := state.live
        task := task
        file := state.file ++ outcome.chunks (.packet packet.block)
        log := state.log ++ [(packet, outcome)] } where
  in_order := by
    have in_order := recorded.in_order
    rw [writing] at in_order
    dsimp only [sender]
    rw [handed, List.append_nil, List.map_append, sent, received]
    exact in_order
  received_le := by
    dsimp only [sender]
    rw [sent, received]
    exact recorded.received_le
  on_file := by
    dsimp only [packets]
    rw [packets_append, recorded.on_file, List.filter_append, List.map_append]
    congr 1
    cases outcome <;> rfl
  begins starting := absurd starting begins
  broken_iff := by
    have before : ∀ entry ∈ state.log, entry.2.isLost = false := by
      intro entry member
      by_contra lost
      have isBroken := recorded.broken_iff.mpr
        ⟨entry, member, by simpa using lost⟩
      rw [writing] at isBroken
      cases isBroken
    rw [broken]
    constructor
    · intro lost
      exact ⟨_, List.mem_append_right _ (List.mem_singleton_self _), lost⟩
    · rintro ⟨entry, member, lost⟩
      rcases List.mem_append.mp member with old | new
      · rw [before entry old] at lost
        cases lost
      · rw [List.mem_singleton.mp new] at lost
        exact lost
  complete isEnded := absurd isEnded ended

theorem Recorded.start (recorded : state.Recorded)
    (starting : state.task = .starting) {capturing : Capturing}
    {task : CaptureTask} {file : List PcapChunk}
    (sent : capturing.io.sender.sent = state.sender.sent)
    (received : capturing.io.sender.received = state.sender.received)
    (bare : file.filterMap PcapChunk.packet? = [])
    (handed : task.inHand = []) (begins : task ≠ .starting)
    (ended : task ≠ .ended) (broken : task ≠ .broken) :
    Recorded
      { capturing := capturing
        live := state.live
        task := task
        file := file
        log := state.log } where
  in_order := by
    have in_order := recorded.in_order
    rw [starting] at in_order
    dsimp only [sender]
    rw [handed, sent, received]
    exact in_order
  received_le := by
    dsimp only [sender]
    rw [sent, received]
    exact recorded.received_le
  on_file := by
    dsimp only [packets]
    rw [bare, (recorded.begins starting).2]
    rfl
  begins isStarting := absurd isStarting begins
  broken_iff := by
    rw [(recorded.begins starting).2]
    simp [broken]
  complete isEnded := absurd isEnded ended

theorem Recorded.step (recorded : state.Recorded)
    (taken : state.step label = some next) : next.Recorded := by
  have unbroken : ∀ {task : CaptureTask}, state.task ≠ .broken →
      task ≠ .broken →
      (task = .broken ↔ ∃ entry ∈ state.log, entry.2.isLost) := by
    intro task before after
    rw [← recorded.broken_iff]
    exact iff_of_false after before
  cases label with
  | call call =>
      dsimp only [CaptureFile.step] at taken
      split_ifs at taken with alive
      obtain ⟨capturing, moved, same⟩ := Option.bind_eq_some_iff.mp taken
      cases same
      exact recorded.call (Bool.and_eq_true_iff.mp alive).2 moved
  | dropIo =>
      dsimp only [CaptureFile.step] at taken
      split_ifs at taken
      cases taken
      exact ⟨recorded.in_order, recorded.received_le, recorded.on_file,
        recorded.begins, recorded.broken_iff, recorded.complete⟩
  | create interface =>
      have bare : (PcapChunk.sectionHeader ::
          interface.chunks .interfaceDescription).filterMap
            PcapChunk.packet? = [] := by
        cases interface with
        | written => rfl
        | failed torn => cases torn <;> rfl
        | lost torn => cases torn <;> rfl
      dsimp only [CaptureFile.step] at taken
      split_ifs at taken with starting lost
      · cases taken
        exact recorded.start starting rfl rfl bare rfl CaptureTask.noConfusion
          CaptureTask.noConfusion CaptureTask.noConfusion
      · cases taken
        exact recorded.start starting rfl rfl bare rfl CaptureTask.noConfusion
          CaptureTask.noConfusion CaptureTask.noConfusion
  | notCreated torn =>
      dsimp only [CaptureFile.step] at taken
      by_cases starting : state.task = .starting
      · rw [if_pos starting] at taken
        cases taken
        refine recorded.start starting rfl rfl ?_ rfl CaptureTask.noConfusion
          CaptureTask.noConfusion CaptureTask.noConfusion
        cases torn <;> rfl
      · rw [if_neg starting] at taken
        cases taken
  | next =>
      dsimp only [CaptureFile.step] at taken
      split_ifs at taken with waiting
      obtain ⟨packet, found, taken⟩ := Option.bind_eq_some_iff.mp taken
      obtain ⟨capturing, moved, same⟩ := Option.bind_eq_some_iff.mp taken
      cases same
      dsimp only [Capturing.step] at moved
      split_ifs at moved with more
      cases moved
      have in_order := recorded.in_order
      rw [waiting] at in_order
      refine ⟨?_, more.1, recorded.on_file, CaptureTask.noConfusion,
        unbroken (by simp [waiting]) CaptureTask.noConfusion,
        CaptureTask.noConfusion⟩
      dsimp only [sender, CaptureTask.inHand] at found in_order ⊢
      rw [List.take_add_one, found, ← in_order]
      simp
  | finish =>
      dsimp only [CaptureFile.step] at taken
      split_ifs at taken with atEnd
      obtain ⟨waiting, all, _⟩ := atEnd
      cases taken
      have in_order := recorded.in_order
      rw [waiting] at in_order
      exact ⟨in_order, recorded.received_le, recorded.on_file,
        CaptureTask.noConfusion,
        unbroken (by simp [waiting]) CaptureTask.noConfusion,
        fun _ => ⟨all, rfl⟩⟩
  | write outcome =>
      dsimp only [CaptureFile.step] at taken
      split at taken
      · next packet writing =>
          split_ifs at taken with lost
          · cases taken
            exact recorded.write writing outcome .broken rfl _ rfl rfl
              CaptureTask.noConfusion CaptureTask.noConfusion
              (iff_of_true rfl lost)
          · cases taken
            exact recorded.write writing outcome .waiting rfl _ rfl rfl
              CaptureTask.noConfusion CaptureTask.noConfusion
              (iff_of_false CaptureTask.noConfusion lost)
      · cases taken

/-- The packets of the file are those that the connection has sent into the
channel, in their order and without those whose write has failed.  Only a
write that is lost stops the task. -/
theorem file_records_sent {labels : List FileStep} {final : CaptureFile}
    (ran : run step labels new = some final) :
    final.log.map Prod.fst ++ final.task.inHand =
        final.sender.sent.take final.sender.received ∧
      final.packets = (final.log.filter (·.2 = .written)).map (·.1.block) ∧
      (final.task = .broken ↔ ∃ entry ∈ final.log, entry.2.isLost) ∧
      (final.task = .ended →
        final.log.map Prod.fst = final.sender.sent) := by
  have recorded : final.Recorded :=
    run_invariant (fun _ _ _ taken recorded => Recorded.step recorded taken)
      ran recorded_new
  refine ⟨recorded.in_order, recorded.on_file, recorded.broken_iff, ?_⟩
  intro ended
  have in_order := recorded.in_order
  rw [ended, (recorded.complete ended).1, List.take_length] at in_order
  exact (List.append_nil _).symm.trans in_order

def lostFile : List FileStep :=
  [.call (.write 1 [7, 8] (.ready (.ok 2))), .create .written,
    .call (.read 2 4 (.ready (.ok [9]))), .next, .write (.failed true), .next,
    .write .written]

/-- The first packet is lost in a torn block, and the second one is written. -/
theorem file_records_sent_torn :
    ∃ final, run step lostFile new = some final ∧
      final.log.map Prod.fst ++ final.task.inHand =
        final.sender.sent.take final.sender.received ∧
      final.packets = (final.log.filter (·.2 = .written)).map (·.1.block) ∧
      (final.task = .broken ↔ ∃ entry ∈ final.log, entry.2.isLost) ∧
      (final.task = .ended →
        final.log.map Prod.fst = final.sender.sent) := by
  obtain ⟨final, ran⟩ : ∃ final, run step lostFile new = some final :=
    ⟨_, rfl⟩
  exact ⟨final, ran, file_records_sent ran⟩

/-- The data of a block, if its comment says so. -/
def dataOf (name : String) (block : EnhancedPacketBlock) : Bytes :=
  if block.comment = name then block.data else []

theorem dataOf_outgoing (packet : CapturedPacket) :
    dataOf "Outgoing" packet.block = packet.outgoingData := by
  cases packet <;> rfl

theorem dataOf_incoming (packet : CapturedPacket) :
    dataOf "Incoming" packet.block = packet.incomingData := by
  cases packet <;> rfl

/-- The calls are faithful and find room in the channel, and all writes
succeed. -/
def smooth (state : CaptureFile) : FileStep → Bool
  | .call call => state.capturing.faithful call && !state.sender.full
  | .write outcome => outcome = .written
  | _ => true

structure Smooth (state : CaptureFile) : Prop where
  recorded : state.Recorded
  mirrors : state.capturing.Mirrors
  written : ∀ entry ∈ state.log, entry.2 = .written

theorem Smooth.step (holds : state.Smooth)
    (taken : restrict smooth step state label = some next) : next.Smooth := by
  obtain ⟨allowed, taken⟩ := step_of_restrict taken
  have recorded := holds.recorded.step taken
  obtain ⟨outgoing, incoming⟩ := holds.mirrors
  have kept : state.capturing.Mirrors := ⟨outgoing, incoming⟩
  cases label with
  | call call =>
      dsimp only [CaptureFile.step] at taken
      split_ifs at taken
      obtain ⟨capturing, moved, same⟩ := Option.bind_eq_some_iff.mp taken
      cases same
      simp only [smooth, Bool.and_eq_true, Bool.not_eq_true'] at allowed
      exact ⟨recorded, (Capturing.mirrors_step state.capturing call capturing
        moved allowed.2 kept).mpr allowed.1, holds.written⟩
  | dropIo =>
      dsimp only [CaptureFile.step] at taken
      split_ifs at taken
      cases taken
      exact ⟨recorded, kept, holds.written⟩
  | create interface =>
      dsimp only [CaptureFile.step] at taken
      split_ifs at taken
      · cases taken
        exact ⟨recorded, ⟨outgoing, incoming⟩, holds.written⟩
      · cases taken
        exact ⟨recorded, kept, holds.written⟩
  | notCreated torn =>
      dsimp only [CaptureFile.step] at taken
      by_cases starting : state.task = .starting
      · rw [if_pos starting] at taken
        cases taken
        exact ⟨recorded, ⟨outgoing, incoming⟩, holds.written⟩
      · rw [if_neg starting] at taken
        cases taken
  | next =>
      dsimp only [CaptureFile.step] at taken
      split_ifs at taken
      obtain ⟨packet, _, taken⟩ := Option.bind_eq_some_iff.mp taken
      obtain ⟨capturing, moved, same⟩ := Option.bind_eq_some_iff.mp taken
      cases same
      dsimp only [Capturing.step] at moved
      split_ifs at moved
      cases moved
      exact ⟨recorded, ⟨outgoing, incoming⟩, holds.written⟩
  | finish =>
      dsimp only [CaptureFile.step] at taken
      split_ifs at taken
      cases taken
      exact ⟨recorded, ⟨outgoing, incoming⟩, holds.written⟩
  | write outcome =>
      have isWritten : outcome = .written := by simpa [smooth] using allowed
      subst isWritten
      dsimp only [CaptureFile.step] at taken
      split at taken
      · next packet writing =>
          cases taken
          refine ⟨recorded, kept, ?_⟩
          intro entry member
          rcases List.mem_append.mp member with old | new
          · exact holds.written entry old
          · rw [List.mem_singleton.mp new]
      · cases taken

/-- As long as nothing goes wrong, what a file says about one direction is a
beginning of what was transferred, and all of it when the task has ended. -/
theorem Smooth.tells (holds : state.Smooth) {name : String}
    {part : CapturedPacket → Bytes}
    (reads : ∀ packet : CapturedPacket, dataOf name packet.block = part packet) :
    state.packets.flatMap (dataOf name) <+:
        state.sender.sent.flatMap part ∧
      (state.task = .ended →
        state.packets.flatMap (dataOf name) =
          state.sender.sent.flatMap part) := by
  have whole : state.packets.flatMap (dataOf name) =
      (state.log.map Prod.fst).flatMap part := by
    have all : state.log.filter (·.2 = .written) = state.log :=
      List.filter_eq_self.mpr (fun entry member => by
        simpa using holds.written entry member)
    rw [holds.recorded.on_file, all, List.flatMap_map, List.flatMap_map]
    simp only [reads]
  have in_order := holds.recorded.in_order
  constructor
  · have begun : state.log.map Prod.fst <+: state.sender.sent :=
      (List.prefix_append _ _).trans (in_order ▸ List.take_prefix _ _)
    obtain ⟨rest, split⟩ := begun
    rw [whole, ← split, List.flatMap_append]
    exact List.prefix_append _ _
  · intro ended
    rw [ended, (holds.recorded.complete ended).1, List.take_length] at in_order
    rw [whole, ← in_order]
    simp [CaptureTask.inHand]

/-- The file alone tells what was transferred, in both directions: a beginning
of it at any time, and all of it at the end. -/
theorem file_tells_transfer {labels : List FileStep} {final : CaptureFile}
    (ran : run (restrict smooth step) labels new = some final) :
    final.packets.flatMap (dataOf "Outgoing") <+: final.capturing.accepted ∧
      final.packets.flatMap (dataOf "Incoming") <+:
        final.capturing.delivered ∧
      (final.task = .ended →
        final.packets.flatMap (dataOf "Outgoing") =
            final.capturing.accepted ∧
          final.packets.flatMap (dataOf "Incoming") =
            final.capturing.delivered) := by
  have begun : new.Smooth := by
    refine ⟨recorded_new, ⟨rfl, rfl⟩, ?_⟩
    intro entry member
    cases member
  have holds : final.Smooth :=
    run_invariant (fun _ _ _ taken holds => Smooth.step holds taken) ran begun
  obtain ⟨outgoing, allOutgoing⟩ := holds.tells dataOf_outgoing
  obtain ⟨incoming, allIncoming⟩ := holds.tells dataOf_incoming
  have accepted : final.sender.sent.flatMap CapturedPacket.outgoingData =
      final.capturing.accepted := holds.mirrors.outgoing
  have delivered : final.sender.sent.flatMap CapturedPacket.incomingData =
      final.capturing.delivered := holds.mirrors.incoming
  rw [accepted] at outgoing allOutgoing
  rw [delivered] at incoming allIncoming
  exact ⟨outgoing, incoming, fun ended =>
    ⟨allOutgoing ended, allIncoming ended⟩⟩

def smoothFile : List FileStep :=
  [.call (.write 1 [7, 8] (.ready (.ok 2))), .create .written,
    .call (.read 2 4 (.ready (.ok [9]))), .next, .write .written, .next,
    .write .written, .dropIo, .finish]

theorem file_tells_transfer_both_ways :
    ∃ final, run (restrict smooth step) smoothFile new = some final ∧
      final.packets.flatMap (dataOf "Outgoing") = final.capturing.accepted ∧
      final.packets.flatMap (dataOf "Incoming") =
        final.capturing.delivered := by
  obtain ⟨final, ran⟩ : ∃ final,
      run (restrict smooth step) smoothFile new = some final := ⟨_, rfl⟩
  have ended : final.task = .ended := by
    cases ran
    rfl
  exact ⟨final, ran, (file_tells_transfer ran).2.2 ended⟩

end CaptureFile

end HoprUtilities.Network
