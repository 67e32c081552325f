import HoprUtilities.Blokli.Connector
import HoprUtilities.Blokli.InFlight

/-!
# Injected faults

The embedding of the part of `ChainFaults` from `src/testing/blokli/faults.rs`
that makes operations misbehave; its counters of writes in flight are in
`InFlight`.  A test changes the faults at any time, and an operation meets
those that are set at the moment it looks.
-/

namespace HoprUtilities.Blokli

open HoprUtilities.Blokli.Connector (ChainEvent)

inductive Fault where
  | none
  | fail
  | hang
  deriving DecidableEq, Repr

inductive EventKind where
  | balanceIncreased
  | balanceDecreased
  | channelOpened
  | closureInitiated
  | closed
  | ticketRedeemed
  deriving DecidableEq, Repr

/-- The kind of an event of a channel.  The other events of the source have
none, and the connector never broadcasts them. -/
def EventKind.of : ChainEvent → EventKind
  | .channelBalanceIncreased _ _ => .balanceIncreased
  | .channelBalanceDecreased _ _ => .balanceDecreased
  | .channelOpened _ => .channelOpened
  | .channelClosureInitiated _ => .closureInitiated
  | .channelClosed _ => .closed
  | .ticketRedeemed _ => .ticketRedeemed

structure ChainFaults where
  ops : ChainOp → Option Fault
  confirmations : ChainOp → Option Fault
  withheldEvents : EventKind → Bool
  calls : ChainOp → Option Nat

/-- The name of an operation in a text. -/
def ChainOp.name : ChainOp → String
  | .safeInfo => "SafeInfo"
  | .balance => "Balance"
  | .ticketPrice => "TicketPrice"
  | .winProb => "WinProb"
  | .resolutionTime => "ResolutionTime"
  | .streamChannels => "StreamChannels"
  | .streamAccounts => "StreamAccounts"
  | .openChannel => "OpenChannel"
  | .fundChannel => "FundChannel"
  | .closeChannel => "CloseChannel"

def injectedFault (op : ChainOp) : String :=
  "injected fault on " ++ op.name

/-- What an operation is told: to go on, or to return an error, or nothing at
all. -/
inductive Resolution where
  | normal
  | failed (error : String)
  | never
  deriving DecidableEq, Repr

/-- What a test does to the faults. -/
inductive FaultChange where
  | set (op : ChainOp) (fault : Fault)
  | setConfirmation (op : ChainOp) (fault : Fault)
  | clear (op : ChainOp)
  | withholdEvent (kind : EventKind)
  | deliverEvent (kind : EventKind)
  deriving DecidableEq, Repr

/-- The operation whose submission, or whose confirmation, a change is about. -/
def FaultChange.submission? : FaultChange → Option ChainOp
  | .set op _ | .clear op => some op
  | _ => none

def FaultChange.confirmation? : FaultChange → Option ChainOp
  | .setConfirmation op _ | .clear op => some op
  | _ => none

namespace ChainFaults

def new : ChainFaults where
  ops := fun _ => none
  confirmations := fun _ => none
  withheldEvents := fun _ => false
  calls := fun _ => none

def set (self : ChainFaults) (op : ChainOp) (fault : Fault) : ChainFaults :=
  { self with ops := Function.update self.ops op (some fault) }

def setConfirmation (self : ChainFaults) (op : ChainOp) (fault : Fault) :
    ChainFaults :=
  { self with
    confirmations := Function.update self.confirmations op (some fault) }

/-- Both the submission and the confirmation. -/
def clear (self : ChainFaults) (op : ChainOp) : ChainFaults :=
  { self with
    ops := Function.update self.ops op none
    confirmations := Function.update self.confirmations op none }

def withholdEvent (self : ChainFaults) (kind : EventKind) : ChainFaults :=
  { self with withheldEvents := Function.update self.withheldEvents kind true }

def deliverEvent (self : ChainFaults) (kind : EventKind) : ChainFaults :=
  { self with withheldEvents := Function.update self.withheldEvents kind false }

def change (self : ChainFaults) : FaultChange → ChainFaults
  | .set op fault => self.set op fault
  | .setConfirmation op fault => self.setConfirmation op fault
  | .clear op => self.clear op
  | .withholdEvent kind => self.withholdEvent kind
  | .deliverEvent kind => self.deliverEvent kind

def callsOf (self : ChainFaults) (op : ChainOp) : Nat :=
  (self.calls op).getD 0

def fault (self : ChainFaults) (op : ChainOp) : Fault :=
  (self.ops op).getD .none

def confirmationFault (self : ChainFaults) (op : ChainOp) : Fault :=
  (self.confirmations op).getD .none

def record (self : ChainFaults) (op : ChainOp) : ChainFaults :=
  { self with calls := Function.update self.calls op (some (self.callsOf op + 1)) }

def isWithheld (self : ChainFaults) (event : ChainEvent) : Bool :=
  self.withheldEvents (.of event)

/-- A fault is read once: an operation that hangs never looks again. -/
def resolve (fault : Fault) (op : ChainOp) : Resolution :=
  match fault with
  | .none => .normal
  | .fail => .failed (injectedFault op)
  | .hang => .never

/-- What `gate` resolves to after it has recorded the call. -/
def gate (self : ChainFaults) (op : ChainOp) : Resolution :=
  resolve (self.fault op) op

def confirm (self : ChainFaults) (op : ChainOp) : Resolution :=
  resolve (self.confirmationFault op) op

variable (self : ChainFaults)

@[simp] theorem calls_change (change : FaultChange) :
    (self.change change).calls = self.calls := by
  cases change <;> rfl

theorem gate_change {op : ChainOp} {change : FaultChange}
    (apart : change.submission? ≠ some op) :
    (self.change change).gate op = self.gate op := by
  have kept : (self.change change).ops op = self.ops op := by
    cases change with
    | set other fault =>
        have different : op ≠ other := fun same => apart (congrArg some same.symm)
        exact Function.update_of_ne different _ _
    | clear other =>
        have different : op ≠ other := fun same => apart (congrArg some same.symm)
        exact Function.update_of_ne different _ _
    | setConfirmation other fault => rfl
    | withholdEvent kind => rfl
    | deliverEvent kind => rfl
  rw [gate, gate, fault, fault, kept]

theorem confirm_change {op : ChainOp} {change : FaultChange}
    (apart : change.confirmation? ≠ some op) :
    (self.change change).confirm op = self.confirm op := by
  have kept : (self.change change).confirmations op =
      self.confirmations op := by
    cases change with
    | setConfirmation other fault =>
        have different : op ≠ other := fun same => apart (congrArg some same.symm)
        exact Function.update_of_ne different _ _
    | clear other =>
        have different : op ≠ other := fun same => apart (congrArg some same.symm)
        exact Function.update_of_ne different _ _
    | set other fault => rfl
    | withholdEvent kind => rfl
    | deliverEvent kind => rfl
  rw [confirm, confirm, confirmationFault, confirmationFault, kept]

theorem withheld_change {kind : EventKind} {change : FaultChange}
    (apart : change ≠ if self.withheldEvents kind then .deliverEvent kind
      else .withholdEvent kind) :
    (self.change change).withheldEvents kind = self.withheldEvents kind := by
  cases change with
  | withholdEvent other =>
      by_cases same : kind = other
      · subst same
        cases withheld : self.withheldEvents kind with
        | true => exact Function.update_self ..
        | false => exact absurd (by simp [withheld]) apart
      · exact Function.update_of_ne same _ _
  | deliverEvent other =>
      by_cases same : kind = other
      · subst same
        cases withheld : self.withheldEvents kind with
        | true => exact absurd (by simp [withheld]) apart
        | false => exact Function.update_self ..
      · exact Function.update_of_ne same _ _
  | set op fault => rfl
  | setConfirmation op fault => rfl
  | clear op => rfl

theorem callsOf_record (op other : ChainOp) :
    (self.record op).callsOf other =
      self.callsOf other + if op = other then 1 else 0 := by
  by_cases same : other = op
  · subst same
    simp [record, callsOf]
  · have apart : op ≠ other := fun same' => same same'.symm
    simp [record, callsOf, Function.update_of_ne same, apart]

end ChainFaults

end HoprUtilities.Blokli
