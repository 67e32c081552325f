import HoprUtilities.Blokli.ReferenceHost
import HoprUtilities.Lib.MapTranslation

/-!
# The state builder

The embedding of `with_accounts` and `with_channels` of
`BlokliTestStateBuilder` of `src/testing/blokli/mod.rs`, which write accounts
and channels of the native types into a state.  Channels refer to their
accounts by key ids there, and key ids and epochs are signed.

The source panics on a key id that is taken and on a channel whose accounts are
not in the state.  The text of the panic is an error here.
-/

namespace HoprUtilities.Blokli.BlokliTestStateBuilder

open HoprUtilities.Lib
open Connector (AccountEntry ChannelEntry)

def getMultiaddrs (account : AccountEntry) : List String :=
  match account.entryType with
  | .notAnnounced => []
  | .announced multiaddrs => multiaddrs

def accountModel (account : AccountEntry) : Account where
  chainKey := hexEncode account.chainAddr
  keyid := account.keyId.toInt32
  multiAddresses := getMultiaddrs account
  packetKey := hexEncode account.publicKey
  safeAddress := account.safeAddress.map hexEncode

def defaultAllowance : Nat := 10000000000000

section Builder

variable (host : Host)

def deploySafe (account : AccountEntry) (state : State) : State :=
  match account.safeAddress with
  | some safe =>
      state.setSafe (hexEncode safe)
        { address := hexEncode safe
          owners := [hexEncode account.chainAddr]
          registeredNodes := [] }
  | none => state

/-- The tokens of a new account are with its Safe, which may spend the default
allowance. -/
def creditSafe (account : AccountEntry) (hoprBalance : Nat) (state : State) :
    State :=
  match account.safeAddress with
  | some safe =>
      ((state.write .tokenBalances (hexEncode safe)
        ⟨"HoprBalance", host.print .wxHopr hoprBalance⟩).write .nativeBalances
        (hexEncode safe) ⟨"NativeBalance", host.print .xDai 0⟩).write
        .safeAllowances (hexEncode safe)
        ⟨"SafeHoprAllowance",
          host.print .wxHopr (defaultAllowance * baseUnit)⟩
  | none => state

def insertAccount (account : AccountEntry) (hoprBalance nativeBalance : Nat)
    (state : State) : State :=
  let state := state.setAccount account.keyId (accountModel account)
  let state := deploySafe account state
  let state := state.write .tokenBalances (hexEncode account.chainAddr)
    ⟨"HoprBalance", host.print .wxHopr 0⟩
  let state := state.write .nativeBalances (hexEncode account.chainAddr)
    ⟨"NativeBalance", host.print .xDai nativeBalance⟩
  creditSafe host account hoprBalance state

/-- The accounts come with the balances of their Safes and their own native
balances. -/
def withAccounts : List (AccountEntry × Nat × Nat) → State →
    Except String State
  | [], state => .ok state
  | (account, hoprBalance, nativeBalance) :: rest, state =>
      match state.accounts.get? account.keyId with
      | some _ =>
          .error ("duplicate key id for account " ++
            host.displayAddress account.chainAddr)
      | none =>
          withAccounts rest
            (insertAccount host account hoprBalance nativeBalance state)

def keyidOf (accounts : IndexMap UInt32 Account) (address : Address) :
    Option Int32 :=
  (accounts.values.find? fun account =>
    account.chainKey = hexEncode address).map Account.keyid

def getId (channel : ChannelEntry) : ChannelId :=
  host.generateChannelId channel.source channel.destination

def closureTime (status : Connector.ChannelStatus) : Option String :=
  match status with
  | .pendingToClose time => some (host.rfc3339 time)
  | _ => none

def statusModel : Connector.ChannelStatus → ChannelStatus
  | .closed => .closed
  | .opened => .opened
  | .pendingToClose _ => .pendingToClose

def channelModel (channel : ChannelEntry) (source destination : Int32) :
    Channel where
  balance := host.print .wxHopr channel.balance
  closureTime := closureTime host channel.status
  concreteChannelId := hexEncode (getId host channel)
  destination := destination
  epoch := channel.channelEpoch.toInt32
  source := source
  status := statusModel channel.status
  ticketIndex := printU64 channel.ticketIndex

/-- Both panics speak of the destination. -/
def missingAccount (address : Address) : String :=
  "missing dst account " ++ host.displayAddress address

def channelEntry (accounts : IndexMap UInt32 Account)
    (channel : ChannelEntry) : Except String (String × Channel) :=
  match keyidOf accounts channel.source with
  | none => .error (missingAccount host channel.source)
  | some source =>
      match keyidOf accounts channel.destination with
      | none => .error (missingAccount host channel.destination)
      | some destination =>
          .ok (hexEncode (getId host channel),
            channelModel host channel source destination)

def withChannels (channels : List ChannelEntry) (state : State) :
    Except String State := do
  let entries ← channels.mapM (channelEntry host state.accounts)
  pure { state with channels := state.channels.extend entries }

end Builder

section Built

variable {host : Host} {state : State}

theorem insertAccount_accounts (account : AccountEntry)
    (hoprBalance nativeBalance : Nat) :
    (insertAccount host account hoprBalance nativeBalance state).accounts =
      state.accounts.put account.keyId (accountModel account) := by
  cases safe : account.safeAddress <;>
    simp [insertAccount, creditSafe, deploySafe, safe, State.write,
      State.setAccount, State.setSafe]

theorem insertAccount_channels (account : AccountEntry)
    (hoprBalance nativeBalance : Nat) :
    (insertAccount host account hoprBalance nativeBalance state).channels =
      state.channels := by
  cases safe : account.safeAddress <;>
    simp [insertAccount, creditSafe, deploySafe, safe, State.write,
      State.setAccount, State.setSafe]

theorem withAccounts_ok (host : Host)
    (accounts : List (AccountEntry × Nat × Nat))
    (distinct : (accounts.map (·.1.keyId)).Nodup)
    (fresh : ∀ account ∈ accounts,
      state.accounts.get? account.1.keyId = none) :
    ∃ built, withAccounts host accounts state = .ok built ∧
      built.accounts = state.accounts.extend (accounts.map fun account =>
        (account.1.keyId, accountModel account.1)) ∧
      built.channels = state.channels := by
  induction accounts generalizing state with
  | nil => exact ⟨state, rfl, rfl, rfl⟩
  | cons account rest induction =>
      obtain ⟨account, hoprBalance, nativeBalance⟩ := account
      obtain ⟨absent, distinct⟩ := List.nodup_cons.mp distinct
      have stillFresh : ∀ other ∈ rest,
          (insertAccount host account hoprBalance nativeBalance
            state).accounts.get? other.1.keyId = none := by
        intro other member
        have apart : other.1.keyId ≠ account.keyId := fun same =>
          absent (List.mem_map.mpr ⟨other, member, same⟩)
        rw [insertAccount_accounts, IndexMap.get?_put_of_ne apart]
        exact fresh other (List.mem_cons_of_mem _ member)
      obtain ⟨built, builds, written, kept⟩ := induction distinct stillFresh
      refine ⟨built, ?_, ?_, ?_⟩
      · have free := fresh _ List.mem_cons_self
        rw [withAccounts, free]
        exact builds
      · rw [written, insertAccount_accounts]
        rfl
      · rw [kept, insertAccount_channels]

theorem mapM_ok {α β ε : Type} {step : α → Except ε β} {result : α → β}
    {list : List α} (steps : ∀ value ∈ list, step value = .ok (result value)) :
    list.mapM step = .ok (list.map result) := by
  induction list with
  | nil => rfl
  | cons value rest induction =>
      have later := induction fun other member =>
        steps other (List.mem_cons_of_mem _ member)
      rw [List.mapM_cons, steps value List.mem_cons_self, later]
      rfl

end Built

end HoprUtilities.Blokli.BlokliTestStateBuilder
