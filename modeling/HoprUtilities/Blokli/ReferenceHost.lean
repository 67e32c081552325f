import HoprUtilities.Blokli.Emulator
import HoprUtilities.Blokli.Connector

/-!
# A host

A host to run the emulator with.  Its amounts have the texts of the crates: a
whole number of tokens is printed as such, and amounts given in wei are read
too.  Accounts and channels are looked up by the texts of their addresses and
ids.  What the transactions are parsed into is left open.

The reader of the connector takes the texts that the emulator writes.
-/

namespace HoprUtilities.Blokli

open HoprUtilities.Lib

def Currency.symbol : Currency → String
  | .wxHopr => "wxHOPR"
  | .xDai => "xDai"

def baseUnit : Nat := 1000000000000000000

def printAmount (currency : Currency) (amount : Nat) : String :=
  if amount % baseUnit = 0 then
    (amount / baseUnit).repr ++ " " ++ currency.symbol
  else amount.repr ++ " wei " ++ currency.symbol

def parseAmount (currency : Currency) (text : String) : Option Nat :=
  let digits := text.toList.takeWhile Char.isDigit
  let value := Nat.ofDigitChars 10 digits 0
  let unit := text.toList.dropWhile Char.isDigit
  if digits = [] then none
  else if unit = (" " ++ currency.symbol).toList then some (value * baseUnit)
  else if unit = (" wei " ++ currency.symbol).toList then some value
  else none

theorem digits_repr_append (value : Nat) (rest : List Char)
    (stops : ∀ char ∈ rest.head?, char.isDigit = false) :
    (value.repr.toList ++ rest).takeWhile Char.isDigit = value.repr.toList ∧
      (value.repr.toList ++ rest).dropWhile Char.isDigit = rest := by
  have digits : ∀ char ∈ value.repr.toList, char.isDigit = true := by
    rw [Nat.toList_repr]
    exact fun char member => Nat.isDigit_of_mem_toDigits (by decide)
      (by decide) member
  rw [List.takeWhile_append_of_pos digits, List.dropWhile_append_of_pos digits]
  cases rest with
  | nil => simp
  | cons char rest =>
      have stop := stops char rfl
      simp [stop]

theorem ofDigitChars_repr (value : Nat) :
    Nat.ofDigitChars 10 value.repr.toList 0 = value := by
  rw [Nat.toList_repr]
  exact Nat.ofDigitChars_toDigits (by decide) (by decide)

theorem parseAmount_printAmount (currency : Currency) (amount : Nat) :
    parseAmount currency (printAmount currency amount) = some amount := by
  have nonempty : ∀ value : Nat, value.repr.toList ≠ [] := by
    intro value
    rw [Nat.toList_repr]
    exact Nat.toDigits_ne_nil
  unfold printAmount
  split
  · next whole =>
      have text : ((amount / baseUnit).repr ++ " " ++ currency.symbol).toList =
          (amount / baseUnit).repr.toList ++
            (" " ++ currency.symbol).toList := by
        simp
      obtain ⟨taken, dropped⟩ := digits_repr_append (amount / baseUnit)
        (" " ++ currency.symbol).toList (by simp)
      rw [parseAmount, text, taken, dropped, if_neg (nonempty _), if_pos rfl,
        ofDigitChars_repr]
      exact congrArg some (Nat.div_mul_cancel (Nat.dvd_of_mod_eq_zero whole))
  · have text : (amount.repr ++ " wei " ++ currency.symbol).toList =
        amount.repr.toList ++ (" wei " ++ currency.symbol).toList := by
      simp
    obtain ⟨taken, dropped⟩ := digits_repr_append amount
      (" wei " ++ currency.symbol).toList (by simp)
    have apart : (" wei " ++ currency.symbol).toList ≠
        (" " ++ currency.symbol).toList := by
      cases currency <;> decide
    rw [parseAmount, text, taken, dropped, if_neg (nonempty _), if_neg apart,
      if_pos rfl, ofDigitChars_repr]

def contractsText : String :=
  "\x7b\"channels\":\"0x9a9a9a9a9a9a9a9a9a9a9a9a9a9a9a9a9a9a9a9a\"\x7d"

def twoDigits (value : Nat) : String :=
  if value < 10 then "0" ++ value.repr else value.repr

/-- The times of the first day, in whole seconds. -/
def printTime (milliseconds : Nat) : String :=
  let seconds := milliseconds / 1000
  "1970-01-01T" ++ twoDigits (seconds / 3600) ++ ":" ++
    twoDigits (seconds / 60 % 60) ++ ":" ++ twoDigits (seconds % 60) ++ "+00:00"

def joinAddresses (source destination : Address) : ChannelId :=
  Vector.ofFn fun place : Fin 32 =>
    if inside : place.val < 16 then source.get ⟨place, by omega⟩
    else destination.get ⟨place - 16, by omega⟩

def Host.reference (parsed : List UInt8 → Option (Action × Address)) :
    Host where
  contractAddresses text :=
    if text = contractsText then some ⟨Vector.replicate 20 0x9a⟩ else none
  parseTx signedTx _ _ :=
    match parsed signedTx with
    | some transaction => .ok transaction
    | none => .error "failed to parse transaction"
  generateChannelId := joinAddresses
  parse := parseAmount
  print := printAmount
  later now duration :=
    if now + duration < 8210266876800000 then some (now + duration) else none
  rfc3339 := printTime
  displayAddress address := "0x" ++ hexEncode address
  displayChannel channelId := "0x" ++ hexEncode channelId
  getAccount accounts address :=
    (accounts.first? (·.chainKey == hexEncode address)).map Prod.fst
  getAccountSafe accounts address :=
    (accounts.first? (·.chainKey == hexEncode address)).bind (·.2.safeAddress)
  getChannelById channels channelId :=
    (channels.get? (hexEncode channelId)).map fun _ => hexEncode channelId
  getSafeByOwner safes address :=
    safes.values.filter (·.owners.contains (hexEncode address))

theorem reference_roundTrips (parsed : List UInt8 → Option (Action × Address)) :
    (Host.reference parsed).RoundTrips :=
  parseAmount_printAmount

theorem reference_findsAccounts
    (parsed : List UInt8 → Option (Action × Address)) :
    (Host.reference parsed).FindsAccounts := by
  constructor
  · intro accounts address key found
    obtain ⟨entry, first, same⟩ := Option.map_eq_some_iff.mp found
    cases same
    refine ⟨entry.2, IndexMap.get?_of_first? first, ?_⟩
    simpa using IndexMap.test_of_first? first
  · intro accounts address missing account member
    obtain ⟨key, here⟩ := IndexMap.get?_of_mem_values member
    have none := Option.map_eq_none_iff.mp missing
    simpa using IndexMap.not_test_of_first?_none none here

def hexValue (digit : Char) : Option Nat :=
  (List.range 16).find? (Nat.digitChar · = digit)

def hexBytes : List Char → Option (List UInt8)
  | [] => some []
  | [_] => none
  | high :: low :: rest => do
      let upper ← hexValue high
      let lower ← hexValue low
      let bytes ← hexBytes rest
      pure (UInt8.ofNat (16 * upper + lower) :: bytes)

def hexDecode (size : Nat) (text : String) :
    Except String (Vector UInt8 size) :=
  match hexBytes text.toList with
  | some bytes =>
      if fits : bytes.length = size then .ok ⟨bytes.toArray, fits⟩
      else .error "invalid length"
  | none => .error "invalid hex text"

theorem hexBytes_flatMap (bytes : List UInt8) :
    hexBytes (bytes.flatMap hexDigits) = some bytes := by
  have table : ∀ value : Fin 16,
      hexValue (Nat.digitChar value) = some value.val := by
    decide
  induction bytes with
  | nil => rfl
  | cons byte rest induction =>
      have small := byte.toNat_lt
      have high := table ⟨byte.toNat / 16, by omega⟩
      have low := table ⟨byte.toNat % 16, by omega⟩
      have restored : UInt8.ofNat
          (16 * (byte.toNat / 16) + byte.toNat % 16) = byte := by
        rw [Nat.div_add_mod, UInt8.ofNat_toNat]
      simp only [List.flatMap_cons, hexDigits, List.cons_append,
        List.nil_append, hexBytes, high, low, induction, Option.pure_def,
        Option.bind_eq_bind, Option.bind_some, restored]

theorem hexDecode_hexEncode {size : Nat} (bytes : Vector UInt8 size) :
    hexDecode size (hexEncode bytes) = .ok bytes := by
  have fits : bytes.toList.length = size := bytes.length_toList
  have decoded : hexBytes (hexEncode bytes).toList = some bytes.toList := by
    rw [hexEncode, String.toList_ofList, hexBytes_flatMap]
  simp only [hexDecode, decoded, fits, dif_pos]
  rfl

def parseTime (text : String) : Except String Nat :=
  match (List.range 86400).find? (fun seconds =>
      printTime (1000 * seconds) = text) with
  | some seconds => .ok (1000 * seconds)
  | none => .error "invalid time"

def Connector.Reader.reference : Connector.Reader where
  address := hexDecode 20
  packetKey := hexDecode 32
  multiaddr text := some text
  balance text :=
    match parseAmount .wxHopr text with
    | some amount => .ok amount
    | none => .error "invalid balance"
  dateTime := parseTime
  generateChannelId := joinAddresses
  build channel :=
    if channel.InRange then .ok channel
    else .error "invalid channel epoch or ticket index"

def alice : Address := Vector.replicate 20 0xa1

def bob : Address := Vector.replicate 20 0xb2

def aliceSafe : Address := Vector.replicate 20 0xc3

def twoNodes : State where
  chainInfo :=
    { contractAddresses := contractsText, channelClosureGracePeriod := "300" }
  accounts :=
    (IndexMap.empty.put 1
      { chainKey := hexEncode alice
        keyid := 1
        multiAddresses := []
        packetKey := ""
        safeAddress := some (hexEncode aliceSafe) }).put 2
      { chainKey := hexEncode bob
        keyid := 2
        multiAddresses := []
        packetKey := ""
        safeAddress := none }
  deployedSafes := IndexMap.empty
  tokenBalances :=
    IndexMap.empty.put (hexEncode aliceSafe) ⟨"HoprBalance", "5 wxHOPR"⟩
  nativeBalances :=
    (IndexMap.empty.put (hexEncode alice) ⟨"NativeBalance", "2 wei xDai"⟩).put
      (hexEncode bob) ⟨"NativeBalance", "1 wei xDai"⟩
  safeAllowances :=
    IndexMap.empty.put (hexEncode aliceSafe) ⟨"SafeHoprAllowance", "3 wxHOPR"⟩
  channels := IndexMap.empty
  safeRedeemStats := IndexMap.empty
  txCounts := IndexMap.empty

def aliceToBob : Channel where
  balance := "3 wxHOPR"
  closureTime := none
  concreteChannelId := hexEncode (joinAddresses alice bob)
  destination := 2
  epoch := 1
  source := 1
  status := .opened
  ticketIndex := "0"

/-- The two nodes with one channel between them. -/
def oneChannel : State :=
  twoNodes.setChannel (hexEncode (joinAddresses alice bob)) aliceToBob

def plain : FullStateEmulator :=
  { moduleAddress := Vector.replicate 20 0, interceptor := none }

def Host.standing (action : Action) (sender : Address) : Host :=
  .reference fun _ => some (action, sender)

end HoprUtilities.Blokli
