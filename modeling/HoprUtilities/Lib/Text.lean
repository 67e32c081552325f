import Mathlib.Tactic.Common

/-!
# Texts of bytes and numbers

Byte strings as lower-case hexadecimal texts without a mark in front, and
64-bit numbers as decimal texts.  Reading a number takes an optional plus and
at least one digit; leading zeros are allowed, anything that does not fit is
not a number.  White space around a text can be trimmed, and a suffix stripped.
-/

namespace HoprUtilities.Lib

def hexDigits (byte : UInt8) : List Char :=
  [Nat.digitChar (byte.toNat / 16), Nat.digitChar (byte.toNat % 16)]

def hexEncode {size : Nat} (bytes : Vector UInt8 size) : String :=
  String.ofList (bytes.toList.flatMap hexDigits)

theorem digitChar_inj {left right : Nat} (leftSmall : left < 16)
    (rightSmall : right < 16)
    (same : Nat.digitChar left = Nat.digitChar right) : left = right := by
  have table : ∀ left right : Fin 16,
      Nat.digitChar left = Nat.digitChar right → left = right := by
    decide
  exact Fin.mk.inj_iff.mp (table ⟨left, leftSmall⟩ ⟨right, rightSmall⟩ same)

theorem hexDigits_inj {left right : UInt8}
    (same : hexDigits left = hexDigits right) : left = right := by
  have leftSmall := left.toNat_lt
  have rightSmall := right.toNat_lt
  simp only [hexDigits, List.cons.injEq, and_true] at same
  have high := digitChar_inj (by omega) (by omega) same.1
  have low := digitChar_inj (by omega) (by omega) same.2
  apply UInt8.toNat_inj.mp
  omega

theorem flatMap_hexDigits_inj {left right : List UInt8}
    (same : left.flatMap hexDigits = right.flatMap hexDigits) :
    left = right := by
  induction left generalizing right with
  | nil =>
      cases right with
      | nil => rfl
      | cons => cases same
  | cons first left induction =>
      cases right with
      | nil => cases same
      | cons second right =>
          rw [List.flatMap_cons, List.flatMap_cons] at same
          obtain ⟨heads, tails⟩ := List.append_inj same rfl
          rw [hexDigits_inj heads, induction tails]

theorem hexEncode_inj {size : Nat} {left right : Vector UInt8 size}
    (same : hexEncode left = hexEncode right) : left = right := by
  have lists := flatMap_hexDigits_inj (String.ofList_inj.mp same)
  exact Vector.toList_inj.mp lists

/-- The digits after an optional plus. -/
def unsignedDigits : List Char → List Char
  | '+' :: digits => digits
  | digits => digits

def parseU64 (text : String) : Option UInt64 :=
  let digits := unsignedDigits text.toList
  let value := Nat.ofDigitChars 10 digits 0
  if digits ≠ [] ∧ digits.all Char.isDigit = true ∧ value < UInt64.size then
    some (UInt64.ofNat value)
  else none

def printU64 (value : UInt64) : String := value.toNat.repr

theorem unsignedDigits_of_isDigit {digits : List Char}
    (all : ∀ char ∈ digits, char.isDigit = true) :
    unsignedDigits digits = digits := by
  unfold unsignedDigits
  split
  · next rest =>
      have plus := all '+' List.mem_cons_self
      simp at plus
  · rfl

theorem toList_printU64 (value : UInt64) :
    (printU64 value).toList = Nat.toDigits 10 value.toNat :=
  Nat.toList_repr

theorem isDigit_of_mem_printU64 {value : UInt64} {char : Char}
    (member : char ∈ (printU64 value).toList) : char.isDigit = true := by
  rw [toList_printU64] at member
  exact Nat.isDigit_of_mem_toDigits (by decide) (by decide) member

theorem printU64_ne_nil (value : UInt64) : (printU64 value).toList ≠ [] := by
  rw [toList_printU64]
  exact Nat.toDigits_ne_nil

theorem parseU64_printU64 (value : UInt64) :
    parseU64 (printU64 value) = some value := by
  have digits : ∀ char ∈ Nat.toDigits 10 value.toNat, char.isDigit = true := by
    intro char member
    exact isDigit_of_mem_printU64 (toList_printU64 value ▸ member)
  have restored : Nat.ofDigitChars 10 (Nat.toDigits 10 value.toNat) 0 =
      value.toNat := Nat.ofDigitChars_toDigits (by decide) (by decide)
  rw [parseU64, printU64, Nat.toList_repr, unsignedDigits_of_isDigit digits,
    restored, if_pos]
  · simp
  · exact ⟨Nat.toDigits_ne_nil, List.all_eq_true.mpr digits, value.toNat_lt⟩

def isWhiteSpace (char : Char) : Bool :=
  let code := char.toNat
  (0x9 ≤ code && code ≤ 0xD) || (0x2000 ≤ code && code ≤ 0x200A) ||
    [0x20, 0x85, 0xA0, 0x1680, 0x2028, 0x2029, 0x202F, 0x205F, 0x3000].contains
      code

def trim (text : List Char) : List Char :=
  ((text.dropWhile isWhiteSpace).reverse.dropWhile isWhiteSpace).reverse

def stripSuffix? (text suffix : List Char) : Option (List Char) :=
  if suffix.isSuffixOf text then
    some (text.take (text.length - suffix.length))
  else none

theorem isWhiteSpace_of_isDigit {char : Char} (digit : char.isDigit = true) :
    isWhiteSpace char = false := by
  have range : 48 ≤ char.toNat ∧ char.toNat ≤ 57 := by
    simpa [Char.isDigit, UInt32.le_iff_toNat_le] using digit
  simp [isWhiteSpace]
  omega

theorem dropWhile_append_of_all {p : Char → Bool} {blank text : List Char}
    (all : ∀ char ∈ blank, p char = true) :
    (blank ++ text).dropWhile p = text.dropWhile p := by
  induction blank with
  | nil => rfl
  | cons char blank induction =>
      rw [List.cons_append, List.dropWhile_cons_of_pos
        (all char List.mem_cons_self)]
      exact induction fun other member =>
        all other (List.mem_cons_of_mem char member)

/-- A text that begins and ends with other characters. -/
def Trimmed (text : List Char) : Prop :=
  (∀ char ∈ text.head?, isWhiteSpace char = false) ∧
    ∀ char ∈ text.getLast?, isWhiteSpace char = false

theorem dropWhile_eq_self {text : List Char}
    (other : ∀ char ∈ text.head?, isWhiteSpace char = false) :
    text.dropWhile isWhiteSpace = text := by
  cases text with
  | nil => rfl
  | cons char rest =>
      exact List.dropWhile_cons_of_neg (by simp [other char rfl])

theorem Trimmed.of_all {text : List Char}
    (all : ∀ char ∈ text, isWhiteSpace char = false) : Trimmed text :=
  ⟨fun char head => all char (List.mem_of_head? head),
    fun char last => all char (List.mem_of_getLast? last)⟩

theorem Trimmed.concat {text : List Char} {first last : Char}
    (head : text.head? = some first)
    (opening : isWhiteSpace first = false)
    (closing : isWhiteSpace last = false) : Trimmed (text ++ [last]) := by
  constructor
  · intro char front
    rw [List.head?_append, head] at front
    cases front
    exact opening
  · intro char back
    rw [List.getLast?_concat] at back
    cases back
    exact closing

theorem trim_pad {before text after : List Char} (trimmed : Trimmed text)
    (nonempty : text ≠ [])
    (blankBefore : ∀ char ∈ before, isWhiteSpace char = true)
    (blankAfter : ∀ char ∈ after, isWhiteSpace char = true) :
    trim (before ++ text ++ after) = text := by
  have first : ∀ char ∈ (text ++ after).head?, isWhiteSpace char = false := by
    intro char head
    cases text with
    | nil => exact absurd rfl nonempty
    | cons _ rest => exact trimmed.1 char head
  have last : ∀ char ∈ text.reverse.head?, isWhiteSpace char = false := by
    intro char head
    rw [List.head?_reverse] at head
    exact trimmed.2 char head
  rw [trim, List.append_assoc, dropWhile_append_of_all blankBefore,
    dropWhile_eq_self first, List.reverse_append, dropWhile_append_of_all,
    dropWhile_eq_self last, List.reverse_reverse]
  intro char member
  exact blankAfter char (List.mem_reverse.mp member)

theorem stripSuffix?_append (text suffix : List Char) :
    stripSuffix? (text ++ suffix) suffix = some text := by
  have tail : suffix.isSuffixOf (text ++ suffix) = true :=
    List.isSuffixOf_iff_suffix.mpr (List.suffix_append text suffix)
  rw [stripSuffix?, if_pos tail, List.length_append, Nat.add_sub_cancel,
    List.take_left]

theorem not_suffix_of_not_mem {suffix text : List Char} {char : Char}
    (inside : char ∈ suffix) (absent : char ∉ text) : ¬suffix <:+ text :=
  fun tail => absent (tail.subset inside)

theorem stripSuffix?_eq_none {text suffix : List Char}
    (other : ¬suffix <:+ text) : stripSuffix? text suffix = none :=
  if_neg (mt List.isSuffixOf_iff_suffix.mp other)

end HoprUtilities.Lib
