import MeteredLedger.Bytes
import MeteredLedger.Text.Quoted

/-!
# Hexadecimal text

Bytes are written as two lower-case digits each and read in either case. Reading
refuses, in this order: text with an odd number of bytes, the first byte that is
no digit, and a length other than the one asked for.
-/

namespace MeteredLedger

/-- Why hexadecimal text cannot be read. -/
inductive HexError where
  /-- The text has an odd number of bytes. -/
  | oddLength
  /-- The byte at this index of the text is no hexadecimal digit. -/
  | invalidCharacter (byte : UInt8) (index : Nat)
  /-- The text spells another number of bytes than the value has. -/
  | invalidLength
  deriving DecidableEq, Repr

/-- The wording of an error. A byte is shown as the character of its number. -/
def HexError.message : HexError → String
  | .oddLength => "Odd number of digits"
  | .invalidCharacter byte index =>
    "Invalid character " ++ Text.quoteChar (Char.ofNat byte.toNat)
      ++ " at position " ++ toString index
  | .invalidLength => "Invalid string length"

namespace Hex

/-- The digit of a value below sixteen. -/
def digit (n : Nat) : Char :=
  if n < 10 then Char.ofNat (48 + n) else Char.ofNat (87 + n)

/-- The value of a digit, given as a byte. -/
def digitValue? (b : UInt8) : Option Nat :=
  if 48 ≤ b ∧ b ≤ 57 then some (b.toNat - 48)
  else if 97 ≤ b ∧ b ≤ 102 then some (b.toNat - 87)
  else if 65 ≤ b ∧ b ≤ 70 then some (b.toNat - 55)
  else none

/-- The two digits of a byte. -/
def byteDigits (b : UInt8) : List Char := [digit (b.toNat / 16), digit (b.toNat % 16)]

/-- Bytes in hexadecimal. -/
def encode (bs : Bytes) : String := String.ofList (bs.flatMap byteDigits)

/-- The value of the digit `b`, found at `index`. -/
def readDigit (index : Nat) (b : UInt8) : Except HexError Nat :=
  match digitValue? b with
  | some v => .ok v
  | none => .error (.invalidCharacter b index)

/-- The bytes spelled by pairs of digits, the first of which is at `index`. -/
def readPairs (index : Nat) : Bytes → Except HexError Bytes
  | high :: low :: rest => do
    let h ← readDigit index high
    let l ← readDigit (index + 1) low
    let bs ← readPairs (index + 2) rest
    .ok (UInt8.ofNat (16 * h + l) :: bs)
  | [_] => .error .oddLength
  | [] => .ok []

/-- The bytes that hexadecimal text spells. -/
def decode (s : String) : Except HexError Bytes :=
  let digits := s.toUTF8.toList
  if digits.length % 2 = 1 then .error .oddLength else readPairs 0 digits

/-- The `width` bytes that hexadecimal text spells. -/
def decodeExactly (width : Nat) (s : String) : Except HexError Bytes := do
  let bs ← decode s
  if bs.length = width then .ok bs else .error .invalidLength

end Hex

end MeteredLedger
