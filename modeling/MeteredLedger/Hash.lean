import MeteredLedger.Fault
import MeteredLedger.Hashing.Keccak256
import MeteredLedger.Hex

/-!
# Hashes

A hash is 32 bytes, held as the number they spell, most significant byte first;
the order of the numbers is then the order of the byte strings. `Hash.digest` is
Keccak-256.
-/

namespace MeteredLedger

/-- A hash of 32 bytes. -/
structure Hash where
  /-- The number that the bytes spell. -/
  bits : BitVec 256
  deriving DecidableEq, Repr

namespace Hash

/-- The length of a hash in bytes. -/
def width : Nat := 32

/-- The hash whose bytes are all zero. -/
def zero : Hash := ⟨0⟩

instance : Inhabited Hash := ⟨zero⟩

/-- Whether every byte is zero. -/
def isZero (h : Hash) : Bool := h == zero

/-- The bytes of a hash. -/
def toBytes (h : Hash) : Bytes := Bytes.bigEndian width h.bits.toNat

/-- The hash that the last 32 bytes of a string spell, zeros before it. -/
def ofBytes (bs : Bytes) : Hash := ⟨BitVec.ofNat 256 (Bytes.ofBigEndian bs)⟩

/-- The hash that exactly 32 bytes spell. -/
def ofBytes? (bs : Bytes) : Option Hash := if bs.length = width then some (ofBytes bs) else none

/-- The hash that a string of bytes spells, which must be 32 of them. -/
def ofSlice (bs : Bytes) : Except Fault Hash :=
  match ofBytes? bs with
  | some h => .ok h
  | none => .error .lengthMismatch

/-- The Keccak-256 hash of a string. -/
def digest (bs : Bytes) : Hash := ofBytes (Keccak256.hash bs)

/-- The 64 hexadecimal digits of a hash. -/
def toHex (h : Hash) : String := Hex.encode h.toBytes

/-- The hash that hexadecimal text spells. -/
def ofHex (s : String) : Except HexError Hash := ofBytes <$> Hex.decodeExactly width s

/-- A hash as messages show it. -/
def display (h : Hash) : String := "0x" ++ h.toHex

/-- Hashes are ordered as their bytes are. -/
instance : Ord Hash := ⟨compareOn Hash.bits⟩

instance : Std.TransOrd Hash := inferInstanceAs (Std.TransCmp (compareOn Hash.bits))

instance : Std.LawfulEqOrd Hash where
  eq_of_compare {a b} h := by
    have h : compare a.bits b.bits = .eq := h
    have h := Std.LawfulEqCmp.eq_of_compare h
    cases a; cases b; simp_all

end Hash

end MeteredLedger
