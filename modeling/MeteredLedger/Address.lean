import MeteredLedger.Hash

/-!
# Addresses

An address is 20 bytes, held as the number they spell, most significant byte
first, and ordered like it. An address is cut from a hash (`ofHash`): from that
of a public key, or, for a contract, from that of its creator and the creator's
nonce.
-/

namespace MeteredLedger

/-- The address of an account. -/
structure Address where
  /-- The number that the bytes spell. -/
  bits : BitVec 160
  deriving DecidableEq, Repr

namespace Address

/-- The length of an address in bytes. -/
def width : Nat := 20

/-- The address whose bytes are all zero. -/
def zero : Address := ⟨0⟩

instance : Inhabited Address := ⟨zero⟩

/-- Whether every byte is zero. -/
def isZero (a : Address) : Bool := a == zero

/-- The bytes of an address. -/
def toBytes (a : Address) : Bytes := Bytes.bigEndian width a.bits.toNat

/-- The address that the last 20 bytes of a string spell, zeros before it. -/
def ofBytes (bs : Bytes) : Address := ⟨BitVec.ofNat 160 (Bytes.ofBigEndian bs)⟩

/-- The address that exactly 20 bytes spell. -/
def ofBytes? (bs : Bytes) : Option Address :=
  if bs.length = width then some (ofBytes bs) else none

/-- The address that a string of bytes spells, which must be 20 of them. -/
def ofSlice (bs : Bytes) : Except Fault Address :=
  match ofBytes? bs with
  | some a => .ok a
  | none => .error .lengthMismatch

/-- The last 20 bytes of a hash. -/
def ofHash (h : Hash) : Address := ⟨h.bits.setWidth 160⟩

/-- The address of the contract that `creator` creates at `nonce`: cut from the
hash of the creator's bytes and the eight bytes of the nonce. -/
def ofCreation (creator : Address) (nonce : UInt64) : Address :=
  ofHash (Hash.digest (creator.toBytes ++ Bytes.bigEndian 8 nonce.toNat))

/-- The 40 hexadecimal digits of an address. -/
def toHex (a : Address) : String := Hex.encode a.toBytes

/-- The address that hexadecimal text spells. -/
def ofHex (s : String) : Except HexError Address := ofBytes <$> Hex.decodeExactly width s

/-- An address as messages show it. -/
def display (a : Address) : String := "0x" ++ a.toHex

/-- Addresses are ordered as their bytes are. -/
instance : Ord Address := ⟨compareOn Address.bits⟩

instance : Std.TransOrd Address := inferInstanceAs (Std.TransCmp (compareOn Address.bits))

instance : Std.LawfulEqOrd Address where
  eq_of_compare {a b} h := by
    have h : compare a.bits b.bits = .eq := h
    have h := Std.LawfulEqCmp.eq_of_compare h
    cases a; cases b; simp_all

end Address

end MeteredLedger
