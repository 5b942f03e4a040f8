import MeteredLedger.Address
import MeteredLedger.Proofs.Hex

/-!
# Hashes and addresses as bytes and as text

A hash is as good as its 32 bytes and an address as its 20: every value is read from the bytes that
are written for it, and every string of that length is written for one (`AreBytes`). So their
hexadecimal forms have all that those of byte strings have (`AreBytes.hexForm`). A text of the right
number of digits is read and is written again in lower case, any other is refused, and what is
written is read as it was (`identifiers_in_hex`).
-/

namespace MeteredLedger

/-! ### Bytes -/

/-- **Values are the byte strings of one length.** -/
structure AreBytes {α : Type} (width : Nat) (write : α → Bytes) (read : Bytes → α) : Prop where
  length_write (a : α) : (write a).length = width
  read_write (a : α) : read (write a) = a
  write_read {bs : Bytes} (h : bs.length = width) : write (read bs) = bs

/-- Words are, if they have eight bits a byte. -/
theorem areBytes_word (width : Nat) :
    AreBytes width (fun x : BitVec (8 * width) => Bytes.bigEndian width x.toNat)
      fun bs => BitVec.ofNat (8 * width) (Bytes.ofBigEndian bs) := by
  have hpow : 2 ^ (8 * width) = 256 ^ width := by rw [Nat.pow_mul]
  refine ⟨fun x => Bytes.length_bigEndian .., fun x => ?_, ?_⟩
  · show BitVec.ofNat _ (Bytes.ofBigEndian (Bytes.bigEndian width x.toNat)) = x
    rw [Bytes.ofBigEndian_bigEndian (hpow ▸ x.isLt), BitVec.ofNat_toNat, BitVec.setWidth_eq]
  · rintro bs rfl
    show Bytes.bigEndian bs.length (BitVec.ofNat _ (Bytes.ofBigEndian bs)).toNat = bs
    rw [BitVec.toNat_ofNat, hpow, Nat.mod_eq_of_lt (Bytes.ofBigEndian_lt bs),
      Bytes.bigEndian_ofBigEndian]

theorem Hash.areBytes : AreBytes width toBytes ofBytes where
  length_write h := (areBytes_word 32).length_write h.bits
  read_write h := congrArg mk ((areBytes_word 32).read_write h.bits)
  write_read h := (areBytes_word 32).write_read h

theorem Address.areBytes : AreBytes width toBytes ofBytes where
  length_write a := (areBytes_word 20).length_write a.bits
  read_write a := congrArg mk ((areBytes_word 20).read_write a.bits)
  write_read h := (areBytes_word 20).write_read h

/-! ### Text -/

namespace Hex

/-- **A hexadecimal form of `n` digits**, in which values are written and read. -/
structure Form {α : Type} (n : Nat) (write : α → String) (read : String → Except HexError α) :
    Prop where
  /-- What is read consists of so many digits, of either case, and all that does is read; -/
  reads_iff (s : String) : (∃ a, read s = .ok a) ↔ Spells n s
  /-- it is written again in lower case. -/
  writes_lower {s : String} {a : α} (h : read s = .ok a) : write a = s.toLower
  /-- What is written is read as it was. -/
  reads_back (a : α) : read (write a) = .ok a
  /-- What is not read is refused for the first reason that there is. -/
  refuses {s : String} (h : ¬ Spells n s) : read s = .error (refusal s)

end Hex

open Hex

/-- What byte strings are, has their hexadecimal form. -/
theorem AreBytes.hexForm {α : Type} {width : Nat} {write : α → Bytes} {read : Bytes → α}
    (h : AreBytes width write read) :
    Form (2 * width) (fun a => encode (write a)) fun s => read <$> decodeExactly width s := by
  have hreads {s : String} (hs : Spells (2 * width) s) :
      ∃ a, read <$> decodeExactly width s = .ok a ∧ encode (write a) = s.toLower := by
    obtain ⟨bs, hbs, hlength, hlower⟩ := decodeExactly_of_spells hs
    refine ⟨read bs, by rw [hbs]; rfl, ?_⟩
    rw [h.write_read hlength, hlower]
  have hrefuses {s : String} (hs : ¬ Spells (2 * width) s) :
      read <$> decodeExactly width s = .error (refusal s) := by
    rw [decodeExactly_of_not_spells hs]
    rfl
  have hspells {s : String} {a : α} (ha : read <$> decodeExactly width s = .ok a) :
      Spells (2 * width) s := by
    by_contra hs
    cases ha.symm.trans (hrefuses hs)
  refine ⟨fun s => ⟨fun ⟨a, ha⟩ => hspells ha, fun hs => ?_⟩, fun ha => ?_, fun a => ?_, hrefuses⟩
  · obtain ⟨a, ha, -⟩ := hreads hs
    exact ⟨a, ha⟩
  · obtain ⟨a', ha', hlower⟩ := hreads (hspells ha)
    cases ha.symm.trans ha'
    exact hlower
  · show read <$> decodeExactly width (encode (write a)) = .ok a
    rw [decodeExactly_encode (h.length_write a)]
    exact congrArg Except.ok (h.read_write a)

/-- **Hashes and addresses in hexadecimal.** A text of 64 digits is a hash and one of 40 is an
address, whatever the case of its digits, and is written again in lower case; what is written is
read as it was. No other text is one: an odd number of bytes is refused as that, else the first byte
that is no digit is named with its index, else the length is wrong. -/
theorem identifiers_in_hex : Form 64 Hash.toHex Hash.ofHex ∧ Form 40 Address.toHex Address.ofHex :=
  ⟨Hash.areBytes.hexForm, Address.areBytes.hexForm⟩

/-! ### Texts of every kind -/

namespace HexTexts

/-- Forty digits of both cases. -/
def mixed : String := "0123456789ABCDEFabcdef0123456789aBcDeF00"

/-- Forty bytes, of which those of the accented letter are no digits, nor is the last one. -/
def accented : String := "0123456789abcdef\u00e90123456789abcdefabcdez"

end HexTexts

open HexTexts in
/-- Of what is wrong with a text, the first is told: the number of bytes, which is not that of
characters, before what they are, and that before how many there should be. -/
theorem identifiers_in_hex_mixed :
    Spells 40 mixed ∧
    (∃ a, Address.ofHex mixed = .ok a ∧ a.toHex = "0123456789abcdefabcdef0123456789abcdef00") ∧
    Hash.ofHex mixed = .error .invalidLength ∧
    Address.ofHex accented = .error (.invalidCharacter 0xc3 16) ∧
    Address.ofHex (accented ++ "0") = .error .oddLength := by
  obtain ⟨hash, address⟩ := identifiers_in_hex
  have hmixed : Spells 40 mixed := by decide
  have hlower : mixed.toLower = "0123456789abcdefabcdef0123456789abcdef00" := by
    apply String.toList_injective
    rw [toList_toLower]
    decide
  have hlength : refusal mixed = .invalidLength := by decide +kernel
  have hcharacter : refusal accented = .invalidCharacter 0xc3 16 := by decide +kernel
  have hodd : refusal (accented ++ "0") = .oddLength := by decide +kernel
  obtain ⟨a, ha⟩ := (address.reads_iff mixed).2 hmixed
  refine ⟨hmixed, ⟨a, ha, (address.writes_lower ha).trans hlower⟩, ?_, ?_, ?_⟩
  · rw [hash.refuses (by decide), hlength]
  · rw [address.refuses (by decide), hcharacter]
  · rw [address.refuses (by decide), hodd]

end MeteredLedger
