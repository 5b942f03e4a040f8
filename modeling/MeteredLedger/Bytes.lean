/-!
# Byte strings

A byte string is a list of bytes. Numbers enter and leave byte strings in base
256, in either order: `littleEndian` and `bigEndian` write a fixed number of
digits and drop what does not fit, `ofLittleEndian` and `ofBigEndian` read every
byte given. Writing a number in as many digits as it was read from gives the bytes
again (`littleEndian_ofLittleEndian`, `bigEndian_ofBigEndian`).
-/

namespace MeteredLedger

/-- A string of bytes. -/
abbrev Bytes := List UInt8

namespace Bytes

/-! ### Numbers in base 256 -/

/-- The lowest `width` digits of `n`, least significant first. -/
def littleEndian : (width n : Nat) → Bytes
  | 0, _ => []
  | width + 1, n => UInt8.ofNat n :: littleEndian width (n / 256)

/-- The lowest `width` digits of `n`, most significant first. -/
def bigEndian (width n : Nat) : Bytes := (littleEndian width n).reverse

/-- The number whose digits are the bytes, least significant first. -/
def ofLittleEndian : Bytes → Nat
  | [] => 0
  | b :: bs => b.toNat + 256 * ofLittleEndian bs

/-- The number whose digits are the bytes, most significant first. -/
def ofBigEndian (bs : Bytes) : Nat := bs.foldl (fun n b => 256 * n + b.toNat) 0

@[simp] theorem length_littleEndian (width n : Nat) : (littleEndian width n).length = width := by
  induction width generalizing n with
  | zero => rfl
  | succ width ih => simp [littleEndian, ih]

@[simp] theorem length_bigEndian (width n : Nat) : (bigEndian width n).length = width := by
  simp [bigEndian]

theorem ofBigEndian_eq_reverse (bs : Bytes) : ofBigEndian bs = ofLittleEndian bs.reverse := by
  have step : ∀ (bs : Bytes) (n : Nat),
      bs.reverse.foldl (fun n b => 256 * n + b.toNat) n
        = 256 ^ bs.length * n + ofLittleEndian bs := by
    intro bs
    induction bs with
    | nil => simp [ofLittleEndian]
    | cons b bs ih =>
      intro n
      rw [List.reverse_cons, List.foldl_append, ih]
      simp only [List.foldl_cons, List.foldl_nil, List.length_cons, Nat.pow_succ, ofLittleEndian,
        Nat.mul_add, ← Nat.mul_assoc]
      rw [Nat.mul_comm 256 (256 ^ bs.length)]
      omega
  have h := step bs.reverse 0
  simpa [ofBigEndian] using h

/-- Bytes read as a number are the digits of that number. -/
theorem littleEndian_ofLittleEndian (bs : Bytes) :
    littleEndian bs.length (ofLittleEndian bs) = bs := by
  induction bs with
  | nil => rfl
  | cons b bs ih =>
    have hb := b.toNat_lt
    have hq : (b.toNat + 256 * ofLittleEndian bs) / 256 = ofLittleEndian bs := by omega
    have hm : UInt8.ofNat (b.toNat + 256 * ofLittleEndian bs) = b := by
      apply UInt8.toNat_inj.1
      simp only [UInt8.toNat_ofNat']
      omega
    simp only [List.length_cons, ofLittleEndian, littleEndian, hq, hm, ih]

theorem bigEndian_ofBigEndian (bs : Bytes) : bigEndian bs.length (ofBigEndian bs) = bs := by
  rw [ofBigEndian_eq_reverse, bigEndian, ← List.length_reverse, littleEndian_ofLittleEndian,
    List.reverse_reverse]

end Bytes

end MeteredLedger
