import Mathlib.Tactic.NthRewrite
import Mathlib.Tactic.Ring
import MeteredLedger.Bytes

/-!
# Reading numbers back

A number that was written in enough digits of base 256 reads back, in either order
(`ofLittleEndian_littleEndian`, `ofBigEndian_bigEndian`); so many digits are enough
for any number below that power of 256, and what is read from them lies below it. Each digit is a
quotient by a power of 256 (`getElem?_bigEndian`), and of a longer number only the last digits count
below that power (`ofBigEndian_mod`). What holds of bytes in general can be tried out on all of them
(`forall_byte`).
-/

namespace MeteredLedger.Bytes

theorem ofLittleEndian_lt (bs : Bytes) : ofLittleEndian bs < 256 ^ bs.length := by
  induction bs with
  | nil => simp [ofLittleEndian]
  | cons b bs ih =>
    have hb := b.toNat_lt
    simp only [ofLittleEndian, List.length_cons, Nat.pow_succ]
    omega

/-- What is written in so many digits is read back as far as they reach. -/
theorem ofLittleEndian_littleEndian_mod (width n : Nat) :
    ofLittleEndian (littleEndian width n) = n % 256 ^ width := by
  induction width generalizing n with
  | zero => rw [littleEndian, ofLittleEndian, Nat.pow_zero, Nat.mod_one]
  | succ width ih =>
    have hsplit : n % 256 ^ (width + 1) = n % 256 + 256 * (n / 256 % 256 ^ width) := by
      rw [Nat.pow_succ', Nat.mod_mul]
    rw [littleEndian, ofLittleEndian, ih, UInt8.toNat_ofNat', hsplit]

theorem ofLittleEndian_littleEndian {width n : Nat} (h : n < 256 ^ width) :
    ofLittleEndian (littleEndian width n) = n := by
  rw [ofLittleEndian_littleEndian_mod, Nat.mod_eq_of_lt h]

theorem ofBigEndian_bigEndian {width n : Nat} (h : n < 256 ^ width) :
    ofBigEndian (bigEndian width n) = n := by
  rw [ofBigEndian_eq_reverse, bigEndian, List.reverse_reverse, ofLittleEndian_littleEndian h]

theorem ofBigEndian_lt (bs : Bytes) : ofBigEndian bs < 256 ^ bs.length := by
  rw [ofBigEndian_eq_reverse, ← List.length_reverse]
  exact ofLittleEndian_lt bs.reverse

theorem ofLittleEndian_append (bs bs' : Bytes) :
    ofLittleEndian (bs ++ bs') = ofLittleEndian bs + 256 ^ bs.length * ofLittleEndian bs' := by
  induction bs with
  | nil => simp [ofLittleEndian]
  | cons b bs ih =>
    rw [List.cons_append, ofLittleEndian, ofLittleEndian, ih, List.length_cons]
    ring

/-- Below a power of 256, a number is what its last bytes spell. -/
theorem ofBigEndian_mod (bs : Bytes) (width : Nat) :
    ofBigEndian bs % 256 ^ width = ofBigEndian (bs.drop (bs.length - width)) := by
  obtain hshort | hlong := Nat.le_total bs.length width
  · rw [Nat.sub_eq_zero_of_le hshort, List.drop_zero, Nat.mod_eq_of_lt
      ((ofBigEndian_lt bs).trans_le (Nat.pow_le_pow_right (by decide) hshort))]
  · have hwidth : (bs.drop (bs.length - width)).length = width := by
      rw [List.length_drop]
      omega
    have hlast := ofBigEndian_lt (bs.drop (bs.length - width))
    rw [hwidth] at hlast
    nth_rewrite 1 [← List.take_append_drop (bs.length - width) bs]
    rw [ofBigEndian_eq_reverse, List.reverse_append, ofLittleEndian_append,
      ← ofBigEndian_eq_reverse, List.length_reverse, hwidth, Nat.add_mul_mod_self_left,
      Nat.mod_eq_of_lt hlast]

/-! ### Digits -/

theorem getElem?_littleEndian {width k : Nat} (h : k < width) (n : Nat) :
    (littleEndian width n)[k]? = some (UInt8.ofNat (n / 256 ^ k)) := by
  induction width generalizing k n with
  | zero => exact absurd h (Nat.not_lt_zero k)
  | succ width ih =>
    cases k with
    | zero => rw [littleEndian, List.getElem?_cons_zero, Nat.pow_zero, Nat.div_one]
    | succ k =>
      rw [littleEndian, List.getElem?_cons_succ, ih (Nat.lt_of_succ_lt_succ h),
        Nat.div_div_eq_div_mul, Nat.pow_succ']

/-- The digits of a number, the most significant first. -/
theorem getElem?_bigEndian {width k : Nat} (h : k < width) (n : Nat) :
    (bigEndian width n)[k]? = some (UInt8.ofNat (n / 256 ^ (width - 1 - k))) := by
  rw [bigEndian, List.getElem?_reverse (by rwa [length_littleEndian]), length_littleEndian,
    getElem?_littleEndian (by omega)]

/-! ### Single bytes -/

/-- What can be tried out on all bytes. -/
theorem forall_byte {P : UInt8 → Prop} (h : ∀ n : Fin 256, P (UInt8.ofNat n)) (b : UInt8) :
    P b := by
  have hb := h ⟨b.toNat, b.toNat_lt⟩
  rwa [UInt8.ofNat_toNat] at hb

end MeteredLedger.Bytes
