import Mathlib.Algebra.BigOperators.Group.List.Defs
import Mathlib.Data.List.Basic
import Mathlib.Data.List.Find
import Mathlib.Data.List.Induction
import MeteredLedger.Bytes.Lemmas
import MeteredLedger.Hex

/-!
# What hexadecimal text spells

Digits are read from the bytes of a text, and a character may be more bytes than one. Then none of
them is a digit, so the bytes of a text are digits exactly if its characters are
(`forall_isDigit_toUTF8`).

An even number of bytes is read in pairs, up to the first byte that is no digit
(`readPairs_of_digits`, `readPairs_of_firstNonDigit?`). So a text spells so many bytes exactly if it
consists of twice as many digits, of either case, which are written again in lower case
(`decodeExactly_of_spells`); any other text is refused, for the first reason that there is
(`decodeExactly_of_not_spells`). What is written is read as it was (`decodeExactly_encode`).
-/

namespace MeteredLedger

/-! ### The bytes of a text -/

namespace Text

variable {c : Char}

theorem toList_loop (bs : ByteArray) (i : Nat) (r : List UInt8) :
    ByteArray.toList.loop bs i r = r.reverse ++ bs.data.toList.drop i := by
  fun_induction ByteArray.toList.loop bs i r with
  | case1 i r h ih =>
    have hi : i < bs.data.toList.length := by simpa using h
    rw [ih, List.drop_eq_getElem_cons (l := bs.data.toList) hi]
    simp [ByteArray.get!, h]
  | case2 i r h =>
    rw [List.drop_eq_nil_of_le (by simpa using Nat.le_of_not_lt h), List.append_nil]

/-- The bytes of a text are those of its characters. -/
theorem toList_toUTF8 (s : String) : s.toUTF8.toList = s.toList.flatMap String.utf8EncodeChar := by
  rw [ByteArray.toList, toList_loop, String.toUTF8_eq_toByteArray, ← String.utf8Encode_toList,
    List.utf8Encode, List.toList_data_toByteArray]
  rfl

theorem length_toList_toUTF8 (s : String) : s.toUTF8.toList.length = s.utf8ByteSize := by
  rw [ByteArray.toList, toList_loop]
  rfl

/-- A character below `0x80` is one byte. -/
theorem utf8EncodeChar_of_lt (h : c.toNat < 128) : String.utf8EncodeChar c = [c.toUInt8] :=
  if_pos (Nat.le_of_lt_succ h)

/-- All others begin with a byte from `0xc0` on. -/
theorem exists_utf8EncodeChar_of_le (h : 128 ≤ c.toNat) :
    ∃ b bs, String.utf8EncodeChar c = b :: bs ∧ 192 ≤ b.toNat := by
  have h : 128 ≤ c.val.toNat := h
  fun_cases String.utf8EncodeChar
  · omega
  -- the first of several bytes marks how many there are
  all_goals
    refine ⟨_, _, rfl, ?_⟩
    rw [UInt8.toNat_ofNat']
    omega

end Text

namespace Hex

variable {b : UInt8} {bs : Bytes} {c : Char} {s : String} {n high low index width : Nat}

/-! ### Digits -/

/-- Whether a byte is a hexadecimal digit, of either case. -/
def isDigit (b : UInt8) : Bool := (Char.ofNat b.toNat).isHexDigit

theorem lt_of_isHexDigit (h : c.isHexDigit = true) : c.toNat < 128 := by
  simp only [Char.isHexDigit, Char.isDigit, Bool.or_eq_true, Bool.and_eq_true, decide_eq_true_eq,
    ge_iff_le, UInt32.le_iff_toNat_le, Char.reduceVal, UInt32.reduceToNat] at h
  show c.val.toNat < 128
  omega

theorem isDigit_eq_false (h : 128 ≤ b.toNat) : isDigit b = false := by
  rw [Bool.eq_false_iff]
  intro hdigit
  have hlt := lt_of_isHexDigit hdigit
  rw [Char.ofNat, dif_pos (.inl (b.toNat_lt.trans (by decide)))] at hlt
  exact absurd hlt (Nat.not_lt.2 h)

/-- A character that is one byte. -/
theorem ofNat_toUInt8 (h : c.toNat < 128) : Char.ofNat c.toUInt8.toNat = c := by
  have hbyte : c.toUInt8.toNat = c.toNat :=
    (UInt32.toNat_toUInt8 _).trans (Nat.mod_eq_of_lt (Nat.lt_trans h (by decide)))
  rw [hbyte, Char.ofNat_toNat]

theorem isSome_digitValue? (b : UInt8) : (digitValue? b).isSome = isDigit b :=
  Bytes.forall_byte (P := fun b => (digitValue? b).isSome = isDigit b) (by decide +kernel) b

/-- The value of a digit is written as that digit, in lower case. -/
theorem digit_of_digitValue? (b : UInt8) :
    ∀ v ∈ digitValue? b, v < 16 ∧ digit v = (Char.ofNat b.toNat).toLower :=
  Bytes.forall_byte
    (P := fun b => ∀ v ∈ digitValue? b, v < 16 ∧ digit v = (Char.ofNat b.toNat).toLower)
    (by decide +kernel) b

theorem isHexDigit_digit : ∀ n < 16, (digit n).isHexDigit = true := by decide

theorem digitValue?_digit : ∀ n < 16, digitValue? (digit n).toUInt8 = some n := by decide

theorem readDigit_digit (h : n < 16) (index : Nat) :
    readDigit index (digit n).toUInt8 = .ok n := by
  rw [readDigit, digitValue?_digit n h]

theorem readDigit_of_isDigit (h : isDigit b = true) (index : Nat) :
    ∃ v < 16, readDigit index b = .ok v ∧ digit v = (Char.ofNat b.toNat).toLower := by
  rw [← isSome_digitValue?, Option.isSome_iff_exists] at h
  obtain ⟨v, hv⟩ := h
  obtain ⟨hlt, hdigit⟩ := digit_of_digitValue? b v hv
  exact ⟨v, hlt, by rw [readDigit, hv], hdigit⟩

theorem readDigit_of_not_isDigit (h : isDigit b = false) (index : Nat) :
    readDigit index b = .error (.invalidCharacter b index) := by
  rw [← isSome_digitValue?, Option.isSome_eq_false_iff, Option.isNone_iff_eq_none] at h
  rw [readDigit, h]

/-- Two digits make a byte. -/
theorem byteDigits_ofNat (hh : high < 16) (hl : low < 16) :
    byteDigits (UInt8.ofNat (16 * high + low)) = [digit high, digit low] := by
  have hbyte : (UInt8.ofNat (16 * high + low)).toNat = 16 * high + low :=
    UInt8.toNat_ofNat_of_lt' (by show _ < 256; omega)
  rw [byteDigits, hbyte, show (16 * high + low) / 16 = high by omega,
    show (16 * high + low) % 16 = low by omega]

/-! ### Pairs of digits -/

/-- The first byte that is no digit, with its index, if the first of them all is at `index`. -/
def firstNonDigit? (index : Nat) (bs : Bytes) : Option (UInt8 × Nat) :=
  (bs.zipIdx index).find? fun (b, _) => !isDigit b

theorem firstNonDigit?_cons_of_isDigit (h : isDigit b = true) :
    firstNonDigit? index (b :: bs) = firstNonDigit? (index + 1) bs := by
  simp [firstNonDigit?, List.zipIdx_cons, h]

theorem firstNonDigit?_cons_of_not_isDigit (h : isDigit b = false) :
    firstNonDigit? index (b :: bs) = some (b, index) := by
  simp [firstNonDigit?, List.zipIdx_cons, h]

theorem firstNonDigit?_eq_none : firstNonDigit? index bs = none ↔ ∀ b ∈ bs, isDigit b = true := by
  induction bs generalizing index with
  | nil => exact ⟨fun _ => List.forall_mem_nil _, fun _ => rfl⟩
  | cons b bs ih =>
    rw [List.forall_mem_cons]
    cases hb : isDigit b with
    | false => simp [firstNonDigit?_cons_of_not_isDigit hb]
    | true => simp [firstNonDigit?_cons_of_isDigit hb, ih]

/-- **Digits are read in pairs**, and are written again in lower case. -/
theorem readPairs_of_digits (heven : bs.length % 2 = 0) (h : ∀ b ∈ bs, isDigit b = true)
    (index : Nat) :
    ∃ vs, readPairs index bs = .ok vs ∧ 2 * vs.length = bs.length ∧
      vs.flatMap byteDigits = bs.map fun b => (Char.ofNat b.toNat).toLower := by
  -- two bytes at a time, as they are read
  induction bs using List.twoStepInduction generalizing index with
  | nil => exact ⟨[], rfl, rfl, rfl⟩
  | singleton => cases heven
  | cons_cons b b' bs ih _ =>
    rw [List.forall_mem_cons, List.forall_mem_cons] at h
    obtain ⟨hb, hb', hbs⟩ := h
    obtain ⟨high, hhigh, hread, hdigit⟩ := readDigit_of_isDigit hb index
    obtain ⟨low, hlow, hread', hdigit'⟩ := readDigit_of_isDigit hb' (index + 1)
    obtain ⟨vs, hrest, hlength, hdigits⟩ :=
      ih ((Nat.add_mod_right _ 2).symm.trans heven) hbs (index + 2)
    refine ⟨UInt8.ofNat (16 * high + low) :: vs, ?_, ?_, ?_⟩
    · rw [readPairs, hread, hread', hrest]
      rfl
    · rw [List.length_cons, List.length_cons, List.length_cons, ← hlength]
      omega
    · rw [List.flatMap_cons, byteDigits_ofNat hhigh hlow, hdigits, hdigit, hdigit']
      rfl

/-- **Reading stops at the first byte that is no digit.** -/
theorem readPairs_of_firstNonDigit? (heven : bs.length % 2 = 0)
    (h : firstNonDigit? index bs = some (b, n)) :
    readPairs index bs = .error (.invalidCharacter b n) := by
  induction bs using List.twoStepInduction generalizing index with
  | nil => cases h
  | singleton => cases heven
  | cons_cons d d' bs ih _ =>
    cases hd : isDigit d with
    | false =>
      rw [firstNonDigit?_cons_of_not_isDigit hd] at h
      cases h
      rw [readPairs, readDigit_of_not_isDigit hd]
      rfl
    | true =>
      obtain ⟨high, -, hread, -⟩ := readDigit_of_isDigit hd index
      rw [firstNonDigit?_cons_of_isDigit hd] at h
      rw [readPairs, hread]
      cases hd' : isDigit d' with
      | false =>
        rw [firstNonDigit?_cons_of_not_isDigit hd'] at h
        cases h
        rw [readDigit_of_not_isDigit hd']
        rfl
      | true =>
        obtain ⟨low, -, hread', -⟩ := readDigit_of_isDigit hd' (index + 1)
        rw [firstNonDigit?_cons_of_isDigit hd'] at h
        rw [hread', ih ((Nat.add_mod_right _ 2).symm.trans heven) h]
        rfl

/-- What is written is read in pairs as it was. -/
theorem readPairs_byteDigits (bs : Bytes) (index : Nat) :
    readPairs index ((bs.flatMap byteDigits).map Char.toUInt8) = .ok bs := by
  induction bs generalizing index with
  | nil => rfl
  | cons b bs ih =>
    have hb := b.toNat_lt
    have hbyte : UInt8.ofNat (16 * (b.toNat / 16) + b.toNat % 16) = b := by
      rw [Nat.div_add_mod, UInt8.ofNat_toNat]
    rw [List.flatMap_cons, byteDigits, List.map_append, List.map_cons, List.map_cons, List.map_nil,
      List.cons_append, List.cons_append, List.nil_append, readPairs,
      readDigit_digit (by omega), readDigit_digit (Nat.mod_lt _ (by decide)), ih]
    exact congrArg (fun b => Except.ok (b :: bs)) hbyte

/-! ### Texts -/

/-- Whether a text consists of `n` hexadecimal digits, of either case. -/
def Spells (n : Nat) (s : String) : Prop := s.length = n ∧ ∀ c ∈ s.toList, c.isHexDigit = true

instance (n : Nat) (s : String) : Decidable (Spells n s) :=
  decidable_of_iff (s.length = n ∧ s.toList.all Char.isHexDigit = true)
    (by rw [Spells, List.all_eq_true])

/-- The first reason to refuse a text that does not spell a value: an odd number of bytes, the first
byte that is no digit, and else its length. -/
def refusal (s : String) : HexError :=
  if s.utf8ByteSize % 2 = 1 then .oddLength
  else match firstNonDigit? 0 s.toUTF8.toList with
    | some (b, index) => .invalidCharacter b index
    | none => .invalidLength

theorem forall_isDigit_utf8EncodeChar :
    (∀ b ∈ String.utf8EncodeChar c, isDigit b = true) ↔ c.isHexDigit = true := by
  obtain hlt | hle := Nat.lt_or_ge c.toNat 128
  · rw [Text.utf8EncodeChar_of_lt hlt, List.forall_mem_singleton, isDigit, ofNat_toUInt8 hlt]
  · obtain ⟨b, bs, hbytes, hb⟩ := Text.exists_utf8EncodeChar_of_le hle
    rw [hbytes, List.forall_mem_cons, isDigit_eq_false (Nat.le_trans (by decide) hb)]
    exact ⟨fun h => (nomatch h.1), fun h => absurd (lt_of_isHexDigit h) (Nat.not_lt.2 hle)⟩

/-- **The bytes of a text are digits exactly if its characters are.** -/
theorem forall_isDigit_toUTF8 :
    (∀ b ∈ s.toUTF8.toList, isDigit b = true) ↔ ∀ c ∈ s.toList, c.isHexDigit = true := by
  simp only [Text.toList_toUTF8, List.mem_flatMap, ← forall_isDigit_utf8EncodeChar]
  exact ⟨fun h c hc b hb => h b ⟨c, hc, hb⟩, fun h b ⟨c, hc, hb⟩ => h c hc b hb⟩

/-- A digit is one byte. -/
theorem toList_toUTF8_of_digits (h : ∀ c ∈ s.toList, c.isHexDigit = true) :
    s.toUTF8.toList = s.toList.map Char.toUInt8 := by
  rw [Text.toList_toUTF8, List.map_eq_flatMap]
  exact List.flatMap_congr fun c hc => Text.utf8EncodeChar_of_lt (lt_of_isHexDigit (h c hc))

theorem decode_of_odd (h : s.utf8ByteSize % 2 = 1) : decode s = .error .oddLength := by
  rw [← Text.length_toList_toUTF8] at h
  exact if_pos h

theorem decode_of_even (h : s.utf8ByteSize % 2 = 0) : decode s = readPairs 0 s.toUTF8.toList := by
  rw [← Text.length_toList_toUTF8] at h
  exact if_neg (by omega)

theorem toList_toLower (s : String) : s.toLower.toList = s.toList.map Char.toLower :=
  String.toList_map

/-- What an even number of digits spells. -/
theorem decode_of_digits (heven : s.utf8ByteSize % 2 = 0)
    (h : ∀ c ∈ s.toList, c.isHexDigit = true) :
    ∃ bs, decode s = .ok bs ∧ 2 * bs.length = s.length ∧ encode bs = s.toLower := by
  have hlength := heven
  rw [← Text.length_toList_toUTF8] at hlength
  obtain ⟨bs, hread, hbs, hdigits⟩ := readPairs_of_digits hlength (forall_isDigit_toUTF8.2 h) 0
  rw [toList_toUTF8_of_digits h] at hbs hdigits
  refine ⟨bs, (decode_of_even heven).trans hread, ?_, String.toList_injective ?_⟩
  · rw [hbs, List.length_map, String.length_toList]
  · rw [encode, String.toList_ofList, hdigits, List.map_map, toList_toLower]
    refine List.map_congr_left fun c hc => ?_
    rw [Function.comp_apply, ofNat_toUInt8 (lt_of_isHexDigit (h c hc))]

theorem Spells.utf8ByteSize_eq (h : Spells n s) : s.utf8ByteSize = n := by
  rw [← Text.length_toList_toUTF8, toList_toUTF8_of_digits h.2, List.length_map,
    String.length_toList, h.1]

/-- **Twice as many digits spell so many bytes.** -/
theorem decodeExactly_of_spells (h : Spells (2 * width) s) :
    ∃ bs, decodeExactly width s = .ok bs ∧ bs.length = width ∧ encode bs = s.toLower := by
  have heven : s.utf8ByteSize % 2 = 0 := by
    rw [h.utf8ByteSize_eq]
    omega
  obtain ⟨bs, hread, hlength, hencode⟩ := decode_of_digits heven h.2
  have hwidth : bs.length = width := by
    have := h.1
    omega
  refine ⟨bs, ?_, hwidth, hencode⟩
  rw [decodeExactly, hread]
  exact if_pos hwidth

/-- **No other text spells them.** -/
theorem decodeExactly_of_not_spells (h : ¬ Spells (2 * width) s) :
    decodeExactly width s = .error (refusal s) := by
  rw [decodeExactly, refusal]
  obtain heven | hodd := Nat.mod_two_eq_zero_or_one s.utf8ByteSize
  · have hlength := heven
    rw [← Text.length_toList_toUTF8] at hlength
    rw [if_neg (by omega)]
    cases hfirst : firstNonDigit? 0 s.toUTF8.toList with
    | some found =>
      rw [decode_of_even heven, readPairs_of_firstNonDigit? hlength hfirst]
      rfl
    | none =>
      -- they are digits and spell bytes, so it is their number that is wrong
      have hdigits := forall_isDigit_toUTF8.1 (firstNonDigit?_eq_none.1 hfirst)
      obtain ⟨bs, hread, hbs, -⟩ := decode_of_digits heven hdigits
      have hwidth : bs.length ≠ width := fun hwidth => h ⟨by omega, hdigits⟩
      rw [hread]
      exact if_neg hwidth
  · rw [if_pos hodd, decode_of_odd hodd]
    rfl

/-- What is written consists of two digits a byte. -/
theorem spells_encode (bs : Bytes) : Spells (2 * bs.length) (encode bs) := by
  constructor
  · rw [encode, String.length_ofList, List.length_flatMap]
    simp only [byteDigits, List.length_cons, List.length_nil, List.map_const', List.sum_replicate]
    exact Nat.mul_comm ..
  · intro c hc
    rw [encode, String.toList_ofList, List.mem_flatMap] at hc
    obtain ⟨b, -, hc⟩ := hc
    have hb := b.toNat_lt
    rw [byteDigits, List.mem_cons, List.mem_singleton] at hc
    obtain rfl | rfl := hc
    · exact isHexDigit_digit _ (by omega)
    · exact isHexDigit_digit _ (Nat.mod_lt _ (by decide))

/-- **What is written is read as it was.** -/
theorem decodeExactly_encode (h : bs.length = width) :
    decodeExactly width (encode bs) = .ok bs := by
  have hspells := spells_encode bs
  have heven : (encode bs).utf8ByteSize % 2 = 0 := by
    rw [hspells.utf8ByteSize_eq, Nat.mul_mod_right]
  have hdecode : decode (encode bs) = .ok bs := by
    rw [decode_of_even heven, toList_toUTF8_of_digits hspells.2, encode, String.toList_ofList,
      readPairs_byteDigits]
  rw [decodeExactly, hdecode]
  exact if_pos h

end Hex

end MeteredLedger
