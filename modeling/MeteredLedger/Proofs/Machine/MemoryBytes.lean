import MeteredLedger.Bytes.Lemmas
import MeteredLedger.Proofs.Machine.Safety

/-!
# Memory byte by byte

A buffer is read as an endless string: its bytes, and zeros behind them (`Bytes.endless`). What an
instruction takes from a buffer is a stretch of that string, wherever the offset lies
(`zeroExtended_eq_stretch`). A memory is read in the same way (`Memory.byte`), so that a byte which
is not there yet reads as the zero that growing will put there. Growing then changes no byte,
reading gives a stretch, and writing puts bytes over some of it (`Memory.byte_grow`,
`Memory.eq_stretch_of_read`, `Memory.byte_write`).
-/

namespace MeteredLedger

namespace Bytes

/-- The bytes of an array, and zeros without end behind them. -/
def endless (source : Array UInt8) (i : Nat) : UInt8 := source[i]?.getD 0

/-- So many bytes of an endless string, from an index on. -/
def stretch (f : Nat → UInt8) (start size : Nat) : Bytes :=
  (List.range size).map fun k => f (start + k)

/-- An endless string with bytes put over it, from an index on. -/
def overlay (f : Nat → UInt8) (offset : Nat) (bs : Bytes) (i : Nat) : UInt8 :=
  if offset ≤ i then bs[i - offset]?.getD (f i) else f i

@[simp] theorem length_stretch (f : Nat → UInt8) (start size : Nat) :
    (stretch f start size).length = size := by
  unfold stretch
  rw [List.length_map, List.length_range]

theorem getElem?_stretch {f : Nat → UInt8} {start size k : Nat} (h : k < size) :
    (stretch f start size)[k]? = some (f (start + k)) := by
  unfold stretch
  rw [List.getElem?_map, List.getElem?_range h]
  rfl

/-- A string that is read byte by byte is a stretch. -/
theorem eq_stretch {bs : Bytes} {f : Nat → UInt8} {start size : Nat} (hsize : bs.length = size)
    (h : ∀ k < size, bs[k]? = some (f (start + k))) : bs = stretch f start size := by
  refine List.ext_getElem? fun k => ?_
  obtain hk | hk := Nat.lt_or_ge k size
  · rw [h k hk, getElem?_stretch hk]
  · rw [List.getElem?_eq_none (by omega), List.getElem?_eq_none (by rwa [length_stretch])]

@[simp] theorem overlay_nil (f : Nat → UInt8) (offset : Nat) : overlay f offset [] = f := by
  funext i
  unfold overlay
  split_ifs <;> rfl

/-- Bytes are put one after the other. -/
theorem overlay_cons (f : Nat → UInt8) (offset : Nat) (b : UInt8) (bs : Bytes) :
    overlay f offset (b :: bs) = overlay (Function.update f offset b) (offset + 1) bs := by
  funext i
  unfold overlay
  obtain hlt | rfl | hgt := Nat.lt_trichotomy i offset
  · rw [if_neg (by omega), if_neg (by omega), Function.update_of_ne (by omega)]
  · rw [if_pos (Nat.le_refl i), if_neg (by omega), Function.update_self, Nat.sub_self]
    rfl
  · rw [if_pos (by omega), if_pos (by omega), Function.update_of_ne (by omega)]
    obtain ⟨k, rfl⟩ := Nat.exists_eq_add_of_lt hgt
    rw [show offset + k + 1 - offset = k + 1 by omega,
      show offset + k + 1 - (offset + 1) = k by omega, List.getElem?_cons_succ]

/-- The bytes put, and the others as they were. -/
theorem overlay_eq (f : Nat → UInt8) (offset : Nat) (bs : Bytes) (i : Nat) :
    overlay f offset bs i =
      if offset ≤ i ∧ i < offset + bs.length then bs[i - offset]?.getD 0 else f i := by
  unfold overlay
  by_cases hle : offset ≤ i
  · by_cases hlt : i < offset + bs.length
    · rw [if_pos hle, if_pos ⟨hle, hlt⟩, List.getElem?_eq_getElem (by omega)]
      rfl
    · rw [if_pos hle, if_neg (fun h => hlt h.2), List.getElem?_eq_none (by omega)]
      rfl
  · rw [if_neg hle, if_neg fun h => hle h.1]

end Bytes

open Bytes

/-- **What is taken from a buffer is a stretch of the endless string**, also where the buffer has
ended. -/
theorem zeroExtended_eq_stretch (source : Array UInt8) (start size : Nat) :
    zeroExtended source start size = stretch (endless source) start size := by
  refine eq_stretch (length_zeroExtended _ _ _) fun k hk => ?_
  unfold zeroExtended endless
  dsimp only
  rw [List.getElem?_append, Array.length_toList, Array.getElem?_toList]
  simp only [Array.size_extract, Array.getElem?_extract]
  split_ifs with hin
  · rw [Nat.min_eq_left (by omega), Array.getElem?_eq_getElem (by omega)]
    rfl
  · rw [List.getElem?_replicate, if_pos (by omega), Array.getElem?_eq_none (by omega)]
    rfl

/-- An offset that is cut off at the end of a buffer takes the same from it. -/
theorem zeroExtended_min (source : Array UInt8) (start size : Nat) :
    zeroExtended source (min start source.size) size = stretch (endless source) start size := by
  rw [← zeroExtended_eq_stretch]
  unfold zeroExtended
  rw [Nat.min_assoc, Nat.min_self]

namespace Memory

variable {m m' : Memory} {offset size limit : Nat} {bs : Bytes}

/-- The byte at an index; zero where there is none yet. -/
def byte (m : Memory) (i : Nat) : UInt8 := endless m.bytes i

/-- A region is there, if there is anything in it. -/
def Covers (m : Memory) (region : Nat × Nat) : Prop :=
  region.2 = 0 ∨ region.1 + region.2 ≤ m.size

/-- **The memory has only grown.** -/
structure Grows (m m' : Memory) : Prop where
  byte : m'.byte = m.byte
  size : m.size ≤ m'.size
  words : 32 ∣ m.size → 32 ∣ m'.size

theorem Grows.refl (m : Memory) : Grows m m := ⟨rfl, Nat.le_refl _, id⟩

theorem Grows.trans {m'' : Memory} (h : Grows m m') (h' : Grows m' m'') : Grows m m'' :=
  ⟨h'.byte.trans h.byte, h.size.trans h'.size, fun hw => h'.words (h.words hw)⟩

theorem Covers.of_le {region : Nat × Nat} (h : m.Covers region) (hle : m.size ≤ m'.size) :
    m'.Covers region := h.imp id fun h => h.trans hle

/-! ### Growing -/

/-- A memory that is grown has whole words, as many as are asked for, or all that it had. -/
theorem size_grow (h : m.grow limit = .ok m') : m'.size = max m.size (32 * wordsFor limit) := by
  unfold grow at h
  dsimp only at h
  split_ifs at h
  cases h
  simp only [size, Array.size_append, Array.size_replicate]
  omega

/-- **Growing changes no byte.** -/
theorem byte_grow (h : m.grow limit = .ok m') : m'.byte = m.byte := by
  unfold grow at h
  dsimp only at h
  split_ifs at h
  cases h
  funext i
  unfold byte endless
  dsimp only
  rw [Array.getElem?_append]
  split_ifs with hin
  · rfl
  · rw [Array.getElem?_eq_none (by omega : m.bytes.size ≤ i), Array.getElem?_replicate]
    split_ifs <;> rfl

theorem grows_of_grow (h : m.grow limit = .ok m') : Grows m m' := by
  have hsize := size_grow h
  refine ⟨byte_grow h, by omega, fun hw => ?_⟩
  rw [hsize]
  obtain hle | hle := Nat.le_total m.size (32 * wordsFor limit)
  · rw [Nat.max_eq_right hle]
    exact Nat.dvd_mul_right 32 _
  · rwa [Nat.max_eq_left hle]

/-! ### Reading -/

/-- **What is read is a stretch of the memory**, and it is there. -/
theorem eq_stretch_of_read (h : m.read offset size = .ok bs) :
    bs = stretch m.byte offset size ∧ m.Covers (offset, size) := by
  unfold read at h
  split_ifs at h with hzero hin
  · cases h
    rw [hzero]
    exact ⟨rfl, .inl rfl⟩
  · cases h
    refine ⟨eq_stretch ?_ fun k hk => ?_, .inr hin⟩
    · rw [Array.length_toList, Array.size_extract]
      omega
    · rw [Array.getElem?_toList, Array.getElem?_extract, if_pos (by omega)]
      unfold byte endless
      rw [Array.getElem?_eq_getElem (by omega)]
      rfl

/-! ### Writing -/

theorem endless_setIfInBounds {bytes : Array UInt8} {i : Nat} (h : i < bytes.size) (b : UInt8) :
    endless (bytes.setIfInBounds i b) = Function.update (endless bytes) i b := by
  funext j
  unfold endless
  rw [Array.getElem?_setIfInBounds]
  by_cases hj : i = j
  · subst hj
    rw [if_pos rfl, if_pos h, Function.update_self]
    rfl
  · rw [if_neg hj, Function.update_of_ne (Ne.symm hj)]

theorem endless_place {bytes : Array UInt8} (h : offset + bs.length ≤ bytes.size) :
    endless (place bytes offset bs) = overlay (endless bytes) offset bs := by
  induction bs generalizing bytes offset with
  | nil => rw [place, overlay_nil]
  | cons b bs ih =>
    rw [List.length_cons] at h
    rw [place, overlay_cons, ih (by rw [Array.size_setIfInBounds]; omega),
      endless_setIfInBounds (by omega)]

/-- **Writing puts bytes over the memory**, where they are there already. -/
theorem byte_write (h : m.write offset bs = .ok m') :
    m'.byte = overlay m.byte offset bs ∧ m.Covers (offset, bs.length) := by
  unfold write at h
  split_ifs at h with hnone hin
  · cases h
    rw [List.isEmpty_iff.1 hnone]
    exact ⟨(overlay_nil _ _).symm, .inl rfl⟩
  · cases h
    exact ⟨endless_place hin, .inr hin⟩

theorem size_write (h : m.write offset bs = .ok m') : m'.size = m.size := by
  unfold write at h
  split_ifs at h
  · cases h
    rfl
  · cases h
    exact size_place _ _ _

end Memory

/-! ### Words -/

/-- **A word is what its last 32 bytes spell.** -/
theorem toNat_bytesWord_drop (bs : Bytes) :
    (bytesWord bs).toNat = ofBigEndian (bs.drop (bs.length - 32)) := by
  rw [bytesWord, BitVec.toNat_ofNat, ← ofBigEndian_mod]
  rfl

/-- No bytes are lost of a word that is spelled by 32 of them at most. -/
theorem toNat_bytesWord {bs : Bytes} (h : bs.length ≤ 32) :
    (bytesWord bs).toNat = ofBigEndian bs := by
  rw [toNat_bytesWord_drop, Nat.sub_eq_zero_of_le h, List.drop_zero]

/-- **A word is spelled in one way**, the most significant byte first. -/
theorem bytesWord_eq_iff {bs : Bytes} (h : bs.length = 32) (w : Word) :
    bytesWord bs = w ↔ bs = bigEndian 32 w.toNat := by
  constructor
  · rintro rfl
    rw [toNat_bytesWord h.le, ← h, bigEndian_ofBigEndian]
  · rintro rfl
    refine BitVec.eq_of_toNat_eq ?_
    rw [toNat_bytesWord h.le, ofBigEndian_bigEndian w.isLt]

/-- A slot keeps the word that is written to it. -/
@[simp] theorem bytesWord_slotValue (w : Word) : bytesWord (slotValue w) = w := by
  unfold slotValue
  split_ifs with hzero
  · rw [hzero]
    rfl
  · exact (bytesWord_eq_iff (length_bigEndian _ _) w).2 rfl

/-- Zero clears a slot, and nothing else does. -/
theorem slotValue_eq_nil_iff {w : Word} : slotValue w = [] ↔ w = 0 := by
  refine ⟨fun h => ?_, fun h => by rw [slotValue, if_pos h]⟩
  rw [← bytesWord_slotValue w, h]
  rfl

end MeteredLedger
