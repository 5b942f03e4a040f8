import MeteredLedger.Bytes.Lemmas
import MeteredLedger.Machine.Opcode

/-!
# Decoding code

Code is decoded from the front: a byte from `0x60` to `0x7f` brings so many bytes of data with it,
and the next instruction starts behind them (`Code.Starts`). The table of jump targets is made by a
scan that counts down the bytes still to be skipped. It marks exactly the `JUMPDEST` bytes at which
an instruction starts (`Code.jumpTargets_eq_true_iff`), so that no byte of data is ever a target,
whatever it spells, and neither is one behind an instruction that the end of the code cuts off.
-/

namespace MeteredLedger

/-! ### Bytes -/

/-- The bytes of data behind a byte that starts an instruction. -/
def Code.dataSize (b : UInt8) : Nat := if 0x60 ≤ b ∧ b ≤ 0x7f then b.toNat - 0x5f else 0

namespace Opcode

/-- An instruction carries the data behind its byte. -/
theorem carried_ofByte (b : UInt8) : (ofByte b).carried = Code.dataSize b :=
  Bytes.forall_byte (P := fun b => (ofByte b).carried = Code.dataSize b) (by decide +kernel) b

theorem ofByte_eq_jumpdest {b : UInt8} : ofByte b = .jumpdest ↔ b = 0x5b :=
  Bytes.forall_byte (P := fun b => ofByte b = .jumpdest ↔ b = 0x5b) (by decide +kernel) b

theorem ofByte_eq_jump {b : UInt8} : ofByte b = .jump ↔ b = 0x56 :=
  Bytes.forall_byte (P := fun b => ofByte b = .jump ↔ b = 0x56) (by decide +kernel) b

theorem ofByte_eq_jumpi {b : UInt8} : ofByte b = .jumpi ↔ b = 0x57 :=
  Bytes.forall_byte (P := fun b => ofByte b = .jumpi ↔ b = 0x57) (by decide +kernel) b

end Opcode

namespace Code

/-! ### Where instructions start -/

/-- **An instruction starts here**, when code is decoded from the front. -/
inductive Starts (code : Bytes) : Nat → Prop where
  /-- The first one starts in front. -/
  | front (h : 0 < code.length) : Starts code 0
  /-- The next one starts behind the data of the one before. -/
  | next {i : Nat} {b : UInt8} (start : Starts code i) (byte : code[i]? = some b)
      (h : i + 1 + dataSize b < code.length) : Starts code (i + 1 + dataSize b)

variable {code : Bytes} {i : Nat}

theorem Starts.lt (h : Starts code i) : i < code.length := by
  cases h with
  | front h => exact h
  | next _ _ h => exact h

/-- Every byte belongs to an instruction that starts there or before. -/
theorem exists_starts (hi : i < code.length) :
    ∃ s b, Starts code s ∧ code[s]? = some b ∧ s ≤ i ∧ i < s + 1 + dataSize b := by
  induction i with
  | zero =>
    exact ⟨0, code[0], .front hi, List.getElem?_eq_getElem hi, Nat.le_refl 0, by omega⟩
  | succ i ih =>
    obtain ⟨s, b, hs, hb, hle, hlt⟩ := ih (Nat.lt_of_succ_lt hi)
    by_cases hdata : i + 1 < s + 1 + dataSize b
    · exact ⟨s, b, hs, hb, Nat.le_succ_of_le hle, hdata⟩
    · -- the instruction of the byte before ends there, and so the next one starts here
      have heq : i + 1 = s + 1 + dataSize b := by omega
      refine ⟨i + 1, code[i + 1], heq ▸ hs.next hb (heq ▸ hi), List.getElem?_eq_getElem hi,
        Nat.le_refl _, by omega⟩

/-- Instructions start only at places that the decoding does not lead out of, if the front is one of
them. -/
theorem Starts.mem_of_closed {places : List Nat} (front : 0 ∈ places)
    (closed : ∀ j ∈ places, ∀ b ∈ code[j]?,
      j + 1 + dataSize b < code.length → j + 1 + dataSize b ∈ places)
    (h : Starts code i) : i ∈ places := by
  induction h with
  | front _ => exact front
  | next _ byte h ih => exact closed _ ih _ byte h

/-! ### The scan for jump targets -/

theorem jumpTargets_cons (b : UInt8) (code : Bytes) :
    jumpTargets (b :: code)
      = decide (Opcode.ofByte b = .jumpdest) :: targetsAfter (dataSize b) code := by
  rw [← Opcode.carried_ofByte]
  rfl

/-- As long as it skips, the scan marks nothing. -/
theorem targetsAfter_of_lt {carried : Nat} (h : i < carried) (hi : i < code.length) :
    (targetsAfter carried code)[i]? = some false := by
  induction code generalizing carried i with
  | nil => exact absurd hi (Nat.not_lt_zero i)
  | cons b code ih =>
    cases carried with
    | zero => exact absurd h (Nat.not_lt_zero i)
    | succ carried =>
      cases i with
      | zero => rfl
      | succ i => exact ih (Nat.lt_of_succ_lt_succ h) (Nat.lt_of_succ_lt_succ hi)

/-- Behind what it skips, the scan is one of the rest. -/
theorem drop_targetsAfter (carried : Nat) (code : Bytes) :
    (targetsAfter carried code).drop carried = jumpTargets (code.drop carried) := by
  induction code generalizing carried with
  | nil => cases carried <;> simp [targetsAfter, jumpTargets]
  | cons b code ih =>
    cases carried with
    | zero => rfl
    | succ carried => exact ih carried

/-- **From the start of an instruction on, the scan is one of the rest.** -/
theorem Starts.drop_jumpTargets (h : Starts code i) :
    (jumpTargets code).drop i = jumpTargets (code.drop i) := by
  induction h with
  | front h => rfl
  | @next i b start byte h ih =>
    have hcode : code.drop i = b :: code.drop (i + 1) := by
      obtain ⟨hlt, rfl⟩ := List.getElem?_eq_some_iff.1 byte
      exact List.drop_eq_getElem_cons hlt
    calc (jumpTargets code).drop (i + 1 + dataSize b)
        = (((jumpTargets code).drop i).drop 1).drop (dataSize b) := by
          rw [List.drop_drop, List.drop_drop, Nat.add_assoc]
      _ = (targetsAfter (dataSize b) (code.drop (i + 1))).drop (dataSize b) := by
          rw [ih, hcode, jumpTargets_cons]
          rfl
      _ = jumpTargets (code.drop (i + 1 + dataSize b)) := by
          rw [drop_targetsAfter, List.drop_drop]

/-- What the scan says of an instruction and of the data behind it. -/
theorem Starts.getElem?_jumpTargets {s : Nat} {b : UInt8} (h : Starts code s)
    (hb : code[s]? = some b) (j : Nat) : (jumpTargets code)[s + j]? =
      (decide (Opcode.ofByte b = .jumpdest) ::
        targetsAfter (dataSize b) (code.drop (s + 1)))[j]? := by
  obtain ⟨hlt, rfl⟩ := List.getElem?_eq_some_iff.1 hb
  rw [← List.getElem?_drop, h.drop_jumpTargets, List.drop_eq_getElem_cons hlt, jumpTargets_cons]

/-- **A jump may lead to the `JUMPDEST` bytes at which an instruction starts**, and nowhere
else. -/
theorem jumpTargets_eq_true_iff :
    (jumpTargets code)[i]? = some true ↔ code[i]? = some 0x5b ∧ Starts code i := by
  constructor
  · intro h
    have hi : i < code.length := by
      have hlt := (List.getElem?_eq_some_iff.1 h).1
      rwa [length_jumpTargets] at hlt
    obtain ⟨s, b, hs, hb, hle, hlt⟩ := exists_starts hi
    obtain ⟨j, rfl⟩ := Nat.exists_eq_add_of_le hle
    rw [hs.getElem?_jumpTargets hb] at h
    cases j with
    | zero =>
      have hdest : Opcode.ofByte b = .jumpdest := by simpa using h
      exact ⟨Opcode.ofByte_eq_jumpdest.1 hdest ▸ hb, hs⟩
    | succ j =>
      -- a byte of data is skipped
      rw [List.getElem?_cons_succ, targetsAfter_of_lt (by omega)
        (by rw [List.length_drop]; omega)] at h
      cases h
  · rintro ⟨hb, hs⟩
    have h := hs.getElem?_jumpTargets hb 0
    rwa [Nat.add_zero, List.getElem?_cons_zero,
      decide_eq_true (Opcode.ofByte_eq_jumpdest.2 rfl)] at h

end Code

end MeteredLedger
