import MeteredLedger.Proofs.Machine.Instructions

/-!
# Reading past the end

Input and code are read as if they had no end: behind their last byte there are zeros. Each of the
instructions that read from them cuts the offset off at the end of the buffer first, so that what is
left of the buffer can be taken and the rest filled up. That comes to the same as reading the
endless string at the offset itself (`zeroExtended_clampOffset`), whatever number it is, so that
nothing wraps around where the sum of offset and size has more bits than a word
(`reads_past_the_end_are_zero`).
-/

namespace MeteredLedger

open Bytes

/-- **An offset that is cut off reads the same.** -/
theorem zeroExtended_clampOffset (source : Array UInt8) (start : Word) (size : Nat) :
    zeroExtended source (clampOffset start source.size) size
      = stretch (endless source) start.toNat size := zeroExtended_min source start.toNat size

/-- The bytes that an instruction copies to memory, and the others. -/
theorem Memory.byte_of_copy {memory memory' : Memory} {source : Array UInt8} {start : Word}
    {offset size : Nat}
    (h : memory.write offset (zeroExtended source (clampOffset start source.size) size)
      = .ok memory') (i : Nat) :
    memory'.byte i = if offset ≤ i ∧ i < offset + size then
      endless source (start.toNat + (i - offset)) else memory.byte i := by
  rw [(byte_write h).1, overlay_eq, length_zeroExtended, zeroExtended_clampOffset]
  split_ifs with hin
  · rw [getElem?_stretch (by omega)]
    rfl
  · rfl

namespace Exec

variable {env : Setting} {m m' : Machine} {ctl : Control} {rest : List Word}

/-! ### Copying -/

/-- **A copy** writes so many bytes of the endless string, and changes no other byte. -/
structure Copied (source : Array UInt8) (target start size : Word) (m m' : Machine) : Prop where
  byte : ∀ i, m'.frame.memory.byte i =
    if target.toNat ≤ i ∧ i < target.toNat + size.toNat then
      endless source (start.toNat + (i - target.toNat)) else m.frame.memory.byte i
  covers : m'.frame.memory.Covers (target.toNat, size.toNat)
  grown : m.frame.memory.size ≤ m'.frame.memory.size

theorem copied_of_step {byte : UInt8} {op : Opcode} {source : Frame → Array UInt8}
    {target start size : Word} (h : step env byte m = .ok ctl m') (hbyte : .ofByte byte = op)
    (hop : op = .callDataCopy ∧ source = Frame.input ∨ op = .codeCopy ∧ source = Frame.code)
    (hm : m.frame.stack.words = target :: start :: size :: rest) :
    ctl = .next ∧ m'.frame.stack.words = rest ∧ Copied (source m.frame) target start size m m' := by
  have count : [target, start, size].length = op.takes := by
    obtain ⟨rfl, -⟩ | ⟨rfl, -⟩ := hop <;> rfl
  obtain ⟨mid, hperformed, hrest⟩ := performed_of_step h hbyte count hm
  have hready := hperformed.ready
  have hstored : op.stored? mid.frame [target, start, size] = some (target.toNat,
      zeroExtended (source m.frame) (clampOffset start (source m.frame).size) size.toNat) := by
    obtain ⟨rfl, rfl⟩ | ⟨rfl, rfl⟩ := hop <;> rw [hready.frame] <;> rfl
  obtain ⟨hnone, -⟩ | ⟨offset, bs, hsome, hctl, hwrite, hstack⟩ := hperformed.acts.stored
  · rw [hnone] at hstored
    cases hstored
  · obtain ⟨rfl, rfl⟩ := Prod.mk.inj (Option.some.inj (hsome.symm.trans hstored))
    have hsize := Memory.size_write hwrite
    refine ⟨hctl, by rw [hstack, hrest], fun i => ?_, ?_, ?_⟩
    · rw [Memory.byte_of_copy hwrite, hready.memory.byte]
    · have hcovers := (Memory.byte_write hwrite).2
      rw [length_zeroExtended] at hcovers
      exact hcovers.of_le hsize.ge
    · exact hready.memory.size.trans hsize.ge

/-! ### Instructions that succeed -/

/-- An action that never stops gives a value. -/
theorem exists_ok {α : Type} {x : Exec α} (h : Meets x m (fun _ _ => True) fun _ _ => False) :
    ∃ a m', x m = .ok a m' := by
  unfold Meets at h
  split at h
  · exact ⟨_, _, ‹_›⟩
  · exact h.elim

/-- `CALLDATALOAD` succeeds if it is paid for. -/
theorem step_callDataLoad_ok {start : Word} {gas : Meter} (hm : m.frame.stack.words = start :: rest)
    (hgas : m.gas.consume env.params.instructions.veryLow "CALLDATALOAD" = .ok gas) :
    ∃ ctl m', step env 0x35 m = .ok ctl m' := by
  refine exists_ok (Meets.bind (meets_charge (fun _ _ => Meets.bind ?_)
    fun hnone _ => hnone gas hgas))
  refine meets_pop hm fun stack hstack => meets_inspect (Meets.bind ?_)
  obtain ⟨stack', hpush, -⟩ := room_of_pop hm hstack _
  exact meets_push hpush trivial

/-- `PUSHn` succeeds if it is paid for and there is room. -/
theorem step_push_ok {byte : UInt8} {size : Nat} {gas : Meter}
    (hop : Opcode.ofByte byte = .push size) (hroom : m.frame.stack.height < Stack.capacity)
    (hgas : m.gas.consume env.params.instructions.veryLow "PUSH" = .ok gas) :
    ∃ ctl m', step env byte m = .ok ctl m' := by
  refine exists_ok ?_
  unfold step
  rw [hop]
  refine Meets.bind (meets_charge (fun _ _ => meets_inspect (Meets.bind ?_))
    fun hnone _ => hnone gas hgas)
  obtain ⟨stack, hpush, -⟩ | ⟨-, hfull⟩ := push_cases m.frame.stack _
  · exact meets_push hpush trivial
  · exact absurd hfull (Nat.ne_of_lt hroom)

/-- The bytes from `0x60` to `0x7f` are the instructions that carry data. -/
theorem ofByte_of_range {byte : UInt8} (hmin : 0x60 ≤ byte) (hmax : byte ≤ 0x7f) :
    Opcode.ofByte byte = .push (byte.toNat - 0x5f) ∧ byte.toNat - 0x5f ≤ 32 :=
  Bytes.forall_byte (P := fun b => 0x60 ≤ b → b ≤ 0x7f →
    Opcode.ofByte b = .push (b.toNat - 0x5f) ∧ b.toNat - 0x5f ≤ 32)
    (by decide +kernel) byte hmin hmax

end Exec

open Exec in
/-- **Reads past the end see zeros**, at any offset. `CALLDATALOAD` puts the word on the stack that
is spelled by the 32 bytes of the endless input from the offset on, and does so if it is paid for.
`CALLDATACOPY` and `CODECOPY`, if they do not fail, write as many bytes of the endless input or code
to memory as they are asked for, where they are asked to, and change no other byte. `PUSHn` puts the
number on the stack that is spelled by the `n` bytes of the endless code behind it, and does so if
it is paid for and there is room. -/
theorem reads_past_the_end_are_zero :
    (∀ env m start rest, m.frame.stack.words = start :: rest →
      (∀ gas, m.gas.consume env.params.instructions.veryLow "CALLDATALOAD" = .ok gas →
        ∃ ctl m', step env 0x35 m = .ok ctl m') ∧
      ∀ ctl m', step env 0x35 m = .ok ctl m' → ctl = .next ∧ ∃ w,
        m'.frame.stack.words = w :: rest ∧
        bigEndian 32 w.toNat = stretch (endless m.frame.input) start.toNat 32) ∧
    (∀ env m target start size rest, m.frame.stack.words = target :: start :: size :: rest →
      (∀ ctl m', step env 0x37 m = .ok ctl m' →
        ctl = .next ∧ m'.frame.stack.words = rest ∧ Copied m.frame.input target start size m m') ∧
      ∀ ctl m', step env 0x39 m = .ok ctl m' →
        ctl = .next ∧ m'.frame.stack.words = rest ∧ Copied m.frame.code target start size m m') ∧
    ∀ env m byte, 0x60 ≤ byte → byte ≤ 0x7f →
      (∀ gas, m.gas.consume env.params.instructions.veryLow "PUSH" = .ok gas →
        m.frame.stack.height < Stack.capacity → ∃ ctl m', step env byte m = .ok ctl m') ∧
      ∀ ctl m', step env byte m = .ok ctl m' → ctl = .next ∧ ∃ w,
        m'.frame.stack.words = w :: m.frame.stack.words ∧
        w.toNat = ofBigEndian
          (stretch (endless m.frame.code) (m.frame.pc + 1) (byte.toNat - 0x5f)) := by
  refine ⟨fun env m start rest hm => ⟨fun gas hgas => step_callDataLoad_ok hm hgas, ?_⟩,
    fun env m target start size rest hm =>
      ⟨fun ctl m' h => copied_of_step h rfl (.inl ⟨rfl, rfl⟩) hm,
        fun ctl m' h => copied_of_step h rfl (.inr ⟨rfl, rfl⟩) hm⟩,
    fun env m byte hmin hmax => ?_⟩
  · intro ctl m' h
    obtain ⟨mid, hperformed, hrest⟩ :=
      performed_of_step h rfl rfl (show _ = [start] ++ rest from hm)
    obtain ⟨hctl, hwords⟩ := hperformed.acts.word rfl
    refine ⟨hctl, _, by rw [hwords, hrest], ?_⟩
    rw [hperformed.ready.frame, zeroExtended_clampOffset]
    exact ((bytesWord_eq_iff (length_stretch _ _ _) _).1 rfl).symm
  · obtain ⟨hop, hsize⟩ := ofByte_of_range hmin hmax
    refine ⟨fun gas hgas hroom => step_push_ok hop hroom hgas, fun ctl m' h => ?_⟩
    obtain ⟨mid, hperformed, hrest⟩ := performed_of_step h hop rfl (List.nil_append _).symm
    obtain ⟨hctl, hwords⟩ := hperformed.acts.word rfl
    refine ⟨hctl, _, by rw [hwords, hrest], ?_⟩
    rw [hperformed.ready.frame, zeroExtended_eq_stretch]
    exact toNat_bytesWord ((length_stretch _ _ _).trans_le hsize)

/-! ### Reads across the end and far behind it -/

namespace ShortBuffers

/-- The standard parameters, on an empty store. -/
def env : Setting := ⟨.standard, .ofHeader .genesis ⟨1⟩ 1000, .empty⟩

/-- A machine with three bytes of input, at a `PUSH2` whose data the end of the code cuts off. -/
def holding (stack : Stack) : Machine :=
  ⟨⟨.fresh, .untracked⟩, .bounded 1000,
    { (Frame.fresh ⟨2⟩ ⟨1⟩ 0 [1, 2, 3] 0).load [0x61, 7] with stack }⟩

/-- The last offset that a word can name. -/
def far : Stack := ⟨[BitVec.allOnes 256], by decide⟩

/-- Five bytes, from the second of the input on, to the fourth of the memory. -/
def across : Stack := ⟨[3, 1, 5], by decide⟩

/-- The memory behind an instruction. -/
def memoryAfter (byte : UInt8) (stack : Stack) : Option Bytes :=
  match Exec.step env byte (holding stack) with
  | .ok _ m => some m.frame.memory.bytes.toList
  | .error _ _ => none

end ShortBuffers

open ShortBuffers Exec in
/-- A load from the last offset is zero, a copy of five bytes has two of the three there are, and a
`PUSH2` with one byte of data pushes that byte and a zero. -/
theorem reads_past_the_end_are_zero_short :
    (∃ ctl m', step env 0x35 (holding far) = .ok ctl m' ∧ ctl = .next ∧ ∃ w,
      m'.frame.stack.words = [w] ∧ bigEndian 32 w.toNat = List.replicate 32 0) ∧
    (∃ m', step env 0x37 (holding across) = .ok .next m' ∧
      m'.frame.memory.bytes.toList = [0, 0, 0, 2, 3] ++ List.replicate 27 0 ∧
      Copied #[1, 2, 3] 3 1 5 (holding across) m') ∧
    ∃ ctl m', step env 0x61 (holding .empty) = .ok ctl m' ∧ ctl = .next ∧ ∃ w,
      m'.frame.stack.words = [w] ∧ w.toNat = 0x0700 := by
  have hcopy : memoryAfter 0x37 across = some ([0, 0, 0, 2, 3] ++ List.replicate 27 0) := by
    decide +kernel
  obtain ⟨loads, copies, pushes⟩ := reads_past_the_end_are_zero
  refine ⟨?_, ?_, ?_⟩
  · obtain ⟨succeeds, spells⟩ := loads env (holding far) (BitVec.allOnes 256) [] rfl
    obtain ⟨ctl, m', hstep⟩ := succeeds _ rfl
    obtain ⟨hctl, w, hwords, hspells⟩ := spells ctl m' hstep
    exact ⟨ctl, m', hstep, hctl, w, hwords, hspells.trans (by decide +kernel)⟩
  · unfold memoryAfter at hcopy
    split at hcopy
    · rename_i ctl m' hstep
      obtain ⟨rfl, -, hcopied⟩ := (copies env (holding across) 3 1 5 [] rfl).1 ctl m' hstep
      exact ⟨m', hstep, Option.some.inj hcopy, hcopied⟩
    · cases hcopy
  · obtain ⟨succeeds, spells⟩ := pushes env (holding .empty) 0x61 (by decide) (by decide)
    obtain ⟨ctl, m', hstep⟩ := succeeds _ rfl (by decide)
    obtain ⟨hctl, w, hwords, hspells⟩ := spells ctl m' hstep
    exact ⟨ctl, m', hstep, hctl, w, hwords, hspells.trans (by decide +kernel)⟩

end MeteredLedger
