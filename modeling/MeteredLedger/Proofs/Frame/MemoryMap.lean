import MeteredLedger.Proofs.Frame.Turns

/-!
# Memory is a map of bytes

What the memory of a frame holds follows from what has been written to it, the latest first: at each
index the byte of the latest write that reaches it, and zero if none does (`Memory.lastWritten`).
Each turn writes what its instruction stores, or what of the output of a call has a place in the
region for it (`Opcode.written?`), and touches the regions that its operands name, wherever they
overlap. What one turn does to memory (`Exec.turn_memory`) carries over to any number of them
(`Exec.Ran.memory`). So whatever an instruction reads of memory, be it for the stack, for a hash, a
log, a frame below or the output, is what was written there last (`memory_is_byte_map`).
-/

namespace MeteredLedger

open Bytes

/-! ### Writes -/

/-- The byte at an index after some writes, the latest first. -/
def Memory.lastWritten (writes : List (Nat × Bytes)) (i : Nat) : UInt8 :=
  (writes.findSome? fun (offset, bs) => if offset ≤ i then bs[i - offset]? else none).getD 0

theorem Memory.lastWritten_cons (offset : Nat) (bs : Bytes) (writes : List (Nat × Bytes)) :
    lastWritten ((offset, bs) :: writes) = overlay (lastWritten writes) offset bs := by
  funext i
  unfold lastWritten overlay
  rw [List.findSome?_cons]
  dsimp only
  split_ifs with hle
  · cases bs[i - offset]? <;> rfl
  · rfl

/-- What a turn writes to memory, and where: what its instruction stores, or as much of what a call
has handed back as fits in the region for it. -/
def Opcode.written? (f : Frame) (below : Option FrameResult) :
    Opcode → List Word → Option (Nat × Bytes)
  | call, [_, _, _, _, _, offset, size] =>
    below.map fun r => (offset.toNat, r.output.take size.toNat)
  | op, ws => op.stored? f ws

namespace Exec

namespace Taken

/-- The operands that its instruction has found. -/
def operands (t : Taken) : List Word :=
  t.machine.frame.stack.words.take (Opcode.ofByte t.byte).takes

/-- The regions of memory that it has touched. -/
def regions (t : Taken) : List (Nat × Nat) := (Opcode.ofByte t.byte).regions t.operands

/-- What it has written to memory. -/
def write? (env : Setting) (t : Taken) : Option (Nat × Bytes) :=
  (Opcode.ofByte t.byte).written? t.machine.frame
    (below env (run env t.steps) t.byte t.machine) t.operands

end Taken

end Exec

/-- A memory with some bytes written over it, or none. -/
def Bytes.overlay? (f : Nat → UInt8) : Option (Nat × Bytes) → Nat → UInt8
  | none => f
  | some (offset, bs) => overlay f offset bs

theorem Opcode.written?_of_stored {f : Frame} {op : Opcode} {ws : List Word} {stored : Nat × Bytes}
    (h : op.stored? f ws = some stored) (below : Option FrameResult) :
    op.written? f below ws = some stored := by
  cases op with
  | call => cases h
  | _ => exact h

theorem Opcode.written?_of_none {f : Frame} {op : Opcode} {ws : List Word}
    (h : op.stored? f ws = none) : op.written? f none ws = none := by
  unfold written?
  split
  · rfl
  · exact h

/-- What an instruction stores does not depend on the stack or the memory. -/
theorem Machine.Readied.stored?_eq {costs : EffectCosts} {words : List Word} {m mid : Machine}
    (h : m.Readied costs words mid) (op : Opcode) (ws : List Word) :
    op.stored? mid.frame ws = op.stored? m.frame ws := by
  rw [h.frame]
  cases op <;> rfl

/-- A region without a size may start anywhere. -/
theorem overlay_regionStart (f : Nat → UInt8) (offset size : Word) (bs : Bytes) :
    overlay f (regionStart offset size) (bs.take size.toNat)
      = overlay f offset.toNat (bs.take size.toNat) := by
  unfold regionStart
  split_ifs with hzero
  · rw [hzero, show (0 : Word).toNat = 0 from rfl, List.take_zero, overlay_nil, overlay_nil]
  · rfl

/-! ### One turn -/

/-- **What a turn does to memory**: it writes what it writes, and grows it to what it touches. -/
theorem Performed.memory {env : Setting} {body : Exec Exit} {op : Opcode} {m mid m₁ m' : Machine}
    {ws : List Word} {ctl : Control} {below : Option FrameResult} {exit : Option Exit}
    (h : Performed env op m ws mid ctl m₁) (h' : Concludes env body m₁ ctl below exit m') :
    m'.frame.memory.byte = overlay? m.frame.memory.byte (op.written? m.frame below ws) ∧
      m'.frame.memory.size = mid.frame.memory.size := by
  have hacts := h.acts
  obtain ⟨hnone, hsame⟩ | ⟨offset, bs, hsome, rfl, hwrite, -⟩ := hacts.stored
  · rw [h.ready.stored?_eq] at hnone
    have hbyte : m₁.frame.memory.byte = m.frame.memory.byte := by
      rw [hsame, h.ready.memory.byte]
    have hsize : m₁.frame.memory.size = mid.frame.memory.size := by rw [hsame]
    cases h' with
    | exit | jumped | next =>
      rw [Opcode.written?_of_none hnone]
      exact ⟨hbyte, hsize⟩
    | create answer pushed =>
      cases hacts
      exact ⟨hbyte, hsize⟩
    | call answer written pushed =>
      have hover := (Memory.byte_write written).1
      have hkept := Memory.size_write written
      cases hacts
      refine ⟨?_, hkept⟩
      rw [overlay_regionStart, hbyte] at hover
      exact hover
  · rw [h.ready.stored?_eq] at hsome
    cases h'
    rw [Opcode.written?_of_stored hsome]
    refine ⟨?_, Memory.size_write hwrite⟩
    have hover := (Memory.byte_write hwrite).1
    rw [h.ready.memory.byte] at hover
    exact hover

namespace Exec

variable {env : Setting} {body : Exec Exit} {byte : UInt8} {m m' : Machine} {exit : Option Exit}

theorem turn_memory (h : turn env body byte m = .ok exit m') :
    m'.frame.memory.byte = overlay? m.frame.memory.byte
        ((Opcode.ofByte byte).written? m.frame (below env body byte m)
          (m.frame.stack.words.take (Opcode.ofByte byte).takes)) ∧
      m.frame.memory.size ≤ m'.frame.memory.size ∧
      (32 ∣ m.frame.memory.size → 32 ∣ m'.frame.memory.size) ∧
      ∀ region ∈ (Opcode.ofByte byte).regions
          (m.frame.stack.words.take (Opcode.ofByte byte).takes),
        m'.frame.memory.Covers region := by
  obtain ⟨ctl, m₁, hstep, hconcludes⟩ := (turn_meets env body byte m).of_ok h
  obtain ⟨ws, mid, hperformed⟩ := (step_performs_acts env byte m).of_ok hstep
  obtain ⟨hbyte, hsize⟩ := hperformed.memory hconcludes
  rw [← hperformed.operands.1, hsize]
  exact ⟨hbyte, hperformed.ready.memory.size, hperformed.ready.memory.words,
    fun region hregion => (hperformed.covered region hregion).of_le hsize.ge⟩

/-! ### Any number of turns -/

/-- **The memory is the map of what has been written to it**: after turns that have started without
memory, each byte is the one that was written last, the size is a number of whole words, and all
that has been touched is there. -/
theorem Ran.memory {m₀ : Machine} {past : List Taken} (h : Ran env m₀ past m)
    (hempty : m₀.frame.memory = .empty) :
    m.frame.memory.byte = Memory.lastWritten (past.filterMap (Taken.write? env)) ∧
      32 ∣ m.frame.memory.size ∧
      ∀ t ∈ past, t.machine.frame.memory.size ≤ m.frame.memory.size ∧
        ∀ region ∈ t.regions, m.frame.memory.Covers region := by
  induction h with
  | here =>
    rw [hempty]
    exact ⟨rfl, Nat.dvd_zero 32, nofun⟩
  | @turn past m₁ m₂ byte steps before next hturn ih =>
    obtain ⟨hbyte, hwords, hpast⟩ := ih
    obtain ⟨hover, hsize, hwords', hcovers⟩ := turn_memory hturn
    refine ⟨?_, hwords' hwords, ?_⟩
    · rw [hover, hbyte, List.filterMap_cons]
      show overlay? _ (Taken.write? env ⟨m₁, byte, steps⟩) = _
      cases Taken.write? env ⟨m₁, byte, steps⟩ with
      | none => rfl
      | some write => exact (Memory.lastWritten_cons _ _ _).symm
    · refine List.forall_mem_cons.2 ⟨⟨hsize, hcovers⟩, fun t ht => ?_⟩
      obtain ⟨hbefore, hregions⟩ := hpast t ht
      exact ⟨hbefore.trans hsize, fun region hregion => (hregions region hregion).of_le hsize⟩

end Exec

/-! ### Reading -/

/-- **What an instruction reads of memory**, if `bytes` is what is there: the word that it puts on
the stack is spelled by its bytes, or is their hash; and they are the data of its log, the output of
the frame, the code of the contract that it asks for or the input of the call. -/
def Opcode.Reads (bytes : Nat → UInt8) (m : Machine) (ctl : Control) (m' : Machine) :
    Opcode → List Word → Prop
  | mload, [offset] => ∃ w, m'.frame.stack.top? = some w ∧
    bigEndian 32 w.toNat = stretch bytes offset.toNat 32
  | keccak256, [offset, size] => m'.frame.stack.top? =
    some (Hash.digest (stretch bytes offset.toNat size.toNat)).bits
  | log _, offset :: size :: topics => m'.world.view = m.world.view.addLog
    ⟨m.frame.address, topics.map fun w => ⟨w⟩, stretch bytes offset.toNat size.toNat⟩
  | ret, [offset, size] => ctl = .exit (.returned (stretch bytes offset.toNat size.toNat))
  | revert, [offset, size] => ctl = .exit (.reverted (stretch bytes offset.toNat size.toNat))
  | create, [_, offset, size] => ∀ c, ctl = .create c →
    c.initCode = stretch bytes offset.toNat size.toNat
  | call, [_, _, _, offset, size, _, _] => ∀ c outOffset outSize, ctl = .call c outOffset outSize →
    c.input = stretch bytes offset.toNat size.toNat
  | _, _ => True

/-- An instruction reads what is there. -/
theorem Performed.reads {env : Setting} {op : Opcode} {m mid m' : Machine} {ws : List Word}
    {ctl : Control} (h : Performed env op m ws mid ctl m') :
    op.Reads m.frame.memory.byte m ctl m' ws := by
  have hbyte := h.ready.memory.byte
  have hacts := h.acts
  unfold Opcode.Reads
  split
  · rename_i offset
    obtain ⟨-, hwords⟩ := hacts.word rfl
    refine ⟨_, congrArg List.head? hwords, ?_⟩
    rw [hbyte]
    exact ((bytesWord_eq_iff (length_stretch _ _ _) _).1 rfl).symm
  · rename_i offset size
    obtain ⟨-, hwords⟩ := hacts.word rfl
    rw [← hbyte]
    exact congrArg List.head? hwords
  · rename_i topicCount offset size topics
    cases hacts with
    | leaves =>
      rw [← hbyte, ← h.ready.view, congrArg Frame.address h.ready.frame]
      rfl
    | _ => simp_all [Opcode.word?, Opcode.stored?]
  · rename_i offset size
    cases hacts with
    | returns => rw [hbyte]
    | _ => simp_all [Opcode.word?, Opcode.stored?]
  · rename_i offset size
    cases hacts with
    | reverts => rw [hbyte]
    | _ => simp_all [Opcode.word?, Opcode.stored?]
  · rename_i value offset size
    rintro c rfl
    cases hacts with
    | creates creator initCode amount depth => rw [initCode, hbyte]
  · rename_i wanted target value offset size outOffset outSize
    rintro c start length rfl
    cases hacts with
    | calls caller address input amount depth => rw [input, hbyte]
  · trivial

open Exec in
/-- **Memory is a map of bytes, zero at first.** Every frame, called or creating, starts without
memory, and each iteration of its run starts where turns of that run have led. Wherever turns lead
from a machine without memory, each byte is the one that has been written there last, or zero; the
size of memory is a number of whole words and has never been larger, and all regions that were
touched are there. The next instruction, if it does not fail, reads what was last written, words
with their most significant byte first; it does not shrink memory, and the regions that it touches
are there. -/
theorem memory_is_byte_map :
    (∀ env w m, ((∃ c : Call, c.Starts env w m) ∨ ∃ c : Creation, c.Starts env w m) →
      m.frame.memory = .empty) ∧
    (∀ env steps m, ∀ m' ∈ (traced env steps m).1, ∃ past, Ran env m past m') ∧
    (∀ env m₀ past m, m₀.frame.memory = .empty → Ran env m₀ past m →
      (∀ i, m.frame.memory.byte i = Memory.lastWritten (past.filterMap (Taken.write? env)) i) ∧
      32 ∣ m.frame.memory.size ∧
      (∀ t ∈ past, t.machine.frame.memory.size ≤ m.frame.memory.size ∧
        ∀ region ∈ t.regions, m.frame.memory.Covers region) ∧
      ∀ byte ctl m', step env byte m = .ok ctl m' →
        (Opcode.ofByte byte).Reads (Memory.lastWritten (past.filterMap (Taken.write? env))) m ctl m'
          (m.frame.stack.words.take (Opcode.ofByte byte).takes) ∧
        m.frame.memory.size ≤ m'.frame.memory.size ∧ 32 ∣ m'.frame.memory.size ∧
        ∀ region ∈ (Opcode.ofByte byte).regions
            (m.frame.stack.words.take (Opcode.ofByte byte).takes),
          m'.frame.memory.Covers region) ∧
    ∀ (w : Word) (k : Nat), k < 32 →
      (bigEndian 32 w.toNat)[k]? = some (UInt8.ofNat (w.toNat / 256 ^ (31 - k))) := by
  refine ⟨?_, fun env steps m m' hm' => traced_ran .here hm', fun env m₀ past m hempty hran => ?_,
    fun w k hk => getElem?_bigEndian hk _⟩
  · rintro env w m (⟨c, hc⟩ | ⟨c, hc⟩)
    · exact hc.blank.memory
    · exact hc.blank.memory
  · obtain ⟨hbyte, hwords, hpast⟩ := hran.memory hempty
    refine ⟨congrFun hbyte, hwords, hpast, fun byte ctl m' hstep => ?_⟩
    obtain ⟨ws, mid, hperformed⟩ := (step_performs_acts env byte m).of_ok hstep
    have hsize : m'.frame.memory.size = mid.frame.memory.size := by
      obtain ⟨-, hsame⟩ | ⟨_, _, -, -, hwrite, -⟩ := hperformed.acts.stored
      · rw [hsame]
      · exact Memory.size_write hwrite
    rw [← hperformed.operands.1, ← hbyte, hsize]
    exact ⟨hperformed.reads, hperformed.ready.memory.size, hperformed.ready.memory.words hwords,
      fun region hregion => (hperformed.covered region hregion).of_le hsize.ge⟩

/-! ### Writes that overlap -/

namespace OverlappingWrites

/-- Writes a byte and a word over it, and reads a word that lies across the end of that one. -/
def code : Bytes := [0x60, 0xff, 0x60, 5, 0x53, 0x61, 1, 2, 0x60, 0, 0x52, 0x60, 16, 0x51]

/-- The account `2` has the code. -/
def env : Setting := ⟨.standard, .ofHeader .genesis ⟨1⟩ 1000, Store.empty.putCode ⟨2⟩ code⟩

/-- Nothing has been changed or counted. -/
def world : World := ⟨.fresh, .untracked⟩

/-- A call of the account. -/
def request : Call := ⟨⟨1⟩, ⟨2⟩, [], 1000, 0, 0⟩

/-- The stack of a machine, the one behind an `MLOAD` there, and the size of memory behind it. -/
def readFrom (m : Machine) : Option (List Word × List Word × Nat) :=
  match Exec.step env 0x51 m with
  | .ok .next m' => some (m.frame.stack.words, m'.frame.stack.words, m'.frame.memory.size)
  | _ => none

end OverlappingWrites

open OverlappingWrites Exec in
/-- The word that is read back has the second half of the word that was written last, and zeros
where nothing was written. -/
theorem memory_is_byte_map_overlapping : ∃ m, request.Starts env world m ∧
    ∃ m' ∈ (traced env 9 m).1, ∃ past, Ran env m past m' ∧
    ∃ m'', step env 0x51 m' = .ok .next m'' ∧ m''.frame.memory.size = 64 ∧
      m''.frame.stack.words = [(0x0102 : Word) <<< 128] ∧
      stretch (Memory.lastWritten (past.filterMap (Taken.write? env))) 16 32 =
        List.replicate 14 0 ++ [1, 2] ++ List.replicate 16 0 := by
  have hread : (request.start? env world).bind (fun m => (traced env 9 m).1[7]?.bind readFrom)
      = some (([16] : List Word), [(0x0102 : Word) <<< 128], 64) := by decide +kernel
  obtain ⟨starts, iterations, turns, -⟩ := memory_is_byte_map
  obtain ⟨m, hm, hread⟩ := Option.bind_eq_some_iff.1 hread
  obtain ⟨m', hm', hread⟩ := Option.bind_eq_some_iff.1 hread
  have hstarts := Call.starts_of_start? hm
  have hmem := List.mem_of_getElem? hm'
  obtain ⟨past, hran⟩ := iterations env 9 m m' hmem
  obtain ⟨-, -, -, next⟩ := turns env m past m' (starts env world m (.inl ⟨_, hstarts⟩)) hran
  unfold readFrom at hread
  split at hread
  · rename_i m'' hstep
    obtain ⟨hwords, hrest⟩ := Prod.mk.inj (Option.some.inj hread)
    obtain ⟨hwords', hsize⟩ := Prod.mk.inj hrest
    obtain ⟨hreads, -⟩ := next 0x51 .next m'' hstep
    rw [hwords] at hreads
    obtain ⟨w, htop, hspells⟩ := hreads
    rw [Stack.top?, hwords'] at htop
    obtain rfl := Option.some.inj htop
    exact ⟨m, hstarts, m', hmem, past, hran, m'', hstep, hsize, hwords',
      hspells.symm.trans (by decide +kernel)⟩
  · cases hread

end MeteredLedger
