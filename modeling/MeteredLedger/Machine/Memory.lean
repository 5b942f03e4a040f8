import MeteredLedger.Fault
import MeteredLedger.Bytes
import MeteredLedger.Params

/-!
# Memory

The memory of a frame is a string of bytes that grows by words of 32, the new
ones zero. It must be grown before it is touched: what reaches outside of it is a
fault. A frame pays for the size of its memory, once: growing it costs the
difference between what the sizes cost, and a size costs a linear and a quadratic
part (`Memory.cost`).
-/

namespace MeteredLedger

/-- The bytes of an array from `start` on, `size` of them, zeros where the array
has ended. -/
def zeroExtended (source : Array UInt8) (start size : Nat) : Bytes :=
  let start := min start source.size
  let here := source.extract start (start + size)
  here.toList ++ List.replicate (size - here.size) 0

@[simp] theorem length_zeroExtended (source : Array UInt8) (start size : Nat) :
    (zeroExtended source start size).length = size := by
  unfold zeroExtended
  simp only [List.length_append, Array.length_toList, List.length_replicate, Array.size_extract]
  omega

/-- The memory of a frame. -/
structure Memory where
  /-- Its bytes. -/
  bytes : Array UInt8

namespace Memory

/-- The memory of a new frame. -/
def empty : Memory := ⟨#[]⟩

instance : Inhabited Memory := ⟨empty⟩

/-- The size in bytes. -/
def size (m : Memory) : Nat := m.bytes.size

/-! ### Growing -/

/-- The words that hold so many bytes. -/
def wordsFor (size : Nat) : Nat := (size + 31) / 32

/-- What a memory of so many words costs. -/
def cost (costs : EffectCosts) (words : Nat) : Gas :=
  let words := gasOfNat words
  let square := mulGasCapped words words
  addGasCapped (mulGasCapped words costs.memory)
    (square / (if costs.quadCoeffDiv = 0 then 1 else costs.quadCoeffDiv))

/-- What it costs to grow a memory of `current` bytes to `limit` bytes. -/
def growthCost (costs : EffectCosts) (current limit : Nat) : Except Fault Gas :=
  if wordsFor limit ≤ wordsFor current then .ok 0
  else
    let before := cost costs (wordsFor current)
    let after := cost costs (wordsFor limit)
    if before ≤ after then .ok (after - before) else .error .memoryCostFell

/-- The most bytes that can be addressed. -/
def addressable : Nat := 0x7fffffffffffffff

/-- The memory with at least `limit` bytes. -/
def grow (m : Memory) (limit : Nat) : Except Fault Memory :=
  let size := 32 * wordsFor limit
  if size ≤ addressable then .ok ⟨m.bytes ++ Array.replicate (size - m.bytes.size) 0⟩
  else .error .memoryTooLarge

/-! ### Reading and writing -/

/-- `size` bytes from `offset` on. No bytes can be read anywhere. -/
def read (m : Memory) (offset size : Nat) : Except Fault Bytes :=
  if size = 0 then .ok []
  else if offset + size ≤ m.bytes.size then .ok (m.bytes.extract offset (offset + size)).toList
  else .error .outOfBounds

/-- Puts bytes into an array from an index on, as far as it reaches. -/
def place (bytes : Array UInt8) (offset : Nat) : Bytes → Array UInt8
  | [] => bytes
  | b :: bs => place (bytes.setIfInBounds offset b) (offset + 1) bs

/-- Writes bytes from `offset` on. No bytes can be written anywhere. -/
def write (m : Memory) (offset : Nat) (bs : Bytes) : Except Fault Memory :=
  if bs.isEmpty then .ok m
  else if offset + bs.length ≤ m.bytes.size then .ok ⟨place m.bytes offset bs⟩
  else .error .outOfBounds

/-- Writes `size` bytes from `offset` on: those of `source` from `start` on, and
zeros where it has ended. No bytes can be written anywhere. -/
def writePadded (m : Memory) (offset : Nat) (source : Array UInt8) (start size : Nat) :
    Except Fault Memory :=
  if size = 0 then .ok m
  else if offset + size ≤ m.bytes.size then
    .ok ⟨place m.bytes offset (zeroExtended source start size)⟩
  else .error .outOfBounds

theorem writePadded_eq_write (m : Memory) (offset : Nat) (source : Array UInt8)
    (start size : Nat) :
    m.writePadded offset source start size = m.write offset (zeroExtended source start size) := by
  have hempty : (zeroExtended source start size).isEmpty = true ↔ size = 0 := by
    rw [List.isEmpty_iff_length_eq_zero, length_zeroExtended]
  simp only [writePadded, write, hempty, length_zeroExtended]

/-- The word of the 32 bytes from `offset` on, the most significant first. -/
def readWord (m : Memory) (offset : Nat) : Except Fault Word :=
  match m.read offset 32 with
  | .ok bs => .ok (BitVec.ofNat 256 (Bytes.ofBigEndian bs))
  | .error f => .error f

/-- Writes the 32 bytes of a word, the most significant first. -/
def writeWord (m : Memory) (offset : Nat) (w : Word) : Except Fault Memory :=
  m.write offset (Bytes.bigEndian 32 w.toNat)

/-- Writes a byte. -/
def writeByte (m : Memory) (offset : Nat) (b : UInt8) : Except Fault Memory :=
  m.write offset [b]

end Memory

end MeteredLedger
