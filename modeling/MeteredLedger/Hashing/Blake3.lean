import MeteredLedger.Bytes
import MeteredLedger.Hashing.Chain

/-!
# BLAKE3

The tree hash over chunks of 1024 bytes, each chunk a chain of blocks of 64. A
subtree of more than one chunk splits so that its left part is the largest power
of two of chunks that leaves something on the right. Every node ends in one last
compression (`Node`), which yields eight words when the node hangs below another
and, with the root's mark, the 32 bytes of the hash when it does not.
-/

namespace MeteredLedger.Blake3

open Hashing

/-- Where each word of a block comes from in the next round. -/
def schedule : Vector (Fin 16) 16 := #v[2, 6, 3, 10, 7, 0, 4, 13, 1, 11, 12, 5, 9, 14, 15, 8]

/-- The flags that mark the uses of a compression. -/
inductive Mark where
  | chunkStart | chunkEnd | parent | root

/-- The bit of a flag. -/
def Mark.bit : Mark → UInt32
  | .chunkStart => 1
  | .chunkEnd => 2
  | .parent => 4
  | .root => 8

/-- Mixes two words of the message into four words of the state. -/
def quarter (v : BlockWords) (a b c d : Fin 16) (x y : UInt32) : BlockWords :=
  let va := v[a] + v[b] + x
  let vd := rotateRight (v[d] ^^^ va) 16
  let vc := v[c] + vd
  let vb := rotateRight (v[b] ^^^ vc) 12
  let va := va + vb + y
  let vd := rotateRight (vd ^^^ va) 8
  let vc := vc + vd
  let vb := rotateRight (vb ^^^ vc) 7
  (((v.set a va).set b vb).set c vc).set d vd

/-- One round: the columns, then the diagonals. -/
def round (v m : BlockWords) : BlockWords :=
  let v := quarter v 0 4 8 12 (m.get 0) (m.get 1)
  let v := quarter v 1 5 9 13 (m.get 2) (m.get 3)
  let v := quarter v 2 6 10 14 (m.get 4) (m.get 5)
  let v := quarter v 3 7 11 15 (m.get 6) (m.get 7)
  let v := quarter v 0 5 10 15 (m.get 8) (m.get 9)
  let v := quarter v 1 6 11 12 (m.get 10) (m.get 11)
  let v := quarter v 2 7 8 13 (m.get 12) (m.get 13)
  quarter v 3 4 9 14 (m.get 14) (m.get 15)

/-- Rounds, the words of the block in a new order before each but the first. -/
def rounds : Nat → BlockWords → BlockWords → BlockWords
  | 0, v, _ => v
  | n + 1, v, m => rounds n (round v m) (schedule.map fun i => m[i])

/-- Compresses a block of `length` bytes, number `counter`, into the chain. -/
def compress (chain : Chain) (block : BlockWords) (counter : UInt64) (length flags : UInt32) :
    Chain :=
  let start : BlockWords := chain ++ #v[
    initialChain.get 0, initialChain.get 1, initialChain.get 2, initialChain.get 3,
    counter.toUInt32, (counter >>> 32).toUInt32, length, flags]
  let v := rounds 7 start block
  Vector.ofFn fun i : Fin 8 => v[i.val] ^^^ v[i.val + 8]

/-- At most 64 bytes as sixteen words, lowest byte first, zeros behind the end. -/
def blockOfBytes (bytes : Bytes) : BlockWords :=
  let bytes := bytes.toArray
  Vector.ofFn fun i : Fin 16 =>
    (List.range 4).foldr (fun k n => n * 256 + (bytes.getD (4 * i.val + k) 0).toUInt32) 0

/-- The last compression of a node, not yet done. -/
structure Node where
  /-- The chain before it. -/
  chain : Chain
  /-- Its block. -/
  block : BlockWords
  /-- The number of the chunk; zero for a parent. -/
  counter : UInt64
  /-- The bytes of the block. -/
  length : UInt32
  /-- Its flags. -/
  flags : UInt32

/-- The chaining words that a node hands to the node above it. -/
def Node.close (n : Node) : Chain := compress n.chain n.block n.counter n.length n.flags

/-- The chaining words of a node that is the root. -/
def Node.closeAsRoot (n : Node) : Chain :=
  compress n.chain n.block 0 n.length (n.flags ||| Mark.root.bit)

/-- The node of a chunk, or of what is left of it behind blocks that made the
chain what it is. `flags` marks the first block. -/
def chunk (counter : UInt64) (chain : Chain) (flags : UInt32) (bytes : Bytes) : Node :=
  if _h : bytes.length ≤ 64 then
    ⟨chain, blockOfBytes bytes, counter, bytes.length.toUInt32, flags ||| Mark.chunkEnd.bit⟩
  else
    chunk counter (compress chain (blockOfBytes (bytes.take 64)) counter 64 flags) 0 (bytes.drop 64)
termination_by bytes.length
decreasing_by simp only [List.length_drop]; omega

/-- The node above two others. -/
def parent (left right : Chain) : Node :=
  ⟨initialChain, left ++ right, 0, 64, Mark.parent.bit⟩

/-- The bytes on the left of a subtree of `size` bytes, `size` above 1024: the
largest power of two of chunks with something left on the right. -/
def leftSize (size : Nat) : Nat := 1 <<< (size - 1).log2

theorem leftSize_lt {size : Nat} (h : 1024 < size) : leftSize size < size := by
  have := (Nat.le_log2 (by omega : size - 1 ≠ 0) (k := (size - 1).log2)).1 (Nat.le_refl _)
  rw [leftSize, Nat.one_shiftLeft]
  omega

theorem leftSize_pos (size : Nat) : 0 < leftSize size := by
  rw [leftSize, Nat.one_shiftLeft]
  exact Nat.two_pow_pos _

/-- The node of a subtree whose first chunk has the number `counter`. -/
def subtree (counter : Nat) (bytes : Bytes) : Node :=
  if _h : bytes.length ≤ 1024 then
    chunk counter.toUInt64 initialChain Mark.chunkStart.bit bytes
  else
    let left := leftSize bytes.length
    parent (subtree counter (bytes.take left)).close
      (subtree (counter + left / 1024) (bytes.drop left)).close
termination_by bytes.length
decreasing_by
  all_goals
    have h₁ := @leftSize_lt bytes.length (by omega)
    have h₂ := leftSize_pos bytes.length
    simp only [List.length_take, List.length_drop]
    omega

/-- The BLAKE3 hash of a message, 32 bytes. -/
def hash (message : Bytes) : Bytes :=
  (subtree 0 message).closeAsRoot.toList.flatMap fun word => Bytes.littleEndian 4 word.toNat

end MeteredLedger.Blake3
