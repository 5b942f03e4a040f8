import MeteredLedger.Bytes

/-!
# Keccak-256

The sponge over 25 lanes of 64 bits that absorbs 136 bytes at a time and yields
32. The lane at column `x` and row `y` is at index `x + 5 * y`. A message is
closed by a byte `0x01`, zeros, and a set top bit in the last byte of its last
block.
-/

namespace MeteredLedger.Keccak256

/-- The sponge: 25 lanes. -/
abbrev Sponge := Vector UInt64 25

/-- How far each lane turns in a round. -/
def rotations : Vector UInt64 25 := #v[
  0, 1, 62, 28, 27,
  36, 44, 6, 55, 20,
  3, 10, 43, 25, 39,
  41, 45, 15, 21, 8,
  18, 2, 61, 56, 14]

/-- What each round adds to the first lane. -/
def roundConstants : List UInt64 := [
  0x0000000000000001, 0x0000000000008082, 0x800000000000808a, 0x8000000080008000,
  0x000000000000808b, 0x0000000080000001, 0x8000000080008081, 0x8000000000008009,
  0x000000000000008a, 0x0000000000000088, 0x0000000080008009, 0x000000008000000a,
  0x000000008000808b, 0x800000000000008b, 0x8000000000008089, 0x8000000000008003,
  0x8000000000008002, 0x8000000000000080, 0x000000000000800a, 0x800000008000000a,
  0x8000000080008081, 0x8000000000008080, 0x0000000080000001, 0x8000000080008008]

/-- A lane turned left by `n` bits, `n` below 64. -/
def rotateLeft (lane n : UInt64) : UInt64 :=
  if n = 0 then lane else lane <<< n ||| lane >>> (64 - n)

/-- The lane of column `x` and row `y`, both taken modulo five. -/
def Sponge.lane (s : Sponge) (x y : Nat) : UInt64 := s[x % 5 + 5 * (y % 5)]

/-- Adds to each lane the parities of two neighbouring columns. -/
def mixColumns (s : Sponge) : Sponge :=
  let parity := Vector.ofFn fun x : Fin 5 =>
    s.lane x 0 ^^^ s.lane x 1 ^^^ s.lane x 2 ^^^ s.lane x 3 ^^^ s.lane x 4
  let change := Vector.ofFn fun x : Fin 5 =>
    parity[(x.val + 4) % 5] ^^^ rotateLeft parity[(x.val + 1) % 5] 1
  Vector.ofFn fun i : Fin 25 => s[i] ^^^ change[i.val % 5]

/-- Turns each lane and moves it to its new place. -/
def turnAndMove (s : Sponge) : Sponge :=
  let turned := Vector.ofFn fun i : Fin 25 => rotateLeft s[i] rotations[i]
  Vector.ofFn fun i : Fin 25 =>
    let x := i.val % 5
    let y := i.val / 5
    Sponge.lane turned (x + 3 * y) x

/-- The only step that is not linear, row by row. -/
def mixRows (s : Sponge) : Sponge :=
  Vector.ofFn fun i : Fin 25 =>
    let x := i.val % 5
    let y := i.val / 5
    s[i] ^^^ (~~~ s.lane (x + 1) y &&& s.lane (x + 2) y)

/-- One round. -/
def round (s : Sponge) (constant : UInt64) : Sponge :=
  let s := mixRows (turnAndMove (mixColumns s))
  s.set 0 (s[0] ^^^ constant)

/-- The permutation of the sponge: 24 rounds. -/
def permute (s : Sponge) : Sponge := roundConstants.foldl round s

/-- The bytes absorbed at a time. -/
def rate : Nat := 136

/-- Adds a block of `rate` bytes to the sponge, lowest lane and byte first. -/
def addBlock (s : Sponge) (block : Bytes) : Sponge :=
  let bytes := block.toArray
  Vector.ofFn fun i : Fin 25 =>
    let word := (List.range 8).foldr
      (fun k n => n * 256 + (bytes.getD (8 * i.val + k) 0).toUInt64) 0
    s[i] ^^^ word

/-- The last block of a message, which ends with `rest`, shorter than a block. -/
def padBlock (rest : Bytes) : Bytes :=
  if rest.length + 1 = rate then rest ++ [0x81]
  else rest ++ [0x01] ++ List.replicate (rate - 2 - rest.length) 0 ++ [0x80]

/-- Absorbs a message, with its padding. What is shorter than a block is the end
of the message. -/
def absorb (s : Sponge) (message : Bytes) : Sponge :=
  if _h : message.drop (rate - 1) = [] then permute (addBlock s (padBlock message))
  else absorb (permute (addBlock s (message.take rate))) (message.drop rate)
termination_by message.length
decreasing_by simp only [List.drop_eq_nil_iff, List.length_drop, rate] at *; omega

/-- The Keccak-256 hash of a message, 32 bytes. -/
def hash (message : Bytes) : Bytes :=
  let s := absorb (Vector.replicate 25 0) message
  (List.range 4).flatMap fun i => Bytes.littleEndian 8 (s.lane i 0).toNat

end MeteredLedger.Keccak256
