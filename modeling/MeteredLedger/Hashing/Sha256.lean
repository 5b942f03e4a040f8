import MeteredLedger.Bytes
import MeteredLedger.Hashing.Chain

/-!
# SHA-256 and its keyed form

`hash` is SHA-256; `keyed` is the keyed hash built from two passes of it (HMAC),
for keys of at most one block.
-/

namespace MeteredLedger.Sha256

open Hashing

/-- What each round adds. -/
def roundConstants : List UInt32 := [
  0x428a2f98, 0x71374491, 0xb5c0fbcf, 0xe9b5dba5, 0x3956c25b, 0x59f111f1, 0x923f82a4, 0xab1c5ed5,
  0xd807aa98, 0x12835b01, 0x243185be, 0x550c7dc3, 0x72be5d74, 0x80deb1fe, 0x9bdc06a7, 0xc19bf174,
  0xe49b69c1, 0xefbe4786, 0x0fc19dc6, 0x240ca1cc, 0x2de92c6f, 0x4a7484aa, 0x5cb0a9dc, 0x76f988da,
  0x983e5152, 0xa831c66d, 0xb00327c8, 0xbf597fc7, 0xc6e00bf3, 0xd5a79147, 0x06ca6351, 0x14292967,
  0x27b70a85, 0x2e1b2138, 0x4d2c6dfc, 0x53380d13, 0x650a7354, 0x766a0abb, 0x81c2c92e, 0x92722c85,
  0xa2bfe8a1, 0xa81a664b, 0xc24b8b70, 0xc76c51a3, 0xd192e819, 0xd6990624, 0xf40e3585, 0x106aa070,
  0x19a4c116, 0x1e376c08, 0x2748774c, 0x34b0bcb5, 0x391c0cb3, 0x4ed8aa4a, 0x5b9cca4f, 0x682e6ff3,
  0x748f82ee, 0x78a5636f, 0x84c87814, 0x8cc70208, 0x90befffa, 0xa4506ceb, 0xbef9a3f7, 0xc67178f2]

/-- The word that follows sixteen words of the message schedule. -/
def nextWord (words : List UInt32) : UInt32 :=
  let x := words.getD 1 0
  let y := words.getD 14 0
  let s₀ := rotateRight x 7 ^^^ rotateRight x 18 ^^^ x >>> 3
  let s₁ := rotateRight y 17 ^^^ rotateRight y 19 ^^^ y >>> 10
  words.getD 0 0 + s₀ + words.getD 9 0 + s₁

/-- So many words of the message schedule, from sixteen consecutive ones on. -/
def schedule : Nat → List UInt32 → List UInt32
  | 0, _ => []
  | n + 1, words => words.getD 0 0 :: schedule n (words.drop 1 ++ [nextWord words])

/-- All rounds, each with a word of the schedule and a constant. The eight words
are arguments of their own, so that a round is computed when it is reached. -/
def rounds (a b c d e f g h : UInt32) : List (UInt32 × UInt32) → Chain
  | [] => #v[a, b, c, d, e, f, g, h]
  | (word, constant) :: rest =>
    let s₁ := rotateRight e 6 ^^^ rotateRight e 11 ^^^ rotateRight e 25
    let choice := (e &&& f) ^^^ (~~~ e &&& g)
    let t₁ := h + s₁ + choice + constant + word
    let s₀ := rotateRight a 2 ^^^ rotateRight a 13 ^^^ rotateRight a 22
    let majority := (a &&& b) ^^^ (a &&& c) ^^^ (b &&& c)
    rounds (t₁ + s₀ + majority) a b c (d + t₁) e f g rest

/-- The words that bytes spell, four bytes each. -/
def wordsOf : Bytes → List UInt32
  | a :: b :: c :: d :: rest =>
    (((a.toUInt32 * 256 + b.toUInt32) * 256 + c.toUInt32) * 256 + d.toUInt32) :: wordsOf rest
  | _ => []

/-- Compresses a block of 64 bytes into the chain. -/
def compress (v : Chain) (block : Bytes) : Chain :=
  let words := schedule roundConstants.length (wordsOf block)
  Vector.zipWith (· + ·) v
    (rounds v[0] v[1] v[2] v[3] v[4] v[5] v[6] v[7] (words.zip roundConstants))

/-- A message with its padding: a set bit, zeros, and its length in bits. -/
def pad (message : Bytes) : Bytes :=
  let zeros := (119 - message.length % 64) % 64
  message ++ [0x80] ++ List.replicate zeros 0 ++ Bytes.bigEndian 8 (8 * message.length)

/-- Compresses a padded message block by block. -/
def compressAll (chain : Chain) (padded : Bytes) : Chain :=
  if _h : padded.drop 63 = [] then chain
  else compressAll (compress chain (padded.take 64)) (padded.drop 64)
termination_by padded.length
decreasing_by simp only [List.drop_eq_nil_iff, List.length_drop] at *; omega

/-- The SHA-256 hash of a message, 32 bytes. -/
def hash (message : Bytes) : Bytes :=
  (compressAll initialChain (pad message)).toList.flatMap fun word => Bytes.bigEndian 4 word.toNat

/-- The hash of a message under a key of at most 64 bytes. -/
def keyed (key message : Bytes) : Bytes :=
  let block := key ++ List.replicate (64 - key.length) 0
  hash (block.map (· ^^^ 0x5c) ++ hash (block.map (· ^^^ 0x36) ++ message))

end MeteredLedger.Sha256
