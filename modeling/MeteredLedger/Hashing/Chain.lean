/-!
# Chaining words

What SHA-256 and BLAKE3 have in common: a message is compressed block by block
into eight chaining words of 32 bits. Both start from the same words, the first
bits of the fractional parts of the square roots of the first eight primes.
-/

namespace MeteredLedger.Hashing

/-- Eight chaining words. -/
abbrev Chain := Vector UInt32 8

/-- The sixteen words of a block. -/
abbrev BlockWords := Vector UInt32 16

/-- The chaining words that a message starts from. -/
def initialChain : Chain := #v[
  0x6a09e667, 0xbb67ae85, 0x3c6ef372, 0xa54ff53a, 0x510e527f, 0x9b05688c, 0x1f83d9ab, 0x5be0cd19]

/-- A word turned right by `n` bits, `n` between 1 and 31. -/
def rotateRight (word n : UInt32) : UInt32 := word >>> n ||| word <<< (32 - n)

end MeteredLedger.Hashing
