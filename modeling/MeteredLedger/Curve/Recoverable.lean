import MeteredLedger.Curve.Secp256k1
import MeteredLedger.Hashing.Sha256

/-!
# Recoverable signatures

A signature of a 32-byte digest carries, beside its two numbers, which of up to
four points its first number came from, so that the public key can be computed
from the signature and the digest (`recover?`). Signing is deterministic: the
secret multiplier comes from a keyed hash of the secret key and the digest
(RFC 6979), and of the two values that the second number can take the lower one
is chosen.
-/

namespace MeteredLedger.Recoverable

open Secp256k1

/-- A signature with its recovery number. -/
structure Compact where
  /-- The first number: the coordinate of a point, reduced. -/
  r : Nat
  /-- The second number. -/
  s : Nat
  /-- Which point `r` came from: the parity of its other coordinate, plus two if
  the reduction took something away. -/
  recovery : Nat
  deriving DecidableEq, Repr

/-- The number of a secret key: 32 bytes that spell a number from one up to the
order of the curve. -/
def secret? (key : Bytes) : Option Nat :=
  let k := Bytes.ofBigEndian key
  if key.length = 32 ∧ 0 < k ∧ k < order then some k else none

/-- The public key of a secret one. -/
def publicKey (secret : Nat) : Point := generator.multiply secret

/-! ### Candidates for the secret multiplier -/

/-- The two values that a generator of candidates carries along. -/
structure Candidates where
  key : Bytes
  value : Bytes

/-- Stirs bytes into a generator. -/
def Candidates.stir (c : Candidates) (tag : UInt8) (bytes : Bytes) : Candidates :=
  let key := Sha256.keyed c.key (c.value ++ tag :: bytes)
  ⟨key, Sha256.keyed key c.value⟩

/-- The generator for a secret key and a digest. -/
def Candidates.start (secret : Nat) (digest : Bytes) : Candidates :=
  let seed := Bytes.bigEndian 32 secret ++ digest
  let fresh : Candidates := ⟨List.replicate 32 0, List.replicate 32 1⟩
  (fresh.stir 0 seed).stir 1 seed

/-- The current candidate. -/
def Candidates.next (c : Candidates) : Nat × Candidates :=
  let value := Sha256.keyed c.key c.value
  (Bytes.ofBigEndian value, ⟨c.key, value⟩)

/-! ### Signing and recovering -/

/-- The signature made with the multiplier `k`, if `k` is fit for one. -/
def signWith? (secret digest k : Nat) : Option Compact :=
  if k = 0 ∨ order ≤ k then none
  else match generator.multiply k with
    | .infinity => none
    | .affine x y =>
      let r := x % order
      let s := Modular.inverse order k * ((digest + r * secret) % order) % order
      if r = 0 ∨ s = 0 then none
      else
        let recovery := (if order ≤ x then 2 else 0) + y % 2
        if order / 2 < s then some ⟨r, order - s, recovery ^^^ 1⟩ else some ⟨r, s, recovery⟩

/-- The signature made with the first fit candidate, among so many. -/
def signFirst? (secret : Nat) (digest : Nat) : Nat → Candidates → Option Compact
  | 0, _ => none
  | tries + 1, c =>
    let (k, c) := c.next
    match signWith? secret digest k with
    | some signature => some signature
    | none => signFirst? secret digest tries (c.stir 0 [])

/-- The candidates that are tried; the first is fit but for a chance of about
one in `2 ^ 127`. -/
def attempts : Nat := 64

/-- The signature of a digest. -/
def sign? (secret : Nat) (digest : Bytes) : Option Compact :=
  signFirst? secret (Bytes.ofBigEndian digest) attempts (.start secret digest)

/-- The public key whose signature of the digest this is: with `R` the point
that `r` came from, `(s R - digest G) / r`. -/
def recover? (digest : Bytes) (c : Compact) : Option Point :=
  if c.r = 0 ∨ order ≤ c.r ∨ c.s = 0 ∨ order ≤ c.s then none
  else
    let x := c.r + (if c.recovery / 2 % 2 = 1 then order else 0)
    match Point.lift? x (decide (c.recovery % 2 = 1)) with
    | none => none
    | some R =>
      let i := Modular.inverse order c.r
      let a := c.s * i % order
      let b := Modular.sub order 0 (Bytes.ofBigEndian digest % order * i % order)
      match Point.combine a R b generator with
      | .infinity => none
      | Q => some Q

end MeteredLedger.Recoverable
