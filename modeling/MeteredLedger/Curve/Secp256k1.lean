import MeteredLedger.Curve.Modular

/-!
# The curve secp256k1

The points of `y² = x³ + 7` over the field of `fieldPrime` elements, a group of
`order` elements generated by `generator`. Sums are computed on projective
triples (`Triple`): `(x, y, z)` stands for the point `(x / z², y / z³)`, and
`z = 0` for the neutral element.
-/

namespace MeteredLedger.Secp256k1

/-- The number of elements of the field. -/
def fieldPrime : Nat := 0xfffffffffffffffffffffffffffffffffffffffffffffffffffffffefffffc2f

/-- The number of points, a prime. -/
def order : Nat := 0xfffffffffffffffffffffffffffffffebaaedce6af48a03bbfd25e8cd0364141

/-- A point of the curve. -/
inductive Point where
  /-- The neutral element. -/
  | infinity
  /-- The point with these coordinates. -/
  | affine (x y : Nat)
  deriving DecidableEq, Repr

/-- The point whose multiples are all points. -/
def generator : Point := .affine
  0x79be667ef9dcbbac55a06295ce870b07029bfcdb2dce28d959f2815b16f81798
  0x483ada7726a3c4655da4fbfc0e1108a8fd17b448a68554199c47d08ffb10d4b8

/-- A point in projective coordinates. -/
structure Triple where
  x : Nat
  y : Nat
  z : Nat

namespace Triple

/-- The neutral element. -/
def infinity : Triple := ⟨1, 1, 0⟩

/-- A point as a triple. -/
def ofPoint : Point → Triple
  | .infinity => infinity
  | .affine x y => ⟨x, y, 1⟩

/-- The point that a triple stands for. -/
def toPoint (t : Triple) : Point :=
  if t.z % fieldPrime = 0 then .infinity
  else
    let i := Modular.inverse fieldPrime t.z
    let i₂ := i * i % fieldPrime
    .affine (t.x * i₂ % fieldPrime) (t.y * (i₂ * i % fieldPrime) % fieldPrime)

/-- Twice a point. -/
def double (t : Triple) : Triple :=
  if t.y = 0 ∨ t.z = 0 then infinity
  else
    let p := fieldPrime
    let yy := t.y * t.y % p
    let s := 4 * t.x * yy % p
    let m := 3 * t.x * t.x % p
    let x := Modular.sub p (m * m % p) (2 * s % p)
    let y := Modular.sub p (m * Modular.sub p s x % p) (8 * yy * yy % p)
    ⟨x, y, 2 * t.y * t.z % p⟩

/-- The sum of two points. -/
def add (s t : Triple) : Triple :=
  if s.z = 0 then t
  else if t.z = 0 then s
  else
    let p := fieldPrime
    let szz := s.z * s.z % p
    let tzz := t.z * t.z % p
    let u₁ := s.x * tzz % p
    let u₂ := t.x * szz % p
    let s₁ := s.y * tzz * t.z % p
    let s₂ := t.y * szz * s.z % p
    if u₁ = u₂ then
      if s₁ = s₂ then double s else infinity
    else
      let h := Modular.sub p u₂ u₁
      let r := Modular.sub p s₂ s₁
      let hh := h * h % p
      let hhh := h * hh % p
      let v := u₁ * hh % p
      let x := Modular.sub p (Modular.sub p (r * r % p) hhh) (2 * v % p)
      let y := Modular.sub p (r * Modular.sub p v x % p) (s₁ * hhh % p)
      ⟨x, y, h * s.z % p * t.z % p⟩

/-- `k` times a point, by doubling. -/
def multiply (k : Nat) (t : Triple) : Triple :=
  if _h : k = 0 then infinity
  else
    let half := double (multiply (k / 2) t)
    if k % 2 = 1 then add half t else half
termination_by k

end Triple

/-- `a` times `P` plus `b` times `Q`. -/
def Point.combine (a : Nat) (P : Point) (b : Nat) (Q : Point) : Point :=
  (Triple.add (Triple.multiply a (.ofPoint P)) (Triple.multiply b (.ofPoint Q))).toPoint

/-- `k` times a point. -/
def Point.multiply (k : Nat) (P : Point) : Point := (Triple.multiply k (.ofPoint P)).toPoint

/-- The point with the coordinate `x` whose other coordinate is odd or even as
asked, if there is one. -/
def Point.lift? (x : Nat) (odd : Bool) : Option Point :=
  if x < fieldPrime then
    match Modular.sqrt? fieldPrime (x * x * x + 7) with
    | none => none
    | some y =>
      some (.affine x (if decide (y % 2 = 1) = odd then y else Modular.sub fieldPrime 0 y))
  else none

end MeteredLedger.Secp256k1
