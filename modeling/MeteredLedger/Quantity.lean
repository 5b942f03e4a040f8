/-!
# Quantities

Gas, nonces, heights and times are counted in 64 bits, value in 128, and the
machine computes on words of 256. Sums that leave their range are refused
(`addGas?`, `addWei?`) or stop at the end of it (`addGasCapped` and its kin); which
of the two a rule wants is part of the rule.
-/

namespace MeteredLedger

/-- An amount of gas. -/
abbrev Gas := UInt64

/-- How many transactions an account has sent, or contracts it has created. -/
abbrev Nonce := UInt64

/-- The number of a block. -/
abbrev Height := UInt64

/-- Seconds. -/
abbrev Timestamp := UInt64

/-- An amount of value. -/
abbrev Wei := BitVec 128

/-- What the machine computes on. -/
abbrev Word := BitVec 256

/-- The largest amount of gas. -/
def maxGas : Gas := 0xffffffffffffffff

/-- The largest amount of value. -/
def maxWei : Wei := .allOnes 128

/-- The sum of two amounts of gas, if it is one. -/
def addGas? (a b : Gas) : Option Gas :=
  if a.toNat + b.toNat < UInt64.size then some (a + b) else none

/-- The sum of two amounts of gas, at most the largest. -/
def addGasCapped (a b : Gas) : Gas :=
  if a.toNat + b.toNat < UInt64.size then a + b else maxGas

/-- The product of two amounts of gas, at most the largest. -/
def mulGasCapped (a b : Gas) : Gas :=
  if a.toNat * b.toNat < UInt64.size then a * b else maxGas

/-- The difference of two amounts of gas, at least zero. -/
def subGasFloored (a b : Gas) : Gas := if b ≤ a then a - b else 0

/-- A count as an amount of gas, at most the largest. -/
def gasOfNat (n : Nat) : Gas := if n < UInt64.size then UInt64.ofNat n else maxGas

/-- The sum of two amounts of value, if it is one. -/
def addWei? (a b : Wei) : Option Wei :=
  if a ≤ maxWei - b then some (a + b) else none

theorem toNat_addGasCapped (a b : Gas) :
    (addGasCapped a b).toNat = min (a.toNat + b.toNat) maxGas.toNat := by
  have size : UInt64.size = maxGas.toNat + 1 := rfl
  unfold addGasCapped
  split
  · rw [UInt64.toNat_add, Nat.mod_eq_of_lt ‹_›]
    omega
  · omega

theorem toNat_mulGasCapped (a b : Gas) :
    (mulGasCapped a b).toNat = min (a.toNat * b.toNat) maxGas.toNat := by
  have size : UInt64.size = maxGas.toNat + 1 := rfl
  unfold mulGasCapped
  split
  · rw [UInt64.toNat_mul, Nat.mod_eq_of_lt ‹_›]
    omega
  · omega

theorem toNat_subGasFloored (a b : Gas) :
    (subGasFloored a b).toNat = a.toNat - b.toNat := by
  unfold subGasFloored
  split
  · rename_i h
    rw [UInt64.toNat_sub_of_le _ _ h]
  · rename_i h
    rw [UInt64.le_iff_toNat_le] at h
    simp only [UInt64.toNat_zero]
    omega

end MeteredLedger
