/-!
# Arithmetic modulo a number

Powers by squaring, and from them the inverse and the square root modulo a prime
(the root for primes that leave three when divided by four).
-/

namespace MeteredLedger.Modular

/-- `base ^ exponent` modulo `m`. -/
def pow (m base exponent : Nat) : Nat :=
  if _h : exponent = 0 then 1 % m
  else
    let half := pow m base (exponent / 2)
    let square := half * half % m
    if exponent % 2 = 1 then square * base % m else square
termination_by exponent

/-- The difference of two numbers below `m`, modulo `m`. -/
def sub (m a b : Nat) : Nat := (a + m - b) % m

/-- The inverse of `a` modulo a prime; zero for zero. -/
def inverse (prime a : Nat) : Nat := pow prime a (prime - 2)

/-- A square root of `a` modulo a prime of the form `4 k + 3`, if there is one. -/
def sqrt? (prime a : Nat) : Option Nat :=
  let root := pow prime a ((prime + 1) / 4)
  if root * root % prime = a % prime then some root else none

end MeteredLedger.Modular
