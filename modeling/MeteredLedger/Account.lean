import MeteredLedger.Address
import MeteredLedger.Quantity

/-!
# Accounts

An account has a nonce, a balance and the hash of its code, which is zero when it
has none. One in which all three are zero is empty, and is what an address
without an account is taken to have.
-/

namespace MeteredLedger

/-- An account. -/
structure Account where
  /-- The transactions it has sent, or the contracts it has created. -/
  nonce : Nonce
  /-- The value it holds. -/
  balance : Wei
  /-- The hash of its code, zero without code. -/
  codeHash : Hash
  deriving DecidableEq, Repr

namespace Account

/-- The account in which everything is zero. -/
def empty : Account := ⟨0, 0, .zero⟩

instance : Inhabited Account := ⟨empty⟩

/-- An account that holds some value and nothing else. -/
def ofBalance (balance : Wei) : Account := ⟨0, balance, .zero⟩

/-- Whether everything is zero. -/
def isEmpty (a : Account) : Bool := a.nonce == 0 && a.balance == 0 && a.codeHash.isZero

/-- Whether the account has code. -/
def isContract (a : Account) : Bool := !a.codeHash.isZero

/-- The account at its next nonce. -/
def bumpNonce (a : Account) : Except Fault Account :=
  if a.nonce.toNat + 1 < UInt64.size then .ok { a with nonce := a.nonce + 1 }
  else .error .nonceOverflow

/-- The account with more value, if it can hold it. -/
def credit? (a : Account) (amount : Wei) : Option Account :=
  (addWei? a.balance amount).map fun balance => { a with balance }

/-- The account with less value, if it has it. -/
def debit? (a : Account) (amount : Wei) : Option Account :=
  if amount ≤ a.balance then some { a with balance := a.balance - amount } else none

end Account

end MeteredLedger
