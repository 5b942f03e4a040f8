import MeteredLedger.Account
import Std.Data.ExtTreeMap

/-!
# Changes

A set of changes gives new accounts, new values for storage slots and new code,
each at most once for a place. An empty value clears its slot and empty code its
address.
-/

namespace MeteredLedger

/-- A map from addresses, in their order. -/
abbrev AddressMap (α : Type) := Std.ExtTreeMap Address α

/-- A place in storage: a key of an address. -/
structure Slot where
  /-- Whose storage it is in. -/
  address : Address
  /-- The key. -/
  key : Hash
  deriving DecidableEq, Repr

namespace Slot

/-- Slots are ordered by address, and by key within an address. -/
instance : Ord Slot := ⟨compareLex (compareOn Slot.address) (compareOn Slot.key)⟩

instance : Std.TransOrd Slot :=
  inferInstanceAs (Std.TransCmp (compareLex (compareOn Slot.address) (compareOn Slot.key)))

instance : Std.LawfulEqOrd Slot where
  eq_of_compare {a b} h := by
    have h : (compare a.address b.address).then (compare a.key b.key) = .eq := h
    rw [Ordering.then_eq_eq] at h
    have h₁ := Std.LawfulEqCmp.eq_of_compare h.1
    have h₂ := Std.LawfulEqCmp.eq_of_compare h.2
    cases a; cases b; simp_all

end Slot

/-- A map from slots, in their order. -/
abbrev SlotMap (α : Type) := Std.ExtTreeMap Slot α

/-- A set of changes. -/
structure Changes where
  /-- The new accounts. -/
  accounts : AddressMap Account
  /-- The new values of slots. -/
  slots : SlotMap Bytes
  /-- The new code. -/
  code : AddressMap Bytes

namespace Changes

/-- No changes. -/
def empty : Changes := ⟨∅, ∅, ∅⟩

/-- Whether nothing changes. -/
def isEmpty (c : Changes) : Bool := c.accounts.isEmpty && c.slots.isEmpty && c.code.isEmpty

/-- With a new account, in place of one given before. -/
def putAccount (c : Changes) (a : Address) (account : Account) : Changes :=
  { c with accounts := c.accounts.insert a account }

/-- With a new value of a slot, in place of one given before. -/
def putSlot (c : Changes) (slot : Slot) (value : Bytes) : Changes :=
  { c with slots := c.slots.insert slot value }

/-- With new code, in place of code given before. -/
def putCode (c : Changes) (a : Address) (code : Bytes) : Changes :=
  { c with code := c.code.insert a code }

end Changes

end MeteredLedger
