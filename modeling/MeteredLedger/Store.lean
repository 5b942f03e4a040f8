import MeteredLedger.Hashing.Blake3
import MeteredLedger.Storage

/-!
# The store

The store holds accounts, storage slots and code, and holds nothing that is
empty: writing an empty account, value or code takes away what was there. So two
stores that read the same everywhere are the same, and have the same root.

The root is the BLAKE3 hash of all contents in order (`Store.rootBytes`): every
account with its three fields, every slot with its value behind the value's
length, every code behind its length.
-/

namespace MeteredLedger

/-- The durable state. -/
structure Store where
  /-- The accounts that are not empty. -/
  accounts : AddressMap Account
  /-- The slots whose values are not empty. -/
  slots : Storage
  /-- The code that is not empty. -/
  code : AddressMap Bytes

namespace Store

/-- The store without contents. -/
def empty : Store := ⟨∅, ∅, ∅⟩

instance : Inhabited Store := ⟨empty⟩

/-! ### Reading -/

/-- The account of an address, empty if there is none. -/
def account (s : Store) (a : Address) : Account := s.accounts[a]?.getD .empty

/-- The value of a slot, empty if there is none. -/
def slot (s : Store) (slot : Slot) : Bytes := s.slots[slot]?.getD []

/-- The code of an address, empty if there is none. -/
def codeAt (s : Store) (a : Address) : Bytes := s.code[a]?.getD []

/-! ### Writing -/

/-- Writes an account; an empty one is taken away. -/
def putAccount (s : Store) (a : Address) (account : Account) : Store :=
  { s with
    accounts := if account.isEmpty then s.accounts.erase a else s.accounts.insert a account }

/-- Writes the value of a slot; an empty one clears it. -/
def putSlot (s : Store) (slot : Slot) (value : Bytes) : Store :=
  { s with slots := if value.isEmpty then s.slots.erase slot else s.slots.insert slot value }

/-- Writes the code of an address; empty code is taken away. -/
def putCode (s : Store) (a : Address) (code : Bytes) : Store :=
  { s with code := if code.isEmpty then s.code.erase a else s.code.insert a code }

/-- The store that holds these accounts, the later of two for one address. Empty
accounts are passed over. -/
def ofAccounts (accounts : List (Address × Account)) : Store :=
  accounts.foldl
    (fun s (a, account) => if account.isEmpty then s else s.putAccount a account) empty

/-- Makes a set of changes: accounts, then slots, then code. -/
def apply (s : Store) (c : Changes) : Store :=
  let s := c.accounts.foldl putAccount s
  let s := c.slots.foldl putSlot s
  c.code.foldl putCode s

/-! ### The root -/

/-- A string of bytes behind its length. -/
def sized (bs : Bytes) : Bytes := Bytes.littleEndian 8 bs.length ++ bs

/-- What the root says of an account. -/
def accountBytes (a : Address) (account : Account) : Bytes :=
  a.toBytes ++ Bytes.littleEndian 8 account.nonce.toNat
    ++ Bytes.littleEndian 16 account.balance.toNat ++ account.codeHash.toBytes

/-- What the root says of a slot. -/
def slotBytes (slot : Slot) (value : Bytes) : Bytes :=
  slot.address.toBytes ++ slot.key.toBytes ++ sized value

/-- What the root says of the code of an address. -/
def codeBytes (a : Address) (code : Bytes) : Bytes := a.toBytes ++ sized code

/-- The bytes whose hash is the root. -/
def rootBytes (s : Store) : Bytes :=
  (s.accounts.toList.flatMap fun (a, account) => accountBytes a account)
    ++ (s.slots.toList.flatMap fun (slot, value) => slotBytes slot value)
    ++ (s.code.toList.flatMap fun (a, code) => codeBytes a code)

/-- The root of the state. -/
def root (s : Store) : Hash := .ofBytes (Blake3.hash s.rootBytes)

end Store

end MeteredLedger
