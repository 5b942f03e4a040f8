import MeteredLedger.Block
import MeteredLedger.LedgerError
import MeteredLedger.Store

/-!
# Views

A view shows the store with pending changes in front of it. The changes lie in
layers: one for the transition, and one more for every scope opened inside of it
by `checkpoint`. Reading looks through the layers from the innermost outward, then
at the accounts that the view remembers from the store, then at the store.
Writing changes the innermost layer only; to change an account, the account as it
is seen is put there first (`touch`), and stays there even if the change fails.
A scope is dropped by `revertTo` or folded into the one around it by `commitTo`.
Nothing reaches the store before `publish`.

A view does not hold the store: it is handed to whatever reads it, and may have
been changed by others between two reads.
-/

namespace MeteredLedger

/-- The changes made in one scope. -/
structure Layer where
  /-- The accounts changed. -/
  accounts : AddressMap Account
  /-- The slots written. -/
  slots : SlotMap Bytes
  /-- The code written. -/
  code : AddressMap Bytes
  /-- The logs left, in order. -/
  logs : List Log

namespace Layer

/-- A scope in which nothing has happened. -/
def empty : Layer := ⟨∅, ∅, ∅, []⟩

/-- A layer with the changes of an inner one made on top of it. -/
def absorb (outer inner : Layer) : Layer where
  accounts := outer.accounts ∪ inner.accounts
  slots := outer.slots ∪ inner.slots
  code := outer.code ∪ inner.code
  logs := outer.logs ++ inner.logs

end Layer

/-- The store with pending changes. -/
structure View where
  /-- The changes of the transition. -/
  base : Layer
  /-- The changes of the open scopes, the innermost first. -/
  scopes : List Layer
  /-- The accounts that were read from the store to be changed. -/
  remembered : AddressMap Account
  /-- The transaction that logs belong to. -/
  txHash : Hash
  /-- Whether the changes may never reach the store. -/
  isReadOnly : Bool

/-- An operation on a view, which keeps what it has changed when it stops. -/
abbrev ViewM := EStateM Stop View

namespace View

/-- A view without changes. -/
def fresh : View := ⟨.empty, [], ∅, .zero, false⟩

instance : Inhabited View := ⟨fresh⟩

/-- A view without changes that may never be published. -/
def readOnly : View := { fresh with isReadOnly := true }

/-- The view of a transaction. -/
def tagged (v : View) (txHash : Hash) : View := { v with txHash }

/-- Forgets the accounts read from the store; pending changes stay. -/
def resync (v : View) : View := { v with remembered := ∅ }

/-! ### Layers -/

/-- The layers, the innermost first. -/
def layers (v : View) : List Layer := v.scopes ++ [v.base]

/-- The number of open scopes. -/
def depth (v : View) : Nat := v.scopes.length

/-- The innermost layer. -/
def top (v : View) : Layer :=
  match v.scopes with
  | [] => v.base
  | layer :: _ => layer

/-- Changes the innermost layer. -/
def modifyTop (v : View) (f : Layer → Layer) : View :=
  match v.scopes with
  | [] => { v with base := f v.base }
  | layer :: outer => { v with scopes := f layer :: outer }

/-- What the innermost layer that has an answer answers. -/
def find? {α : Type} (v : View) (look : Layer → Option α) : Option α :=
  match v.scopes.findSome? look with
  | some a => some a
  | none => look v.base

/-! ### Reading -/

/-- The account of an address. -/
def account (s : Store) (v : View) (a : Address) : Account :=
  match v.find? (·.accounts[a]?) with
  | some account => account
  | none =>
    match v.remembered[a]? with
    | some account => account
    | none => s.account a

/-- The balance of an address. -/
def balance (s : Store) (v : View) (a : Address) : Wei := (v.account s a).balance

/-- The code of an address. -/
def codeAt (s : Store) (v : View) (a : Address) : Bytes :=
  match v.find? (·.code[a]?) with
  | some code => code
  | none => s.codeAt a

/-- The value of a slot. -/
def slot (s : Store) (v : View) (slot : Slot) : Bytes :=
  match v.find? (·.slots[slot]?) with
  | some value => value
  | none => s.slot slot

/-- The logs left so far, in order. -/
def logs (v : View) : List Log := v.layers.reverse.flatMap (·.logs)

/-! ### Writing -/

/-- Writes an account into the innermost layer. -/
def putAccount (v : View) (a : Address) (account : Account) : View :=
  v.modifyTop fun layer => { layer with accounts := layer.accounts.insert a account }

/-- The account of an address, for changing it: it lies in the innermost layer
from now on, and is remembered if it came from the store. -/
def touch (s : Store) (v : View) (a : Address) : Account × View :=
  match v.find? (·.accounts[a]?) with
  | some account => (account, v.putAccount a account)
  | none =>
    match v.remembered[a]? with
    | some account => (account, v.putAccount a account)
    | none =>
      let account := s.account a
      (account, { v with remembered := v.remembered.insert a account }.putAccount a account)

/-- Gives an address more value. -/
def credit (s : Store) (a : Address) (amount : Wei) : ViewM Unit := fun v =>
  let (account, v) := v.touch s a
  match account.credit? amount with
  | some account => .ok () (v.putAccount a account)
  | none => .error (.error (.balanceOverflow a)) v

/-- Takes value from an address. -/
def debit (s : Store) (a : Address) (amount : Wei) : ViewM Unit := fun v =>
  let (account, v) := v.touch s a
  match account.debit? amount with
  | some account => .ok () (v.putAccount a account)
  | none => .error (.error (.insufficientBalance amount account.balance)) v

/-- Moves value from one address to another: a debit, then a credit. -/
def transfer (s : Store) (source target : Address) (amount : Wei) : ViewM Unit := do
  debit s source amount
  credit s target amount

/-- Whether an address has an amount to give. -/
def canTransfer (s : Store) (v : View) (a : Address) (amount : Wei) : Bool :=
  amount ≤ v.balance s a

/-- Takes an address to its next nonce. -/
def bumpNonce (s : Store) (a : Address) : ViewM Unit := fun v =>
  let (account, v) := v.touch s a
  match account.bumpNonce with
  | .ok account => .ok () (v.putAccount a account)
  | .error f => .error (.fault f) v

/-- Gives an address a nonce. -/
def setNonce (s : Store) (v : View) (a : Address) (nonce : Nonce) : View :=
  let (account, v) := v.touch s a
  v.putAccount a { account with nonce }

/-- The hash that goes with code: zero for none. -/
def codeHash (code : Bytes) : Hash := if code.isEmpty then .zero else .digest code

/-- Gives an address code, and its account the hash of it. -/
def setCode (s : Store) (v : View) (a : Address) (code : Bytes) : View :=
  let (account, v) := v.touch s a
  (v.putAccount a { account with codeHash := codeHash code }).modifyTop fun layer =>
    { layer with code := layer.code.insert a code }

/-- Writes a slot; an empty value clears it. -/
def setSlot (v : View) (slot : Slot) (value : Bytes) : View :=
  v.modifyTop fun layer => { layer with slots := layer.slots.insert slot value }

/-- Leaves a log. -/
def addLog (v : View) (log : Log) : View :=
  v.modifyTop fun layer => { layer with logs := layer.logs ++ [log] }

/-! ### Scopes -/

/-- The mark of an open scope: the number of scopes up to it. -/
abbrev Mark := Nat

/-- The number of scopes that stay open when the scope of a mark is closed. -/
def Mark.outside (mark : Mark) : Nat := max mark 1 - 1

/-- Opens a scope, and hands out its mark. -/
def checkpoint (v : View) : Mark × View :=
  let v := { v with scopes := .empty :: v.scopes }
  (v.depth, v)

/-- Drops what has been done since the scope of a mark was opened. -/
def revertTo (v : View) (mark : Mark) : View :=
  { v with scopes := v.scopes.drop (v.depth - mark.outside) }

/-- Folds the innermost scope into the layer around it. -/
def commitTop (v : View) : View :=
  match v.scopes with
  | [] => v
  | [inner] => { v with base := v.base.absorb inner, scopes := [] }
  | inner :: outer :: rest => { v with scopes := outer.absorb inner :: rest }

/-- Folds so many scopes, from the innermost on. -/
def commitScopes : Nat → View → View
  | 0, v => v
  | n + 1, v => commitScopes n v.commitTop

/-- Keeps what has been done since the scope of a mark was opened. -/
def commitTo (v : View) (mark : Mark) : View := commitScopes (v.depth - mark.outside) v

/-! ### The end of a view -/

/-- All changes in one, the innermost last. -/
def pending (v : View) : Changes where
  accounts := v.layers.foldr (fun layer all => all ∪ layer.accounts) ∅
  slots := v.layers.foldr (fun layer all => all ∪ layer.slots) ∅
  code := v.layers.foldr (fun layer all => all ∪ layer.code) ∅

/-- An amount as a signed number of 128 bits, if it is one. -/
def signed? (amount : Wei) : Option Int :=
  if amount.msb then none else some amount.toInt

/-- A sum of signed numbers of 128 bits, if it is one. -/
def addSigned? (a b : Int) : Option Int :=
  if (BitVec.intMin 128).toInt ≤ a + b ∧ a + b ≤ (BitVec.intMax 128).toInt then some (a + b)
  else none

/-- Adds to a sum by how much an account's balance differs from the store's. -/
def addChange (s : Store) (sum : Int) (entry : Address × Account) : Except LedgerError Int :=
  let change? : Option Int := do
    let after ← signed? entry.2.balance
    let before ← signed? (s.account entry.1).balance
    addSigned? sum (after - before)
  match change? with
  | some sum => .ok sum
  | none => .error (.balanceOverflow entry.1)

/-- By how much the changed balances differ from those of the store, all
together. -/
def netChange (s : Store) (v : View) : Except LedgerError Int :=
  v.pending.accounts.toList.foldlM (addChange s) 0

/-- Ends a view: its changes are made in the store or dropped. Hands out the logs
that are kept and the store. -/
def publish (v : View) (commit : Bool) (s : Store) : Except LedgerError (List Log × Store) :=
  if !commit then .ok ([], s)
  else if v.isReadOnly then .error .readOnly
  else .ok (v.logs, s.apply v.pending)

end View

end MeteredLedger
