import MeteredLedger.Router

/-!
# Executing blocks

A block is executed transaction by transaction, each on a meter bounded by the
gas that it declares. Before the first of them the block as a whole is checked:
its header commits to its transactions, all of them are signed, their messages
have a handler, and the gas declared together is within the block's limit
(`prepare`). A transaction that fails is still paid for: what its transition
reports beyond what the meter holds is counted on the meter.
-/

namespace MeteredLedger

/-- The result of executing a block. -/
structure BlockExecution where
  /-- A receipt of every transaction, in order. -/
  receipts : List Receipt
  /-- The gas of all receipts. -/
  gasUsed : Gas
  /-- The events of all transactions, in order. -/
  events : List Event
  /-- The root of the state after the block. -/
  stateRoot : Hash
  deriving DecidableEq, Repr

namespace BlockExecution

/-- A transaction with its message and its canonical bytes. -/
structure Prepared where
  transaction : Transaction
  message : Message
  bytes : Bytes

/-- The messages of transactions that a router can handle, in order. -/
def prepareAll (r : Router) (number : Height) :
    List Transaction → Except LedgerError (List Prepared)
  | [] => .ok []
  | t :: ts => do
    let message ← Message.ofTransaction t
    if !r.hasRoute Message.route then
      .error (.invalidBlock number ("no route for " ++ Message.route))
    else
      let rest ← prepareAll r number ts
      .ok (⟨t, message, t.encode⟩ :: rest)

/-- The gas that transactions declare together. -/
def declaredGas (ts : List Transaction) : Gas :=
  ts.foldl (fun sum t => addGasCapped sum t.gasLimit) 0

/-- Checks a block, and makes its transactions ready. -/
def prepare (r : Router) (b : Block) : Except LedgerError (List Prepared) := do
  if !b.isValid then
    .error (.invalidBlock b.header.number "transactions root or signature mismatch")
  else
    let prepared ← prepareAll r b.header.number b.transactions
    let declared := declaredGas b.transactions
    if b.header.gasLimit < declared then .error (.blockGasExceeded declared b.header.gasLimit)
    else .ok prepared

/-- The meter of a transaction once its transition is over: what the transition
reports is charged for even if it has failed. -/
def settledMeter (t : Transition) (m : Meter) : Meter :=
  if t.isSuccess then m
  else m.record (subGasFloored t.outcome.gasUsed m.consumed) "failed_attempt"

/-- The receipt of a transaction. -/
def receipt (h : Header) (index : Nat) (p : Prepared) (t : Transition) (gasUsed : Gas) :
    Receipt where
  transactionHash := .digest p.bytes
  transactionIndex := UInt64.ofNat index
  blockNumber := h.number
  sender := p.message.sender
  recipient := p.message.recipient?
  gasUsed := gasUsed
  status := if t.isSuccess then 1 else 0
  contractAddress := t.outcome.contract?
  logs := t.logs

/-- What has come of the transactions executed so far. -/
structure Progress where
  /-- Their receipts, the last first. -/
  receipts : List Receipt
  /-- The gas of the receipts. -/
  gasUsed : Gas
  /-- Their events, in order. -/
  events : List Event
  /-- The store. -/
  store : Store

/-- Executes transactions in order. An error leaves the store as the transactions
before have left it. -/
def executeAll (r : Router) (h : Header) :
    List Prepared → Progress → Except Abort (Except LedgerError Progress × Store)
  | [], done => .ok (.ok done, done.store)
  | p :: ps, done => do
    let ambient : Ambient := ⟨.bounded p.transaction.gasLimit, h, p.bytes, done.store⟩
    match ← r.dispatch p.message ambient with
    | (.error e, ambient) => .ok (.error e, ambient.store)
    | (.ok t, ambient) =>
      let gas := (settledMeter t ambient.meter).consumed
      executeAll r h ps
        { receipts := receipt h done.receipts.length p t gas :: done.receipts
          gasUsed := addGasCapped done.gasUsed gas
          events := done.events ++ t.events
          store := ambient.store }

/-- Executes a block with the handlers of a router. -/
def executeWith (r : Router) (b : Block) (s : Store) :
    Except Abort (Except LedgerError BlockExecution × Store) := do
  match prepare r b with
  | .error e => .ok (.error e, s)
  | .ok prepared =>
    match ← executeAll r b.header prepared ⟨[], 0, [], s⟩ with
    | (.error e, s) => .ok (.error e, s)
    | (.ok done, s) => .ok (.ok ⟨done.receipts.reverse, done.gasUsed, done.events, s.root⟩, s)

/-- Executes a block with the processor of some parameters. -/
def execute (params : Params) (b : Block) (s : Store) :
    Except Abort (Except LedgerError BlockExecution × Store) :=
  executeWith (.ofProcessor (.ofParams params)) b s

end BlockExecution

end MeteredLedger
