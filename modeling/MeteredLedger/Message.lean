import MeteredLedger.LedgerError

/-!
# Messages

A message asks for one transition: to call an account, or to create a contract.
A signed transaction is a message from its sender.
-/

namespace MeteredLedger

/-- What a transition is asked for. -/
inductive Message where
  /-- To create a contract with the code that some other code returns. -/
  | create (sender : Address) (value : Wei) (initCode : Bytes) (gasLimit : Gas)
  /-- To move value to an account and run its code. -/
  | invoke (sender recipient : Address) (value : Wei) (payload : Bytes) (gasLimit : Gas)
  deriving DecidableEq, Repr

namespace Message

/-- The route of every message. -/
def route : String := "vm"

/-- Who asks. -/
def sender : Message → Address
  | .create sender .. | .invoke sender .. => sender

/-- Who is called; nobody by a creation. -/
def recipient? : Message → Option Address
  | .create .. => none
  | .invoke _ recipient .. => some recipient

/-- The value that goes with it. -/
def value : Message → Wei
  | .create _ value .. | .invoke _ _ value .. => value

/-- The gas that it asks for. -/
def gasLimit : Message → Gas
  | .create _ _ _ gasLimit | .invoke _ _ _ _ gasLimit => gasLimit

/-- The code to run, or what the recipient is given. -/
def payload : Message → Bytes
  | .create _ _ initCode _ => initCode
  | .invoke _ _ _ payload _ => payload

/-- The message of a signed transaction: a creation if it names no recipient. -/
def ofTransaction (t : Transaction) : Except LedgerError Message :=
  match t.sender with
  | .error e => .error (.ofTransaction e)
  | .ok sender =>
    match t.recipient with
    | none => .ok (.create sender t.value t.data t.gasLimit)
    | some recipient => .ok (.invoke sender recipient t.value t.data t.gasLimit)

end Message

end MeteredLedger
