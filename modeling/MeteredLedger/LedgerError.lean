import MeteredLedger.Address
import MeteredLedger.Quantity
import MeteredLedger.Transaction

/-!
# Errors

The causes for which the ledger refuses or fails something, with their wording.
Two classes of them matter to a frame that fails: a revert hands back output and
leftover gas (`isRevert`), and all but three causes burn what gas the frame has
left (`burnsGas`).
-/

namespace MeteredLedger

/-- Why something is refused or has failed. -/
inductive LedgerError where
  /-- More gas is asked for than there is. -/
  | outOfGas (required available : Gas)
  /-- Executed code took everything back. -/
  | reverted
  /-- More value is asked for than there is. -/
  | insufficientBalance (required available : Wei)
  /-- An account, or a sum of changes, would leave its range. -/
  | balanceOverflow (address : Address)
  /-- A byte of code is no instruction. -/
  | invalidOpcode (byte : UInt8)
  /-- A jump leads to where none may lead. -/
  | invalidJump (target : Nat)
  /-- An instruction finds too few words. -/
  | stackUnderflow
  /-- An instruction would leave too many words. -/
  | stackOverflow
  /-- Frames would nest deeper than they may. -/
  | callDepthExceeded (limit : Nat)
  /-- A contract would be created where there is one. -/
  | addressCollision (address : Address)
  /-- A contract's code is longer than it may be. -/
  | codeSizeExceeded (size limit : Nat)
  /-- A run hands back more gas than it was given. -/
  | gasReturned (remaining limit : Gas)
  /-- A view that may only be read would be written to the store. -/
  | readOnly
  /-- A transaction cannot be used. -/
  | invalidTransaction (text : String)
  /-- A name is not fit for a route. -/
  | invalidRoute (key : String)
  /-- A route has its handler already. -/
  | duplicateRoute (key : String)
  /-- A route has no handler. -/
  | unknownRoute (key : String)
  /-- A block cannot be executed. -/
  | invalidBlock (number : Height) (reason : String)
  /-- The transactions of a block declare more gas than it allows. -/
  | blockGasExceeded (used limit : Gas)
  /-- The state cannot be reached. -/
  | state (text : String)
  /-- Parameters cannot be read or written. -/
  | config (text : String)
  /-- A transaction cannot be signed, read or attributed. -/
  | core (text : String)
  deriving DecidableEq, Repr

namespace LedgerError

/-- The error of a transaction that cannot be used. -/
def ofTransaction (e : TransactionError) : LedgerError := .core e.message

/-- The wording of an error. -/
def message : LedgerError → String
  | .outOfGas required available =>
    s!"Out of gas: required {required.toNat}, available {available.toNat}"
  | .reverted => "Execution reverted"
  | .insufficientBalance required available =>
    s!"Insufficient balance: required {required.toNat}, available {available.toNat}"
  | .balanceOverflow address => "Balance overflow for " ++ address.display
  | .invalidOpcode byte => "Invalid opcode: 0x" ++ Hex.encode [byte]
  | .invalidJump target => s!"Invalid jump destination: {target}"
  | .stackUnderflow => "Stack underflow"
  | .stackOverflow => "Stack overflow"
  | .callDepthExceeded limit => s!"Max call depth {limit} exceeded"
  | .addressCollision address => "Contract address collision at " ++ address.display
  | .codeSizeExceeded size limit => s!"Contract code size {size} exceeds limit {limit}"
  | .gasReturned remaining limit =>
    s!"Gas accounting violation: {remaining.toNat} remaining of {limit.toNat}"
  | .readOnly => "State view is read-only"
  | .invalidTransaction text => "Invalid transaction: " ++ text
  | .invalidRoute key => "Invalid route key: " ++ Text.quoteString key
  | .duplicateRoute key => s!"Route {key} already registered"
  | .unknownRoute key => "No route for " ++ key
  | .invalidBlock number reason => s!"Invalid block #{number.toNat}: {reason}"
  | .blockGasExceeded used limit =>
    s!"Block gas limit exceeded: used {used.toNat}, limit {limit.toNat}"
  | .state text => "State error: " ++ text
  | .config text => "Config error: " ++ text
  | .core text => "Core error: " ++ text

/-- Whether executed code asked for the failure itself. -/
def isRevert : LedgerError → Bool
  | .reverted => true
  | _ => false

/-- Whether a frame that fails for this cause loses the gas it has left. -/
def burnsGas : LedgerError → Bool
  | .reverted | .insufficientBalance .. | .callDepthExceeded _ => false
  | _ => true

end LedgerError

/-- Why an operation stops: it has an error to show, or it is abandoned. -/
inductive Stop where
  | error (cause : LedgerError)
  | abort (cause : Abort)
  deriving DecidableEq, Repr

/-- The stop of an operation that meets a fault. -/
def Stop.fault (cause : Fault) : Stop := .abort (.fault cause)

end MeteredLedger
