/-!
# Faults

A fault is not an answer: the operation that meets one is abandoned on the spot
and nothing comes of it. Errors, by contrast, are values that the ledger hands
back (`LedgerError`). Every check whose failure is a fault names its cause here,
so that one can say which of them can be met at all.
-/

namespace MeteredLedger

/-- What an operation can be abandoned for. -/
inductive Fault where
  /-- An account at the largest nonce would have to go to the next one. -/
  | nonceOverflow
  /-- A meter's figure for one label would leave 64 bits. -/
  | meterOverflow
  /-- The inner meter of a transition does not hold what the run consumed. -/
  | meterMismatch
  /-- A larger memory would cost less than a smaller one. -/
  | memoryCostFell
  /-- Memory would grow beyond what can be addressed. -/
  | memoryTooLarge
  /-- Memory is read or written outside of its bounds. -/
  | outOfBounds
  /-- The nesting of frames cannot be counted any further. -/
  | depthOverflow
  /-- A byte string has another length than the identifier it should spell. -/
  | lengthMismatch
  deriving DecidableEq, Repr

/-- Why a run ends without a result. -/
inductive Abort where
  /-- It met a fault. -/
  | fault (cause : Fault)
  /-- It took more steps than it was allowed. -/
  | unfinished
  deriving DecidableEq, Repr

end MeteredLedger
