import MeteredLedger.View

/-!
# Contexts

What a run sees of the block and the transaction around it. Of the chain's
history only the block before is known (`Context.blockHash`). Whether an account
may give an amount away is asked of the context too, and ordinarily decided by
its balance.
-/

namespace MeteredLedger

/-- The surroundings of a run. -/
structure Context where
  /-- Who signed for it. -/
  origin : Address
  /-- Who proposed the block. -/
  coinbase : Address
  /-- The time of the block. -/
  timestamp : Timestamp
  /-- The number of the block. -/
  number : Height
  /-- The gas that the first frame was given. -/
  gasLimit : Gas
  /-- The hash of the block before. -/
  ancestor : Hash
  /-- Whether an account may give an amount away. -/
  mayTransfer : Store → View → Address → Wei → Bool

namespace Context

/-- The context of a run in the block of a header. -/
def ofHeader (h : Header) (origin : Address) (gasLimit : Gas) : Context where
  origin := origin
  coinbase := h.proposer
  timestamp := h.timestamp
  number := h.number
  gasLimit := gasLimit
  ancestor := h.parentHash
  mayTransfer := View.canTransfer

/-- The hash of the block with a number: zero unless it is the block before. -/
def blockHash (c : Context) (number : Height) : Hash :=
  if 0 < c.number ∧ number = c.number - 1 then c.ancestor else .zero

end Context

end MeteredLedger
