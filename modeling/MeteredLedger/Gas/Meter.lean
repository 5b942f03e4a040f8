import MeteredLedger.LedgerError
import Std.Data.ExtTreeMap

/-!
# Gas meters

A meter counts gas twice: in total, and by label in its breakdown. A bounded
meter refuses what would take the total over its limit; an untracked one refuses
only what cannot be counted. `consume` is the ordinary charge, `record` counts
without asking, `burn` takes all that is left, and `refund` gives gas back that
was taken under a label.

The total is kept in range by the check before a charge. The breakdown has no
check of its own: where one of its figures would leave 64 bits, the operation
meets a fault. As long as the breakdown adds up to the total this cannot happen.
-/

namespace MeteredLedger

/-- How much a meter lets through. -/
inductive GasLimit where
  /-- No more than this. -/
  | bounded (limit : Gas)
  /-- Everything that can be counted. -/
  | untracked
  deriving DecidableEq, Repr

/-- A meter. -/
structure Meter where
  /-- How much it lets through. -/
  limit : GasLimit
  /-- The total so far. -/
  consumed : Gas
  /-- The total of each label. -/
  breakdown : Std.ExtTreeMap String Gas

namespace Meter

/-- A meter that has counted nothing. -/
def fresh (limit : GasLimit) : Meter := ⟨limit, 0, ∅⟩

/-- A fresh meter with a limit. -/
def bounded (limit : Gas) : Meter := fresh (.bounded limit)

/-- A fresh meter that only counts. -/
def untracked : Meter := fresh .untracked

/-- What a bounded meter still lets through. -/
def remaining? (m : Meter) : Option Gas :=
  match m.limit with
  | .bounded limit => some (subGasFloored limit m.consumed)
  | .untracked => none

/-- What a bounded meter still lets through; zero for an untracked one. -/
def remaining (m : Meter) : Gas := m.remaining?.getD 0

/-- Whether the meter only counts. -/
def isUntracked (m : Meter) : Bool := m.limit == .untracked

/-- Whether a meter lets an amount through. -/
def admits (m : Meter) (amount : Gas) : Bool :=
  match m.limit, addGas? m.consumed amount with
  | _, none => false
  | .untracked, some _ => true
  | .bounded limit, some total => total ≤ limit

/-- Refuses an amount that the meter does not let through. -/
def check (m : Meter) (amount : Gas) : Except LedgerError Unit :=
  if m.admits amount then .ok ()
  else .error (.outOfGas amount (m.remaining?.getD (maxGas - m.consumed)))

/-- The figure of a label. -/
def labelled (m : Meter) (label : String) : Gas := m.breakdown[label]?.getD 0

/-- Counts an amount under a label, in range or not at all. -/
def add (m : Meter) (amount : Gas) (label : String) : Except Fault Meter :=
  match addGas? (m.labelled label) amount with
  | some figure =>
    .ok { m with consumed := m.consumed + amount, breakdown := m.breakdown.insert label figure }
  | none => .error .meterOverflow

/-- Charges an amount under a label. -/
def consume (m : Meter) (amount : Gas) (label : String) : Except Stop Meter :=
  match m.check amount with
  | .error e => .error (.error e)
  | .ok () =>
    match m.add amount label with
    | .ok m => .ok m
    | .error f => .error (.fault f)

/-- Counts an amount under a label, whatever the limit; a figure that would leave
its range stays at the end of it. -/
def record (m : Meter) (amount : Gas) (label : String) : Meter :=
  { m with
    consumed := addGasCapped m.consumed amount
    breakdown := m.breakdown.insert label (addGasCapped (m.labelled label) amount) }

/-- Charges all that a bounded meter has left. -/
def burn (m : Meter) (label : String) : Except Fault Meter :=
  match m.remaining? with
  | some left => m.add left label
  | none => .ok m

/-- Gives back an amount that was charged under a label. -/
def refund (m : Meter) (amount : Gas) (label : String) : Meter :=
  { m with
    consumed := subGasFloored m.consumed amount
    breakdown := match m.breakdown[label]? with
      | some figure => m.breakdown.insert label (subGasFloored figure amount)
      | none => m.breakdown }

end Meter

end MeteredLedger
