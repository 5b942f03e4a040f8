import MeteredLedger.Gas.Meter

/-!
# Grants

A transition runs on gas granted from the meter of its transaction: what it asks
for, but no more than that meter has left. What the run does with the grant is
counted on a meter of its own, which must agree with the gas that the run hands
back; the two together give the figures to charge and to report (`reconcile`).
-/

namespace MeteredLedger

/-- Gas granted from an outer meter. -/
structure Grant where
  /-- The limit of the outer meter. -/
  outerLimit : GasLimit
  /-- What the outer meter had consumed. -/
  outerConsumed : Gas
  /-- The gas granted. -/
  gas : Gas
  /-- What is done with it. -/
  inner : Meter

/-- What became of a grant. -/
structure Reconciliation where
  /-- The part of the grant that was consumed. -/
  consumed : Gas
  /-- What the outer meter has consumed with it. -/
  total : Gas
  /-- Whether that is more than the outer meter lets through. -/
  exceedsOuter : Bool
  deriving DecidableEq, Repr

namespace Grant

/-- Grants what is asked for, as far as the outer meter has it left. -/
def ofMeter (outer : Meter) (asked : Gas) : Grant where
  outerLimit := outer.limit
  outerConsumed := outer.consumed
  gas := match outer.remaining? with
    | some available => if available < asked then available else asked
    | none => asked
  inner := .untracked

/-- What to report when `consumed` has been consumed beside the outer meter. -/
def totalWith (g : Grant) (consumed : Gas) : Gas := addGasCapped g.outerConsumed consumed

/-- The figures for a run that hands back `remaining`. More than was granted is
an error; a run whose meter disagrees is a fault. -/
def reconcile (g : Grant) (remaining : Gas) : Except Stop Reconciliation :=
  if g.gas < remaining then .error (.error (.gasReturned remaining g.gas))
  else
    let consumed := g.gas - remaining
    if g.inner.consumed ≠ consumed then .error (.fault .meterMismatch)
    else
      let total := g.totalWith consumed
      .ok ⟨consumed, total, match g.outerLimit with
        | .bounded limit => limit < total
        | .untracked => false⟩

end Grant

end MeteredLedger
