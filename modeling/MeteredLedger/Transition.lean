import MeteredLedger.Engine

/-!
# Transitions

A transition carries out one message. It is granted gas from the meter of its
transaction (`Grant`), runs on a view of its own, and either takes effect as a
whole, the view going to the store and the gas to the meter, or not at all: a
transition that fails changes neither, and only reports what it is to be charged
for. A simulated transition runs in the same way on gas that nobody has to give,
and never takes effect.
-/

namespace MeteredLedger

/-- What a transition comes to. -/
inductive Outcome where
  /-- It has taken effect. -/
  | success (output : Bytes) (gasUsed : Gas) (contract : Option Address)
  /-- The code run has taken everything back. -/
  | reverted (output : Bytes) (gasUsed : Gas)
  /-- The gas was not enough. -/
  | outOfGas (gasUsed : Gas)
  /-- The sender does not have the value to be moved. -/
  | transferDenied (gasUsed : Gas)
  /-- It has failed for another cause. -/
  | fatal (cause : LedgerError) (gasUsed : Gas)
  deriving DecidableEq, Repr

namespace Outcome

/-- The outcome of a run that ends in an error. -/
def ofError (e : LedgerError) (output : Bytes) (gasUsed : Gas) : Outcome :=
  match e with
  | .reverted => .reverted output gasUsed
  | .outOfGas .. => .outOfGas gasUsed
  | .insufficientBalance .. => .transferDenied gasUsed
  | cause => .fatal cause gasUsed

/-- The gas reported: that of the run after a success, else all of the meter's. -/
def gasUsed : Outcome → Gas
  | .success _ gasUsed _ | .reverted _ gasUsed | .outOfGas gasUsed | .transferDenied gasUsed
  | .fatal _ gasUsed => gasUsed

/-- Whether the transition has taken effect. -/
def isSuccess : Outcome → Bool
  | .success .. => true
  | _ => false

/-- The contract that it has made. -/
def contract? : Outcome → Option Address
  | .success _ _ contract => contract
  | _ => none

end Outcome

/-- What a transition has done that others may want to know. -/
inductive Event where
  /-- Code has left a log. -/
  | log (txHash : Hash) (entry : Log)
  /-- There is a new contract. -/
  | contractCreated (address : Address) (txHash : Hash)
  deriving DecidableEq, Repr

/-- The log that an event is about. -/
def Event.log? : Event → Option Log
  | .log _ entry => some entry
  | .contractCreated .. => none

/-- The result of a transition: its outcome and its events in order. -/
structure Transition where
  outcome : Outcome
  events : List Event
  deriving DecidableEq, Repr

namespace Transition

/-- The result of a transition without effect. -/
def failed (outcome : Outcome) : Transition := ⟨outcome, []⟩

/-- The result of a transition that has taken effect. -/
def succeeded (outcome : Outcome) (txHash : Hash) (logs : List Log) : Transition :=
  ⟨outcome, logs.map (.log txHash) ++ (outcome.contract?.map (.contractCreated · txHash)).toList⟩

/-- Whether the transition has taken effect. -/
def isSuccess (t : Transition) : Bool := t.outcome.isSuccess

/-- The logs among the events. -/
def logs (t : Transition) : List Log := t.events.filterMap Event.log?

end Transition

/-- The resources that a transition takes from the block and the transaction
around it. -/
structure Ambient where
  /-- The meter of the transaction. -/
  meter : Meter
  /-- The header of the block. -/
  header : Header
  /-- The canonical bytes of the transaction. -/
  txBytes : Bytes
  /-- The store. -/
  store : Store

/-- Carries out messages. -/
structure Processor where
  /-- The parameters. -/
  params : Params
  /-- What runs the messages. -/
  engine : Engine

namespace Processor

/-- The processor whose engine runs code. -/
def ofParams (params : Params) : Processor := ⟨params, .machine params⟩

/-- A run that has ended well, with its figures. -/
structure Finished where
  /-- What the run hands back. -/
  result : FrameResult
  /-- What became of its gas. -/
  figures : Reconciliation
  /-- The view that it leaves. -/
  view : View

/-- The figures of a run, or the outcome that it ends in. -/
def classify (g : Grant) (result : FrameResult) (view : View) :
    Except Abort (Except Outcome Finished) :=
  match g.reconcile result.gasRemaining with
  | .error (.abort a) => .error a
  | .error (.error e) => .ok (.error (.fatal e (g.totalWith g.gas)))
  | .ok figures =>
    match result.error with
    | some e => .ok (.error (.ofError e result.output figures.total))
    | none =>
      if figures.exceedsOuter then .ok (.error (.outOfGas figures.total))
      else .ok (.ok ⟨result, figures, view⟩)

/-- Runs a message on a grant. -/
def attempt (p : Processor) (m : Message) (header : Header) (store : Store) (view : View)
    (g : Grant) : Except Abort (Except Outcome Finished) :=
  let context := Context.ofHeader header m.sender g.gas
  match p.engine.run context store m g.gas ⟨view.resync, g.inner⟩ with
  | .error a => .error a
  | .ok (result, w) => classify { g with inner := w.ledger } result w.view

/-- The outcome of a run that takes effect. -/
def Finished.outcome (f : Finished) : Outcome :=
  .success f.result.output f.figures.consumed f.result.address

/-- Carries out a message; on success the meter is charged and the store changed. -/
def execute (p : Processor) (m : Message) (a : Ambient) : Except Abort (Transition × Ambient) := do
  let g := Grant.ofMeter a.meter m.gasLimit
  let txHash := Hash.digest a.txBytes
  match ← p.attempt m a.header a.store (View.fresh.tagged txHash) g with
  | .error outcome => .ok (.failed outcome, a)
  | .ok run =>
    match a.meter.consume run.figures.consumed "vm_execution" with
    | .error (.abort f) => .error f
    | .error (.error e) => .ok (.failed (.fatal e run.figures.total), a)
    | .ok meter =>
      match run.view.publish true a.store with
      | .error e => .ok (.failed (.fatal e run.figures.total), { a with meter })
      | .ok (logs, store) =>
        .ok (.succeeded run.outcome txHash logs, { a with meter, store })

/-- Carries out a message without effect, on the gas that the parameters give to
simulations. -/
def simulate (p : Processor) (m : Message) (header : Header) (store : Store) :
    Except Abort Transition := do
  let g := Grant.ofMeter .untracked p.params.defaultGasLimit
  match ← p.attempt m header store .readOnly g with
  | .error outcome => .ok (.failed outcome)
  | .ok run => .ok (.succeeded run.outcome run.view.txHash run.view.logs)

end Processor

end MeteredLedger
