import MeteredLedger.Gas.Grant
import MeteredLedger.Machine.Run
import MeteredLedger.Message

/-!
# Engines

An engine runs calls and creations. `Engine.machine` is the one that runs code.
`Engine.scripted` runs nothing and answers as it is told, for trying out what is
built around an engine: it may hand back less gas than it was given, or more.
-/

namespace MeteredLedger

/-- Whatever runs calls and creations. -/
structure Engine where
  /-- Runs a call. -/
  call : Context → Store → Call → World → Except Abort (FrameResult × World)
  /-- Runs a creation. -/
  create : Context → Store → Creation → World → Except Abort (FrameResult × World)

namespace Engine

/-- The engine that runs code, with these parameters. -/
def machine (params : Params) : Engine where
  call context store c w := c.perform ⟨params, context, store⟩ w
  create context store c w := c.perform ⟨params, context, store⟩ w

/-- Runs a message on an amount of gas. -/
def run (e : Engine) (context : Context) (store : Store) (m : Message) (gas : Gas) (w : World) :
    Except Abort (FrameResult × World) :=
  match m with
  | .create sender value initCode _ => e.create context store ⟨sender, initCode, gas, value, 0⟩ w
  | .invoke sender recipient value payload _ =>
    e.call context store ⟨sender, recipient, payload, gas, value, 0⟩ w

end Engine

/-- What a scripted engine answers. -/
structure Script where
  /-- The gas that a run spends. -/
  spend : Gas
  /-- If not zero, the gas that it hands back beyond what it was given. -/
  surplus : Gas
  /-- The error that it ends in. -/
  error : Option LedgerError
  /-- Its output. -/
  output : Bytes

namespace Script

/-- The gas that is handed back. -/
def leftover (s : Script) (gas : Gas) : Gas :=
  if 0 < s.surplus then addGasCapped gas s.surplus else subGasFloored gas s.spend

/-- Counts what has been spent. -/
def count (s : Script) (gas : Gas) (w : World) : World :=
  { w with ledger := w.ledger.record (subGasFloored gas (s.leftover gas)) "scripted" }

/-- The contract that a scripted creation makes. -/
def contract : Address := .ofBytes (List.replicate 20 0xcc)

/-- The engine that answers as it is told: a creation puts one byte of code at
`contract`, a call moves its value and fails if that fails. -/
def engine (s : Script) : Engine where
  create _ store c w :=
    let w := s.count c.gas w
    .ok (⟨s.output, s.leftover c.gas, s.error, some contract⟩,
      { w with view := w.view.setCode store contract [0] })
  call _ store c w :=
    let w := s.count c.gas w
    match View.transfer store c.caller c.address c.value w.view with
    | .ok () view => .ok (⟨s.output, s.leftover c.gas, s.error, none⟩, { w with view })
    | .error (.error e) view =>
      .ok (⟨s.output, s.leftover c.gas, some (s.error.getD e), none⟩, { w with view })
    | .error (.abort a) _ => .error a

end Script

end MeteredLedger
