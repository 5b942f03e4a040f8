import MeteredLedger.Machine.Step

/-!
# Runs

`run` takes a frame from instruction to instruction, and enters a frame below it
for every request. A frame is entered if it does not nest too deep and the value
that goes with it may be given away (`refusal?`); a frame that is not entered hands
all of its gas back. What an entered frame does to the view lies in a scope of
its own, which is kept if the frame returns and dropped if it fails (`settle`);
an error that burns gas takes what the frame has left.

The steps of a run are counted down from a given number, as code may loop forever
where jumps cost nothing. `stepsFor` gives a number that is enough wherever every
jump costs gas: a frame then jumps no more often than it has gas, and between two
jumps it goes no farther than its code.
-/

namespace MeteredLedger

/-- What a frame hands back. -/
structure FrameResult where
  /-- The output, which a frame that fails of itself does not have. -/
  output : Bytes
  /-- The gas that is left. -/
  gasRemaining : Gas
  /-- Why the frame has failed. -/
  error : Option LedgerError
  /-- The contract that a creation has made. -/
  address : Option Address
  deriving DecidableEq, Repr

/-- What a frame hands back that is not entered. -/
def FrameResult.refused (gas : Gas) (e : LedgerError) : FrameResult := ⟨[], gas, some e, none⟩

/-! ### Entering and leaving -/

/-- Why a frame is not entered. -/
def refusal? (env : Setting) (w : World) (payer : Address) (value : Wei) (depth : Nat) :
    Option LedgerError :=
  if env.params.maxCallDepth.toNat < depth then
    some (.callDepthExceeded env.params.maxCallDepth.toNat)
  else if !env.context.mayTransfer env.store w.view payer value then
    some (.insufficientBalance value (w.view.balance env.store payer))
  else none

/-- Leaves a frame whose scope has the mark `mark`. -/
def settle (mark : View.Mark) (result : EStateM.Result Stop Machine Exit) :
    Except Abort (FrameResult × World) :=
  match result with
  | .ok (.returned output) m =>
    .ok (⟨output, m.gas.remaining, none, none⟩, { m.world with view := m.world.view.commitTo mark })
  | .ok (.reverted output) m =>
    .ok (⟨output, m.gas.remaining, some .reverted, none⟩,
      { m.world with view := m.world.view.revertTo mark })
  | .error (.error e) m =>
    let w := { m.world with view := m.world.view.revertTo mark }
    if e.burnsGas then
      match m.gas.burn "exhausted" with
      | .ok gas =>
        .ok (.refused gas.remaining e,
          { w with ledger := w.ledger.record m.gas.remaining "exhausted" })
      | .error f => .error (.fault f)
    else .ok (.refused m.gas.remaining e, w)
  | .error (.abort a) _ => .error a

namespace Exec

/-- Pays for the frame of a call, moves the value and runs the code there is. -/
def enterCall (env : Setting) (body : Exec Exit) (c : Call) : Exec Exit := do
  let costs := env.params.effects
  charge costs.call "call"
  if 0 < c.value then
    charge costs.callValueTransfer "call_value_transfer"
    onView (View.transfer env.store c.caller c.address c.value)
  let code ← inspect fun m => m.world.view.codeAt env.store c.address
  if code.isEmpty then return .returned []
  modifyFrame (·.load code)
  body

/-- Pays for what a creation has returned, and makes it the code of the contract. -/
def deploy (env : Setting) (address : Address) (code : Bytes) : Exec Unit := do
  if env.params.maxCodeSize.toNat < code.length then
    fail (.codeSizeExceeded code.length env.params.maxCodeSize.toNat)
  charge (mulGasCapped (gasOfNat code.length) env.params.effects.createData) "code_deposit"
  modifyView fun v => v.setCode env.store address code

/-- Pays for the frame of a creation, moves the value and runs the code that
returns the contract's. -/
def enterCreation (env : Setting) (body : Exec Exit) (address : Address) (c : Creation) :
    Exec Exit := do
  charge env.params.effects.create "create"
  let existing ← inspect fun m => m.world.view.account env.store address
  if existing.nonce ≠ 0 ∨ existing.isContract then fail (.addressCollision address)
  modifyView fun v => v.setNonce env.store address 1
  if 0 < c.value then onView (View.transfer env.store c.creator address c.value)
  modifyFrame (·.load c.initCode)
  match ← body with
  | .returned code => do
    deploy env address code
    return .returned code
  | .reverted output => return .reverted output

end Exec

/-- Calls an account: `body` runs the code of a frame. -/
def callWith (env : Setting) (body : Exec Exit) (c : Call) (w : World) :
    Except Abort (FrameResult × World) :=
  match refusal? env w c.caller c.value c.depth with
  | some e => .ok (.refused c.gas e, w)
  | none =>
    let (mark, view) := w.view.checkpoint
    let frame := Frame.fresh c.address c.caller c.value c.input c.depth
    settle mark (Exec.enterCall env body c ⟨{ w with view }, .bounded c.gas, frame⟩)

/-- Creates a contract: `body` runs the code of a frame. The creator goes to its
next nonce in any case, once the frame is admitted. -/
def createWith (env : Setting) (body : Exec Exit) (c : Creation) (w : World) :
    Except Abort (FrameResult × World) :=
  match refusal? env w c.creator c.value c.depth with
  | some e => .ok (.refused c.gas e, w)
  | none =>
    let address := Address.ofCreation c.creator (w.view.account env.store c.creator).nonce
    match View.bumpNonce env.store c.creator w.view with
    | .error (.abort a) _ => .error a
    | .error (.error e) view => .ok (.refused c.gas e, { w with view })
    | .ok () view =>
      let (mark, view) := view.checkpoint
      let frame := Frame.fresh address c.creator c.value [] c.depth
      match settle mark (Exec.enterCreation env body address c
          ⟨{ w with view }, .bounded c.gas, frame⟩) with
      | .error a => .error a
      | .ok (result, w) =>
        .ok ({ result with address := if result.error.isNone then some address else none }, w)

namespace Exec

/-- Enters a frame below this one. -/
def descend (enter : World → Except Abort (FrameResult × World)) : Exec FrameResult := fun m =>
  match enter m.world with
  | .ok (result, world) => .ok result { m with world }
  | .error a => .error (.abort a) m

/-- Takes back what a call has not used, and takes in what it hands back. -/
def resumeCall (offset size : Nat) (result : FrameResult) : Exec Unit := do
  giveBack result.gasRemaining Opcode.call.label
  writeMemory offset (result.output.take size)
  modifyFrame fun f => { f with returned := result.output }
  push (boolWord result.error.isNone)

/-- Takes back what a creation has not used, and takes in what it hands back. -/
def resumeCreation (result : FrameResult) : Exec Unit := do
  giveBack result.gasRemaining Opcode.create.label
  modifyFrame fun f => { f with returned := if result.error.isSome then result.output else [] }
  push (result.address.elim 0 addressWord)

/-- Goes on to the next instruction. -/
def advance : Exec Unit := modifyFrame fun f => { f with pc := f.pc + 1 }

/-- Runs a frame to its end, in so many steps at most. -/
def run (env : Setting) : Nat → Exec Exit
  | 0 => throw (.abort .unfinished)
  | steps + 1 => do
    match ← inspect fun m => m.frame.code[m.frame.pc]? with
    | none => return .returned []
    | some byte =>
      match ← step env byte with
      | .exit how => return how
      | .jumped => run env steps
      | .next => do
        advance
        run env steps
      | .call c offset size => do
        resumeCall offset size (← descend (callWith env (run env steps) c))
        advance
        run env steps
      | .create c => do
        resumeCreation (← descend (createWith env (run env steps) c))
        advance
        run env steps

end Exec

/-! ### Whole runs -/

/-- Steps that are enough for a run on so much gas where every jump costs some, if
no code that it meets is longer than `longest` bytes. -/
def stepsFor (params : Params) (gas : Gas) (longest : Nat) : Nat :=
  (params.maxCallDepth.toNat + 2) * ((gas.toNat + 2) * (longest + 2))

/-- The longest code that a run can meet: what it starts with, what the store and
the view hold, and what fits into the part of memory that can be asked for. -/
def longestCode (env : Setting) (w : World) (initCode : Bytes) : Nat :=
  let longer (most : Nat) (_ : Address) (code : Bytes) := max most code.length
  let stored := env.store.code.foldl longer (max initCode.length Exec.regionBound)
  w.view.layers.foldl (fun most layer => layer.code.foldl longer most) stored

/-- A first call, in so many steps at most. -/
def callIn (steps : Nat) (env : Setting) (c : Call) (w : World) :
    Except Abort (FrameResult × World) := callWith env (Exec.run env steps) c w

/-- A first creation, in so many steps at most. -/
def createIn (steps : Nat) (env : Setting) (c : Creation) (w : World) :
    Except Abort (FrameResult × World) := createWith env (Exec.run env steps) c w

/-- A call. -/
def Call.perform (env : Setting) (c : Call) (w : World) : Except Abort (FrameResult × World) :=
  callIn (stepsFor env.params c.gas (longestCode env w [])) env c w

/-- A creation. -/
def Creation.perform (env : Setting) (c : Creation) (w : World) :
    Except Abort (FrameResult × World) :=
  createIn (stepsFor env.params c.gas (longestCode env w c.initCode)) env c w

end MeteredLedger
