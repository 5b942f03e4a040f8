import MeteredLedger.Context
import MeteredLedger.Gas.Meter
import MeteredLedger.Machine.Memory
import MeteredLedger.Machine.Opcode
import MeteredLedger.Machine.Stack

/-!
# Frames

A frame runs code on behalf of an account: it has a stack, a memory, a place in
its code and gas of its own. All frames of a run share the view that they change
and a meter on which every charge is counted once more (`World`). An action of a
frame (`Exec`) keeps what it has changed when it stops, so that the gas spent on
the way to an error stays spent.
-/

namespace MeteredLedger

/-- What stays the same through a run. -/
structure Setting where
  /-- The parameters. -/
  params : Params
  /-- The surroundings. -/
  context : Context
  /-- The store behind the view. -/
  store : Store

/-- What the frames of a run share. -/
structure World where
  /-- The view that they change. -/
  view : View
  /-- Every charge made, whichever frame made it. -/
  ledger : Meter

/-- The state of the code that a frame runs. -/
structure Frame where
  /-- The account on whose behalf it runs. -/
  address : Address
  /-- The account that called. -/
  caller : Address
  /-- The value that came with the call. -/
  value : Wei
  /-- What the call was given. -/
  input : Array UInt8
  /-- The code. -/
  code : Array UInt8
  /-- Where jumps may lead. -/
  targets : Array Bool
  /-- The frames around this one. -/
  depth : Nat
  /-- The place in the code. -/
  pc : Nat
  /-- The words at hand. -/
  stack : Stack
  /-- The memory. -/
  memory : Memory
  /-- What the last frame below has handed back. -/
  returned : Bytes

/-- A frame that has not been given its code. -/
def Frame.fresh (address caller : Address) (value : Wei) (input : Bytes) (depth : Nat) : Frame where
  address := address
  caller := caller
  value := value
  input := input.toArray
  code := #[]
  targets := #[]
  depth := depth
  pc := 0
  stack := .empty
  memory := .empty
  returned := []

/-- The frame at the start of some code. -/
def Frame.load (f : Frame) (code : Bytes) : Frame :=
  { f with code := code.toArray, targets := (Code.jumpTargets code).toArray, pc := 0 }

/-- A number cut off at the end of a buffer. -/
def clampOffset (w : Word) (size : Nat) : Nat := min w.toNat size

/-- Where a jump to a word leads. -/
def Frame.jumpTarget (f : Frame) (dest : Word) : Except LedgerError Nat :=
  let target := clampOffset dest f.code.size
  if f.targets[target]?.getD false then .ok target else .error (.invalidJump target)

/-- A frame with its gas, and the world around it. -/
structure Machine where
  /-- What it shares with the other frames. -/
  world : World
  /-- Its gas. -/
  gas : Meter
  /-- The frame. -/
  frame : Frame

/-- An action of a frame. -/
abbrev Exec := EStateM Stop Machine

namespace Exec

/-- Stops for an error. -/
def fail {α : Type} (e : LedgerError) : Exec α := throw (.error e)

/-- Shows something of the machine. -/
def inspect {α : Type} (f : Machine → α) : Exec α := fun m => .ok (f m) m

/-- Changes the frame. -/
def modifyFrame (f : Frame → Frame) : Exec Unit := fun m => .ok () { m with frame := f m.frame }

/-- What an operation gives that may have an error to show. -/
def orFail {α : Type} : Except LedgerError α → Exec α
  | .ok a => pure a
  | .error e => fail e

/-- What an operation gives that may meet a fault. -/
def orFault {α : Type} : Except Fault α → Exec α
  | .ok a => pure a
  | .error f => throw (.fault f)

/-- Acts on the view. -/
def onView {α : Type} (act : ViewM α) : Exec α := fun m =>
  match act m.world.view with
  | .ok a view => .ok a { m with world := { m.world with view } }
  | .error stop view => .error stop { m with world := { m.world with view } }

/-- Changes the view. -/
def modifyView (f : View → View) : Exec Unit :=
  onView (fun v => .ok () (f v))

/-! ### Gas -/

/-- Charges the frame, and counts the charge for the run. -/
def charge (amount : Gas) (label : String) : Exec Unit := fun m =>
  match m.gas.consume amount label with
  | .ok gas =>
    .ok () { m with gas, world := { m.world with ledger := m.world.ledger.record amount label } }
  | .error stop => .error stop m

/-- Charges the frame alone: gas that a frame below will account for. -/
def setAside (amount : Gas) (label : String) : Exec Unit := fun m =>
  match m.gas.consume amount label with
  | .ok gas => .ok () { m with gas }
  | .error stop => .error stop m

/-- Gives the frame back what a frame below has not used. -/
def giveBack (amount : Gas) (label : String) : Exec Unit := fun m =>
  .ok () { m with gas := m.gas.refund amount label }

/-! ### The stack -/

/-- Puts a word on the stack. -/
def push (w : Word) : Exec Unit := do
  let stack ← inspect (·.frame.stack)
  let stack ← orFail (stack.push w)
  modifyFrame fun f => { f with stack }

/-- Takes a word from the stack. -/
def pop : Exec Word := do
  let stack ← inspect (·.frame.stack)
  let (w, stack) ← orFail stack.pop
  modifyFrame fun f => { f with stack }
  return w

/-- Takes `n` words from the stack, the top first. -/
def popMany (n : Nat) : Exec (Vector Word n) := do
  let stack ← inspect (·.frame.stack)
  let (ws, stack) ← orFail (stack.popMany n)
  modifyFrame fun f => { f with stack }
  return ws

/-- Takes two words from the stack, the top first. -/
def popTwo : Exec (Word × Word) := do
  let ws ← popMany 2
  return (ws.get 0, ws.get 1)

/-- Takes three words from the stack, the top first. -/
def popThree : Exec (Word × Word × Word) := do
  let ws ← popMany 3
  return (ws.get 0, ws.get 1, ws.get 2)

/-! ### Memory -/

/-- The farthest offset and size that memory can be asked for. -/
def regionBound : Nat := 0xffffffff

/-- Acts on the memory. -/
def onMemory (act : Memory → Except Fault Memory) : Exec Unit := fun m =>
  let memory := m.frame.memory
  let m := { m with frame := { m.frame with memory := .empty } }
  match act memory with
  | .ok memory => .ok () { m with frame := { m.frame with memory } }
  | .error f => .error (.fault f) m

/-- Pays for a region of memory and makes sure that it is there. No gas pays for
one beyond the bound. -/
def region (costs : EffectCosts) (offset size : Word) : Exec (Nat × Nat) := do
  if size = 0 then return (0, 0)
  if regionBound < offset.toNat ∨ regionBound < size.toNat then
    fail (.outOfGas maxGas (← inspect (·.gas.remaining)))
  let limit := offset.toNat + size.toNat
  let current ← inspect (·.frame.memory.size)
  let cost ← orFault (Memory.growthCost costs current limit)
  charge cost "memory"
  onMemory (·.grow limit)
  return (offset.toNat, size.toNat)

/-- Reads memory. -/
def readMemory (offset size : Nat) : Exec Bytes := do
  orFault (← inspect fun m => m.frame.memory.read offset size)

/-- Writes memory. -/
def writeMemory (offset : Nat) (bs : Bytes) : Exec Unit := onMemory (·.write offset bs)

end Exec

end MeteredLedger
