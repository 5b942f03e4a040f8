import MeteredLedger.Machine.Frame

/-!
# One instruction

`step` does what one instruction says, but for entering another frame: `CALL` and
`CREATE` end in a request (`Control`), for which the gas of the new frame has been
set aside already. Every instruction is charged its constant cost first; what it
does is charged as soon as it is known, before it is done.
-/

namespace MeteredLedger

/-- How a frame ends. -/
inductive Exit where
  /-- With output. -/
  | returned (output : Bytes)
  /-- With output, taking everything back. -/
  | reverted (output : Bytes)
  deriving DecidableEq, Repr

/-- A call. -/
structure Call where
  caller : Address
  address : Address
  input : Bytes
  gas : Gas
  value : Wei
  depth : Nat

/-- A creation. -/
structure Creation where
  creator : Address
  initCode : Bytes
  gas : Gas
  value : Wei
  depth : Nat

/-- What comes after an instruction. -/
inductive Control where
  /-- The next instruction. -/
  | next
  /-- The instruction that has been jumped to. -/
  | jumped
  /-- Nothing. -/
  | exit (how : Exit)
  /-- A call, whose output goes into a region of memory. -/
  | call (request : Call) (offset size : Nat)
  /-- A creation. -/
  | create (request : Creation)

/-! ### Words -/

/-- One for true, zero for false. -/
def boolWord (b : Bool) : Word := if b then 1 else 0

/-- A count as a word. -/
def natWord (n : Nat) : Word := BitVec.ofNat 256 n

/-- The address that the low bytes of a word spell. -/
def wordAddress (w : Word) : Address := ⟨w.setWidth 160⟩

/-- An address as a word. -/
def addressWord (a : Address) : Word := a.bits.setWidth 256

/-- A word as an amount of value, if it is one. -/
def wordWei? (w : Word) : Option Wei :=
  if w ≤ maxWei.setWidth 256 then some (w.setWidth 128) else none

/-- The word that bytes spell, the most significant first; of more than 32 the
last. -/
def bytesWord (bs : Bytes) : Word := BitVec.ofNat 256 (Bytes.ofBigEndian bs)

/-- The value that stores a word: nothing for zero. -/
def slotValue (w : Word) : Bytes := if w = 0 then [] else Bytes.bigEndian 32 w.toNat

/-- The word that an instruction puts in place of two, `a` being the top. -/
def Binary.eval : Binary → Word → Word → Word
  | .add, a, b => a + b
  | .mul, a, b => a * b
  | .sub, a, b => a - b
  | .div, a, b => if b = 0 then 0 else a / b
  | .mod, a, b => if b = 0 then 0 else a % b
  | .lt, a, b => boolWord (a < b)
  | .gt, a, b => boolWord (b < a)
  | .eq, a, b => boolWord (a = b)
  | .and, a, b => a &&& b
  | .or, a, b => a ||| b
  | .xor, a, b => a ^^^ b

/-- The word that an instruction puts in place of one. -/
def Unary.eval : Unary → Word → Word
  | .isZero, a => boolWord (a = 0)
  | .not, a => ~~~a

/-- The word that an instruction shows. -/
def Reading.eval (env : Setting) (m : Machine) : Reading → Word
  | .address => addressWord m.frame.address
  | .origin => addressWord env.context.origin
  | .caller => addressWord m.frame.caller
  | .callValue => m.frame.value.setWidth 256
  | .callDataSize => natWord m.frame.input.size
  | .codeSize => natWord m.frame.code.size
  | .returnDataSize => natWord m.frame.returned.length
  | .coinbase => addressWord env.context.coinbase
  | .timestamp => natWord env.context.timestamp.toNat
  | .number => natWord env.context.number.toNat
  | .gasLimit => natWord env.context.gasLimit.toNat
  | .selfBalance => (m.world.view.balance env.store m.frame.address).setWidth 256
  | .pc => natWord m.frame.pc
  | .memorySize => natWord m.frame.memory.size
  | .gas => natWord m.gas.remaining.toNat

/-- The gas that may be handed on: all but a 64th. -/
def forwardable (available : Gas) : Gas := available - available / 64

namespace Exec

/-- Charges for the words of a region that is gone through. -/
def chargeWords (price : Gas) (size : Nat) (op : Opcode) : Exec Unit :=
  charge (mulGasCapped price (gasOfNat (Memory.wordsFor size))) op.label

/-- Pays for a region and for copying it, and fills it from a buffer. -/
def copyToMemory (costs : EffectCosts) (op : Opcode) (source : Frame → Array UInt8) :
    Exec Unit := do
  let (target, start, size) ← popThree
  let (offset, size) ← region costs target size
  chargeWords costs.copy size op
  let buffer ← inspect fun m => source m.frame
  onMemory (·.writePadded offset buffer (clampOffset start buffer.size) size)

/-- What is copied is the buffer with zeros behind it. -/
theorem copyToMemory_eq (costs : EffectCosts) (op : Opcode) (source : Frame → Array UInt8) :
    copyToMemory costs op source = (do
      let (target, start, size) ← popThree
      let (offset, size) ← region costs target size
      chargeWords costs.copy size op
      let buffer ← inspect fun m => source m.frame
      writeMemory offset (zeroExtended buffer (clampOffset start buffer.size) size)) := by
  simp only [copyToMemory, writeMemory, Memory.writePadded_eq_write]

/-- Goes on at a word. -/
def jumpTo (dest : Word) : Exec Control := do
  let target ← orFail (← inspect fun m => m.frame.jumpTarget dest)
  modifyFrame fun f => { f with pc := target }
  return .jumped

/-- The depth of a frame below this one. -/
def depthBelow : Exec Nat := do
  let depth ← inspect (·.frame.depth)
  if depth + 1 < UInt64.size then return depth + 1 else throw (.fault .depthOverflow)

/-- Answers a request that is not made with zero. -/
def decline : Exec Control := do
  modifyFrame fun f => { f with returned := [] }
  push 0
  return .next

/-- Makes ready for a creation. -/
def create (costs : EffectCosts) : Exec Control := do
  let (value, offset, size) ← popThree
  let (offset, size) ← region costs offset size
  let initCode ← readMemory offset size
  match wordWei? value with
  | none => decline
  | some value =>
    let gas := forwardable (← inspect (·.gas.remaining))
    setAside gas Opcode.create.label
    let depth ← depthBelow
    return .create ⟨← inspect (·.frame.address), initCode, gas, value, depth⟩

/-- Makes ready for a call. -/
def call (costs : EffectCosts) : Exec Control := do
  let ws ← popMany 7
  let (inOffset, inSize) ← region costs (ws.get 3) (ws.get 4)
  let (outOffset, outSize) ← region costs (ws.get 5) (ws.get 6)
  let input ← readMemory inOffset inSize
  match wordWei? (ws.get 2) with
  | none => decline
  | some value =>
    let most := forwardable (← inspect (·.gas.remaining))
    let wanted := (ws.get 0).toNat
    let gas := if most.toNat < wanted then most else UInt64.ofNat wanted
    setAside gas Opcode.call.label
    let depth ← depthBelow
    let caller ← inspect (·.frame.address)
    return .call ⟨caller, wordAddress (ws.get 1), input, gas, value, depth⟩ outOffset outSize

/-- Leaves a log with some topics. -/
def log (costs : EffectCosts) (count : Nat) : Exec Unit := do
  let (offset, size) ← popTwo
  let topics ← popMany count
  let (offset, size) ← region costs offset size
  charge (addGasCapped (addGasCapped costs.log (mulGasCapped costs.logTopic (gasOfNat count)))
    (mulGasCapped costs.logData (gasOfNat size))) (Opcode.log count).label
  let data ← readMemory offset size
  let address ← inspect (·.frame.address)
  modifyView fun v => v.addLog ⟨address, topics.toList.map fun w => ⟨w⟩, data⟩

/-- Writes a storage slot. -/
def sstore (env : Setting) : Exec Unit := do
  let (key, value) ← popTwo
  let address ← inspect (·.frame.address)
  let slot : Slot := ⟨address, ⟨key⟩⟩
  let current ← inspect fun m => bytesWord (m.world.view.slot env.store slot)
  let costs := env.params.effects
  charge (if current = 0 ∧ value ≠ 0 then costs.sstoreSet else costs.sstoreReset)
    Opcode.sstore.label
  modifyView fun v => v.setSlot slot (slotValue value)

/-- Ends the frame with a region of memory as its output. -/
def finish (costs : EffectCosts) (how : Bytes → Exit) : Exec Control := do
  let (offset, size) ← popTwo
  let (offset, size) ← region costs offset size
  return .exit (how (← readMemory offset size))

/-- What an instruction does, its constant cost paid. -/
def perform (env : Setting) (op : Opcode) : Exec Control := do
  let costs := env.params.effects
  match op with
  | .stop => return .exit (.returned [])
  | .binary f => do
    let (a, b) ← popTwo
    push (f.eval a b)
    return .next
  | .unary f => do
    push (f.eval (← pop))
    return .next
  | .keccak256 => do
    let (offset, size) ← popTwo
    let (offset, size) ← region costs offset size
    chargeWords costs.keccakWord size op
    push (Hash.digest (← readMemory offset size)).bits
    return .next
  | .reading r => do
    push (← inspect fun m => r.eval env m)
    return .next
  | .balance => do
    let w ← pop
    push (← inspect fun m => (m.world.view.balance env.store (wordAddress w)).setWidth 256)
    return .next
  | .callDataLoad => do
    let w ← pop
    push (← inspect fun m =>
      bytesWord (zeroExtended m.frame.input (clampOffset w m.frame.input.size) 32))
    return .next
  | .callDataCopy => do
    copyToMemory costs op (·.input)
    return .next
  | .codeCopy => do
    copyToMemory costs op (·.code)
    return .next
  | .blockHash => do
    let w ← pop
    let hash :=
      if w.toNat < UInt64.size then env.context.blockHash (UInt64.ofNat w.toNat) else .zero
    push hash.bits
    return .next
  | .pop => do
    let _ ← pop
    return .next
  | .mload => do
    let (offset, _) ← region costs (← pop) 32
    push (← orFault (← inspect fun m => m.frame.memory.readWord offset))
    return .next
  | .mstore => do
    let (offset, value) ← popTwo
    let (offset, _) ← region costs offset 32
    onMemory (·.writeWord offset value)
    return .next
  | .mstore8 => do
    let (offset, value) ← popTwo
    let (offset, _) ← region costs offset 1
    onMemory (·.writeByte offset (UInt8.ofNat value.toNat))
    return .next
  | .sload => do
    charge costs.sload op.label
    let key ← pop
    push (← inspect fun m =>
      bytesWord (m.world.view.slot env.store ⟨m.frame.address, ⟨key⟩⟩))
    return .next
  | .sstore => do
    sstore env
    return .next
  | .jump => do
    jumpTo (← pop)
  | .jumpi => do
    let (dest, condition) ← popTwo
    if condition = 0 then return .next else jumpTo dest
  | .jumpdest => return .next
  | .push size => do
    push (← inspect fun m => bytesWord (zeroExtended m.frame.code (m.frame.pc + 1) size))
    modifyFrame fun f => { f with pc := f.pc + size }
    return .next
  | .dup position => do
    let stack ← orFail ((← inspect (·.frame.stack)).dup position)
    modifyFrame fun f => { f with stack }
    return .next
  | .swap position => do
    let stack ← orFail ((← inspect (·.frame.stack)).swap position)
    modifyFrame fun f => { f with stack }
    return .next
  | .log count => do
    log costs count
    return .next
  | .create => create costs
  | .call => call costs
  | .ret => finish costs .returned
  | .revert => finish costs .reverted
  | .invalid byte => fail (.invalidOpcode byte)

/-- The instruction of a byte of code. -/
def step (env : Setting) (byte : UInt8) : Exec Control := do
  let op := Opcode.ofByte byte
  match op.cost? env.params.instructions with
  | none => fail (.invalidOpcode byte)
  | some cost => do
    charge cost op.label
    perform env op

end Exec

end MeteredLedger
