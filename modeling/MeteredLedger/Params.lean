import MeteredLedger.Quantity

/-!
# Parameters

What instructions cost and how far frames and code may grow. The parameters are
fixed while a block is executed.
-/

namespace MeteredLedger

/-- What the instructions of each class cost. -/
structure InstructionCosts where
  /-- Instructions that are charged by what they do. -/
  zero : Gas
  /-- Reading a word of the frame or its surroundings. -/
  base : Gas
  /-- Sums, comparisons, bits and moves. -/
  veryLow : Gas
  /-- Products and quotients. -/
  low : Gas
  /-- A jump. -/
  mid : Gas
  /-- A jump under a condition. -/
  high : Gas
  /-- The place that a jump leads to. -/
  jumpdest : Gas
  /-- The balance of an account. -/
  balance : Gas
  /-- The hash of a block. -/
  blockhash : Gas
  /-- A hash. -/
  keccak : Gas
  deriving DecidableEq, Repr

/-- The instruction costs when nothing else is said. -/
def InstructionCosts.standard : InstructionCosts where
  zero := 0
  base := 2
  veryLow := 3
  low := 5
  mid := 8
  high := 10
  jumpdest := 1
  balance := 400
  blockhash := 20
  keccak := 30

instance : Inhabited InstructionCosts := ⟨.standard⟩

/-- What is charged for what an instruction does. -/
structure EffectCosts where
  /-- Entering a call. -/
  call : Gas
  /-- Moving value with a call. -/
  callValueTransfer : Gas
  /-- Entering a creation. -/
  create : Gas
  /-- A byte of deployed code. -/
  createData : Gas
  /-- Reading a storage slot. -/
  sload : Gas
  /-- Writing to a slot that reads as zero something else. -/
  sstoreSet : Gas
  /-- Any other write to a slot. -/
  sstoreReset : Gas
  /-- A log. -/
  log : Gas
  /-- A topic of a log. -/
  logTopic : Gas
  /-- A byte of a log. -/
  logData : Gas
  /-- A word of memory. -/
  memory : Gas
  /-- What the square of a memory's words is divided by. -/
  quadCoeffDiv : Gas
  /-- A hashed word. -/
  keccakWord : Gas
  /-- A copied word. -/
  copy : Gas
  deriving DecidableEq, Repr

/-- The effect costs when nothing else is said. -/
def EffectCosts.standard : EffectCosts where
  call := 700
  callValueTransfer := 9000
  create := 32000
  createData := 200
  sload := 800
  sstoreSet := 20000
  sstoreReset := 5000
  log := 375
  logTopic := 375
  logData := 8
  memory := 3
  quadCoeffDiv := 512
  keccakWord := 6
  copy := 3

instance : Inhabited EffectCosts := ⟨.standard⟩

/-- All parameters. -/
structure Params where
  /-- What the instructions of each class cost. -/
  instructions : InstructionCosts
  /-- What is charged for what an instruction does. -/
  effects : EffectCosts
  /-- How deep frames may nest below the first. -/
  maxCallDepth : UInt64
  /-- How many bytes deployed code may have. -/
  maxCodeSize : UInt64
  /-- The gas of a simulated transition. -/
  defaultGasLimit : Gas
  deriving DecidableEq, Repr

/-- The parameters when nothing else is said. -/
def Params.standard : Params where
  instructions := .standard
  effects := .standard
  maxCallDepth := 1024
  maxCodeSize := 24576
  defaultGasLimit := 100000000

instance : Inhabited Params := ⟨.standard⟩

end MeteredLedger
