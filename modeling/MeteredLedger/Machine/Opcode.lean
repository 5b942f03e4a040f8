import MeteredLedger.Bytes
import MeteredLedger.Params

/-!
# Instructions

A byte of code is an instruction, or `invalid`. The instructions come in
families, so that what a family has in common is said once: those that compute a
word from two, those that show a word of the frame or its surroundings, and the
numbered ones. Each has a label, under which its cost is counted, and a tier that
fixes the cost.

`jumpTargets` marks where a jump may lead: to a `jumpdest` that the decoding from
the front meets as an instruction, not to one among the bytes that a `push`
carries.
-/

namespace MeteredLedger

/-- The instructions that compute a word from two. -/
inductive Binary where
  | add | mul | sub | div | mod | lt | gt | eq | and | or | xor
  deriving DecidableEq, Repr

/-- The instructions that compute a word from one. -/
inductive Unary where
  | isZero | not
  deriving DecidableEq, Repr

/-- The instructions that show a word of the frame or its surroundings. -/
inductive Reading where
  | address | origin | caller | callValue | callDataSize | codeSize | returnDataSize
  | coinbase | timestamp | number | gasLimit | selfBalance | pc | memorySize | gas
  deriving DecidableEq, Repr

/-- An instruction. -/
inductive Opcode where
  /-- Ends the frame without output. -/
  | stop
  /-- Puts a word in place of two. -/
  | binary (op : Binary)
  /-- Puts a word in place of one. -/
  | unary (op : Unary)
  /-- Hashes a region of memory. -/
  | keccak256
  /-- Shows a word. -/
  | reading (word : Reading)
  /-- Shows the balance of an address. -/
  | balance
  /-- Shows a word of the input. -/
  | callDataLoad
  /-- Copies a part of the input to memory. -/
  | callDataCopy
  /-- Copies a part of the code to memory. -/
  | codeCopy
  /-- Shows the hash of a block. -/
  | blockHash
  /-- Drops a word. -/
  | pop
  /-- Reads a word of memory. -/
  | mload
  /-- Writes a word to memory. -/
  | mstore
  /-- Writes a byte to memory. -/
  | mstore8
  /-- Reads a storage slot. -/
  | sload
  /-- Writes a storage slot. -/
  | sstore
  /-- Goes on elsewhere. -/
  | jump
  /-- Goes on elsewhere unless a word is zero. -/
  | jumpi
  /-- Does nothing; a jump may lead here. -/
  | jumpdest
  /-- Shows the word spelled by the `size` bytes behind it, from 1 to 32. -/
  | push (size : Nat)
  /-- Copies the word at a position, from 1 to 16. -/
  | dup (position : Nat)
  /-- Exchanges the top with the word so far below it, from 1 to 16. -/
  | swap (position : Nat)
  /-- Leaves a log with so many topics, up to 4. -/
  | log (topics : Nat)
  /-- Creates a contract. -/
  | create
  /-- Calls an account. -/
  | call
  /-- Ends the frame with output. -/
  | ret
  /-- Ends the frame with output and takes everything back. -/
  | revert
  /-- No instruction. -/
  | invalid (byte : UInt8)
  deriving DecidableEq, Repr

namespace Opcode

/-- The instruction of a byte. -/
def ofByte (b : UInt8) : Opcode :=
  match b.toNat with
  | 0x00 => stop
  | 0x01 => binary .add
  | 0x02 => binary .mul
  | 0x03 => binary .sub
  | 0x04 => binary .div
  | 0x06 => binary .mod
  | 0x10 => binary .lt
  | 0x11 => binary .gt
  | 0x14 => binary .eq
  | 0x15 => unary .isZero
  | 0x16 => binary .and
  | 0x17 => binary .or
  | 0x18 => binary .xor
  | 0x19 => unary .not
  | 0x20 => keccak256
  | 0x30 => reading .address
  | 0x31 => balance
  | 0x32 => reading .origin
  | 0x33 => reading .caller
  | 0x34 => reading .callValue
  | 0x35 => callDataLoad
  | 0x36 => reading .callDataSize
  | 0x37 => callDataCopy
  | 0x38 => reading .codeSize
  | 0x39 => codeCopy
  | 0x3d => reading .returnDataSize
  | 0x40 => blockHash
  | 0x41 => reading .coinbase
  | 0x42 => reading .timestamp
  | 0x43 => reading .number
  | 0x45 => reading .gasLimit
  | 0x47 => reading .selfBalance
  | 0x50 => pop
  | 0x51 => mload
  | 0x52 => mstore
  | 0x53 => mstore8
  | 0x54 => sload
  | 0x55 => sstore
  | 0x56 => jump
  | 0x57 => jumpi
  | 0x58 => reading .pc
  | 0x59 => reading .memorySize
  | 0x5a => reading .gas
  | 0x5b => jumpdest
  | 0xf0 => create
  | 0xf1 => call
  | 0xf3 => ret
  | 0xfd => revert
  | n =>
    if 0x60 ≤ n ∧ n ≤ 0x7f then push (n - 0x5f)
    else if 0x80 ≤ n ∧ n ≤ 0x8f then dup (n - 0x7f)
    else if 0x90 ≤ n ∧ n ≤ 0x9f then swap (n - 0x8f)
    else if 0xa0 ≤ n ∧ n ≤ 0xa4 then log (n - 0xa0)
    else invalid b

/-- The label under which the cost of an instruction is counted. -/
def label : Opcode → String
  | stop => "STOP"
  | binary .add => "ADD"
  | binary .mul => "MUL"
  | binary .sub => "SUB"
  | binary .div => "DIV"
  | binary .mod => "MOD"
  | binary .lt => "LT"
  | binary .gt => "GT"
  | binary .eq => "EQ"
  | binary .and => "AND"
  | binary .or => "OR"
  | binary .xor => "XOR"
  | unary .isZero => "ISZERO"
  | unary .not => "NOT"
  | keccak256 => "KECCAK256"
  | reading .address => "ADDRESS"
  | reading .origin => "ORIGIN"
  | reading .caller => "CALLER"
  | reading .callValue => "CALLVALUE"
  | reading .callDataSize => "CALLDATASIZE"
  | reading .codeSize => "CODESIZE"
  | reading .returnDataSize => "RETURNDATASIZE"
  | reading .coinbase => "COINBASE"
  | reading .timestamp => "TIMESTAMP"
  | reading .number => "NUMBER"
  | reading .gasLimit => "GASLIMIT"
  | reading .selfBalance => "SELFBALANCE"
  | reading .pc => "PC"
  | reading .memorySize => "MSIZE"
  | reading .gas => "GAS"
  | balance => "BALANCE"
  | callDataLoad => "CALLDATALOAD"
  | callDataCopy => "CALLDATACOPY"
  | codeCopy => "CODECOPY"
  | blockHash => "BLOCKHASH"
  | pop => "POP"
  | mload => "MLOAD"
  | mstore => "MSTORE"
  | mstore8 => "MSTORE8"
  | sload => "SLOAD"
  | sstore => "SSTORE"
  | jump => "JUMP"
  | jumpi => "JUMPI"
  | jumpdest => "JUMPDEST"
  | push _ => "PUSH"
  | dup _ => "DUP"
  | swap _ => "SWAP"
  | log _ => "LOG"
  | create => "CREATE"
  | call => "CALL"
  | ret => "RETURN"
  | revert => "REVERT"
  | invalid _ => "INVALID"

/-- What an instruction costs before it does anything; none for `invalid`. -/
def cost? (costs : InstructionCosts) : Opcode → Option Gas
  | stop | create | call | ret | revert | sload | sstore | log _ => some costs.zero
  | reading .selfBalance => some costs.low
  | reading _ | pop => some costs.base
  | binary .mul | binary .div | binary .mod => some costs.low
  | binary _ | unary _ | callDataLoad | callDataCopy | codeCopy | mload | mstore | mstore8
  | push _ | dup _ | swap _ => some costs.veryLow
  | jump => some costs.mid
  | jumpi => some costs.high
  | jumpdest => some costs.jumpdest
  | balance => some costs.balance
  | blockHash => some costs.blockhash
  | keccak256 => some costs.keccak
  | invalid _ => none

/-- The bytes behind an instruction that belong to it. -/
def carried : Opcode → Nat
  | push size => size
  | _ => 0

/-- The bytes carried by an instruction that carries any. -/
def pushSize? : Opcode → Option Nat
  | push size => some size
  | _ => none

/-- The position of the word that an instruction copies. -/
def dupPosition? : Opcode → Option Nat
  | dup position => some position
  | _ => none

/-- How far below the top the word lies that an instruction exchanges. -/
def swapPosition? : Opcode → Option Nat
  | swap position => some position
  | _ => none

/-- The topics of the log that an instruction leaves. -/
def logTopics? : Opcode → Option Nat
  | log topics => some topics
  | _ => none

end Opcode

namespace Code

/-- For every byte of code whether a jump may lead to it, when the next `carried`
bytes belong to the instruction before. -/
def targetsAfter : (carried : Nat) → Bytes → List Bool
  | _, [] => []
  | 0, b :: code =>
    let op := Opcode.ofByte b
    decide (op = .jumpdest) :: targetsAfter op.carried code
  | carried + 1, _ :: code => false :: targetsAfter carried code

/-- For every byte of code whether a jump may lead to it. -/
def jumpTargets (code : Bytes) : List Bool := targetsAfter 0 code

@[simp] theorem length_targetsAfter (carried : Nat) (code : Bytes) :
    (targetsAfter carried code).length = code.length := by
  induction code generalizing carried with
  | nil => cases carried <;> rfl
  | cons b code ih => cases carried <;> simp [targetsAfter, ih]

@[simp] theorem length_jumpTargets (code : Bytes) : (jumpTargets code).length = code.length :=
  length_targetsAfter 0 code

end Code

end MeteredLedger
