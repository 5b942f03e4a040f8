import MeteredLedger.Transaction

/-!
# Blocks

A block is a header and the transactions that the header commits to through
`transactionsRoot`. The root of no transactions is the zero hash, that of some is
the hash of their hashes put together in order.
-/

namespace MeteredLedger

/-- What is known about a block beside its transactions. -/
structure Header where
  /-- The hash of the block before. -/
  parentHash : Hash
  /-- The number of the block. -/
  number : Height
  /-- The root of the state before the block. -/
  stateRoot : Hash
  /-- The root of the transactions. -/
  transactionsRoot : Hash
  /-- When the block was proposed, in seconds. -/
  timestamp : Timestamp
  /-- Who proposed it. -/
  proposer : Address
  /-- Any bytes. -/
  extraData : Bytes
  /-- The most gas that its transactions may declare together. -/
  gasLimit : Gas
  deriving DecidableEq, Repr

namespace Header

/-- A header without roots and extra data. -/
def fresh (parentHash : Hash) (number : Height) (timestamp : Timestamp) (proposer : Address)
    (gasLimit : Gas) : Header :=
  ⟨parentHash, number, .zero, .zero, timestamp, proposer, [], gasLimit⟩

/-- The bytes that the first block carries: a line of text in ASCII. -/
def genesisMark : Bytes := [
  0x52, 0x75, 0x73, 0x74, 0x43, 0x68, 0x61, 0x69, 0x6e, 0x20,
  0x47, 0x65, 0x6e, 0x65, 0x73, 0x69, 0x73, 0x20, 0x42, 0x6c, 0x6f, 0x63, 0x6b]

/-- The header of the first block. -/
def genesis : Header :=
  { fresh .zero 0 0 .zero 8000000 with extraData := genesisMark }

/-- The canonical bytes of a header. -/
def encode (h : Header) : Bytes :=
  h.parentHash.toBytes ++ Encoding.number h.number.toNat ++ h.stateRoot.toBytes
    ++ h.transactionsRoot.toBytes ++ Encoding.number h.timestamp.toNat ++ h.proposer.toBytes
    ++ Encoding.bytes h.extraData ++ Encoding.number h.gasLimit.toNat

/-- The hash that identifies a block. -/
def hash (h : Header) : Hash := .digest h.encode

end Header

/-- A record left by executed code. -/
structure Log where
  /-- The contract that left it. -/
  address : Address
  /-- Words to find it by. -/
  topics : List Hash
  /-- What it says. -/
  data : Bytes
  deriving DecidableEq, Repr

/-- What became of one transaction of a block. -/
structure Receipt where
  /-- The hash of the transaction. -/
  transactionHash : Hash
  /-- Its place in the block. -/
  transactionIndex : UInt64
  /-- The number of the block. -/
  blockNumber : Height
  /-- Who sent it. -/
  sender : Address
  /-- The recipient; none for a creation. -/
  recipient : Option Address
  /-- The gas that it is charged for. -/
  gasUsed : Gas
  /-- One if it took effect, else zero. -/
  status : UInt8
  /-- The contract that it created. -/
  contractAddress : Option Address
  /-- The records left on the way. -/
  logs : List Log
  deriving DecidableEq, Repr

/-- Whether the transaction took effect. -/
def Receipt.succeeded (r : Receipt) : Bool := r.status == 1

/-- A block. -/
structure Block where
  /-- What is known about it. -/
  header : Header
  /-- Its transactions, in the order of their execution. -/
  transactions : List Transaction
  deriving DecidableEq, Repr

namespace Block

/-- The bytes whose hash is the root of some transactions: their hashes in order. -/
def rootBytes (ts : List Transaction) : Bytes := ts.flatMap fun t => t.hash.toBytes

/-- The root of a list of transactions. -/
def rootOf (ts : List Transaction) : Hash :=
  if ts.isEmpty then .zero else .digest (rootBytes ts)

/-- A block whose header commits to the transactions. -/
def sealed (h : Header) (ts : List Transaction) : Block :=
  ⟨{ h with transactionsRoot := rootOf ts }, ts⟩

/-- The first block. -/
def genesis : Block := ⟨.genesis, []⟩

/-- The hash that identifies a block. -/
def hash (b : Block) : Hash := b.header.hash

/-- Whether the header commits to the transactions and each of them is signed. -/
def isValid (b : Block) : Bool :=
  rootOf b.transactions == b.header.transactionsRoot && b.transactions.all Transaction.isSigned

/-- Whether this is a first block: number zero, with no block before. -/
def isGenesis (b : Block) : Bool := b.header.number == 0 && b.header.parentHash.isZero

end Block

end MeteredLedger
