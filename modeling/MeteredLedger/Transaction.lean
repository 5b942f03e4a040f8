import MeteredLedger.Curve.Recoverable
import MeteredLedger.Encoding
import MeteredLedger.Quantity

/-!
# Transactions

A transaction asks for a call, or for a contract to be created when it names no
recipient. Its signature is made over the hash of all its other fields
(`encodeForSigning`), and the sender is whoever the signature recovers to; the
transaction's own hash covers the signature too (`encode`).
-/

namespace MeteredLedger

/-- Why a transaction cannot be signed, read or attributed. -/
inductive TransactionError where
  /-- There is no signature. -/
  | unsigned
  /-- The keys or the signature are not fit for use. -/
  | crypto (text : String)
  /-- Hexadecimal text cannot be read. -/
  | hex (error : HexError)
  /-- A value cannot be encoded. -/
  | encoding (text : String)
  deriving DecidableEq, Repr

namespace TransactionError

/-- The error of bytes that are no secret key. -/
def invalidKey : TransactionError := .crypto "malformed or out-of-range secret key"

/-- The error of a signature that no key made. -/
def invalidSignature : TransactionError := .crypto "malformed signature"

/-- The wording of an error. -/
def message : TransactionError → String
  | .unsigned => "Invalid signature"
  | .crypto text => "Crypto error: " ++ text
  | .hex error => "Hex decode error: " ++ error.message
  | .encoding text => "Bincode error: " ++ text

end TransactionError

/-- The signature of a transaction. -/
structure Signature where
  /-- The first number. -/
  r : Hash
  /-- The second number. -/
  s : Hash
  /-- The recovery number, of which the lowest two bits count. -/
  v : UInt8
  deriving DecidableEq, Repr

namespace Signature

/-- The signature of a digest by a secret key. -/
def ofCompact (c : Recoverable.Compact) : Signature :=
  ⟨⟨BitVec.ofNat 256 c.r⟩, ⟨BitVec.ofNat 256 c.s⟩, UInt8.ofNat c.recovery⟩

/-- The numbers of a signature. -/
def toCompact (σ : Signature) : Recoverable.Compact :=
  ⟨σ.r.bits.toNat, σ.s.bits.toNat, σ.v.toNat % 4⟩

/-- The canonical bytes of a signature. -/
def encode (σ : Signature) : Bytes := σ.r.toBytes ++ σ.s.toBytes ++ [σ.v]

end Signature

/-- A transaction. -/
structure Transaction where
  /-- The transactions that the signer has sent before. -/
  nonce : Nonce
  /-- The most gas that the transaction may use. -/
  gasLimit : Gas
  /-- The recipient; none to create a contract. -/
  recipient : Option Address
  /-- The value that goes with it. -/
  value : Wei
  /-- What the recipient is given, or the code that makes the contract. -/
  data : Bytes
  /-- The signature, once there is one. -/
  signature : Option Signature
  deriving DecidableEq, Repr

namespace Transaction

/-- A transaction that nobody has signed. -/
def unsigned (nonce : Nonce) (gasLimit : Gas) (recipient : Option Address) (value : Wei)
    (data : Bytes) : Transaction := ⟨nonce, gasLimit, recipient, value, data, none⟩

/-- The canonical bytes of all fields but the signature. -/
def encodeForSigning (t : Transaction) : Bytes :=
  Encoding.number t.nonce.toNat ++ Encoding.number t.gasLimit.toNat
    ++ Encoding.optional Address.toBytes t.recipient ++ Encoding.number t.value.toNat
    ++ Encoding.bytes t.data

/-- The canonical bytes of a transaction. -/
def encode (t : Transaction) : Bytes :=
  Encoding.number t.nonce.toNat ++ Encoding.number t.gasLimit.toNat
    ++ Encoding.optional Address.toBytes t.recipient ++ Encoding.number t.value.toNat
    ++ Encoding.bytes t.data ++ Encoding.optional Signature.encode t.signature

/-- The hash that identifies a transaction. -/
def hash (t : Transaction) : Hash := .digest t.encode

/-- The hash that the sender signs. -/
def signingHash (t : Transaction) : Hash := .digest t.encodeForSigning

/-- The signature that a secret key makes, if the bytes are one. -/
def signatureBy? (t : Transaction) (key : Bytes) : Option Signature := do
  let secret ← Recoverable.secret? key
  let c ← Recoverable.sign? secret t.signingHash.toBytes
  return .ofCompact c

/-- Signs the transaction at hand with a secret key. -/
def signing (key : Bytes) : EStateM TransactionError Transaction Unit := do
  let t ← get
  match t.signatureBy? key with
  | none => throw .invalidKey
  | some σ => set { t with signature := some σ }

/-- The transaction signed with a secret key. -/
def sign (t : Transaction) (key : Bytes) : Except TransactionError Transaction :=
  match signing key t with
  | .ok () signed => .ok signed
  | .error e _ => .error e

/-- The public key that the signature recovers to. -/
def recover (t : Transaction) : Except TransactionError Secp256k1.Point :=
  match t.signature with
  | none => .error .unsigned
  | some σ =>
    match Recoverable.recover? t.signingHash.toBytes σ.toCompact with
    | none => .error .invalidSignature
    | some key => .ok key

/-- Whether the transaction carries a signature that some key made. -/
def isSigned (t : Transaction) : Bool :=
  match t.recover with
  | .ok _ => true
  | .error _ => false

end Transaction

/-- The address of a public key: cut from the hash of its coordinates. -/
def Address.ofPublicKey : Secp256k1.Point → Address
  | .infinity => .zero
  | .affine x y => .ofHash (.digest (Bytes.bigEndian 32 x ++ Bytes.bigEndian 32 y))

/-- The address that a secret key controls. -/
def Address.ofSecretKey (key : Bytes) : Except TransactionError Address :=
  match Recoverable.secret? key with
  | none => .error .invalidKey
  | some secret => .ok (.ofPublicKey (Recoverable.publicKey secret))

/-- The address of whoever signed the transaction. -/
def Transaction.sender (t : Transaction) : Except TransactionError Address :=
  Address.ofPublicKey <$> t.recover

end MeteredLedger
