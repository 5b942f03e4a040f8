import Mathlib.Data.Nat.Bitwise
import MeteredLedger.Message
import MeteredLedger.Proofs.Action

/-!
# Signing and recovering

A signature is kept as two words and a byte. The numbers that signing makes fit
(`Compact.Fits`), so they come back from there as they were, and since the hash
that is signed does not read the signature, a signed transaction recovers to the
key that signed it. That a signature of some bytes recovers to its key at all is
a property of the curve, and an assumption here (`Recoverable.Recovers`).
-/

namespace MeteredLedger

namespace Recoverable

open Secp256k1

variable {secret digest k tries : Nat} {key message : Bytes} {c : Compact}

/-! ### Secret keys -/

/-- These bytes are a secret key: 32 of them, that spell a number from one up to
the order of the curve. -/
def IsSecret (key : Bytes) : Prop :=
  key.length = 32 ∧ 0 < Bytes.ofBigEndian key ∧ Bytes.ofBigEndian key < order

theorem IsSecret.secret?_eq (h : IsSecret key) : secret? key = some (Bytes.ofBigEndian key) :=
  if_pos h

theorem secret?_eq_none (h : ¬ IsSecret key) : secret? key = none := if_neg h

/-! ### The numbers of a signature -/

/-- The numbers of a signature fit into two words, and the recovery number into
two bits. -/
structure Compact.Fits (c : Compact) : Prop where
  r_lt : c.r < 2 ^ 256
  s_lt : c.s < 2 ^ 256
  recovery_lt : c.recovery < 4

theorem order_lt : order < 2 ^ 256 := by decide

theorem signWith?_fits (h : signWith? secret digest k = some c) : c.Fits := by
  have pos : 0 < order := by decide
  have below := order_lt
  simp only [signWith?] at h
  split at h
  · cases h
  · split at h
    · cases h
    · next x y _ =>
      split at h
      · cases h
      · have hr : x % order < order := Nat.mod_lt _ pos
        have hs := Nat.mod_lt
          (Modular.inverse order k * ((digest + x % order * secret) % order)) pos
        have hv : (if order ≤ x then 2 else 0) + y % 2 < 2 ^ 2 := by split <;> omega
        split at h <;> cases h
        -- taking the lower value of the second number flips one bit of the recovery number
        · exact ⟨hr.trans below, (Nat.sub_le ..).trans_lt below, Nat.xor_lt_two_pow hv (by decide)⟩
        · exact ⟨hr.trans below, hs.trans below, hv⟩

theorem signFirst?_fits {candidates : Candidates}
    (h : signFirst? secret digest tries candidates = some c) : c.Fits := by
  induction tries generalizing candidates with
  | zero => cases h
  | succ tries ih =>
    simp only [signFirst?] at h
    split at h
    · next hc =>
      cases h
      exact signWith?_fits hc
    · exact ih h

theorem sign?_fits (h : sign? secret message = some c) : c.Fits := signFirst?_fits h

/-- A first candidate that is fit makes the signature. -/
theorem sign?_of_first (hk : (Candidates.start secret message).next.1 = k)
    (hc : signWith? secret (Bytes.ofBigEndian message) k = some c) :
    sign? secret message = some c := by
  simp only [sign?, attempts, signFirst?, hk, hc]

/-- Signing these bytes with a secret key makes a signature, and the signature
recovers to the key's public key. That there is a signature at all is part of it,
since no more than `attempts` candidates are tried. -/
def Recovers (secret : Nat) (message : Bytes) : Prop :=
  ∃ c, sign? secret message = some c ∧ recover? message c = some (publicKey secret)

end Recoverable

/-- A signature comes back from two words and a byte. -/
theorem Signature.toCompact_ofCompact {c : Recoverable.Compact} (h : c.Fits) :
    (Signature.ofCompact c).toCompact = c := by
  obtain ⟨r, s, recovery⟩ := c
  obtain ⟨hr, hs, hv⟩ := h
  simp only at hr hs hv
  have byte : (UInt8.ofNat recovery).toNat = recovery :=
    UInt8.toNat_ofNat_of_lt' (hv.trans (by decide))
  simp only [Signature.ofCompact, Signature.toCompact, BitVec.toNat_ofNat,
    Nat.mod_eq_of_lt hr, Nat.mod_eq_of_lt hs, byte, Nat.mod_eq_of_lt hv]

namespace Transaction

open Recoverable (IsSecret Recovers)

variable {t : Transaction} {key : Bytes}

/-! ### Signing a transaction -/

/-- The signature is not part of what is signed. -/
theorem signingHash_signature (t : Transaction) (σ : Option Signature) :
    { t with signature := σ }.signingHash = t.signingHash := rfl

/-- Signing, with what it reports and the transaction that it leaves. -/
theorem signing_apply (key : Bytes) (t : Transaction) :
    signing key t =
      match t.signatureBy? key with
      | none => .error .invalidKey t
      | some σ => .ok () { t with signature := some σ } := by
  rw [signing, bind_apply]
  change (match t.signatureBy? key with
    | none => throw .invalidKey
    | some σ => set { t with signature := some σ } : EStateM TransactionError Transaction Unit) t = _
  cases t.signatureBy? key <;> rfl

/-- A secret key makes the signature of the signing hash. -/
theorem signatureBy?_of_isSecret {c : Recoverable.Compact} (hk : IsSecret key)
    (hc : Recoverable.sign? (Bytes.ofBigEndian key) t.signingHash.toBytes = some c) :
    t.signatureBy? key = some (.ofCompact c) := by
  rw [signatureBy?, hk.secret?_eq, Option.bind_eq_bind, Option.bind_some, hc]
  rfl

/-- Bytes that are no secret key make no signature. -/
theorem signatureBy?_of_not_isSecret (hk : ¬ IsSecret key) : t.signatureBy? key = none := by
  rw [signatureBy?, Recoverable.secret?_eq_none hk]
  rfl

/-- A transaction that carries the signature of its own signing hash recovers to
the key that made it. -/
theorem recover_of_signature {c : Recoverable.Compact} {secret : Nat}
    (hc : Recoverable.sign? secret t.signingHash.toBytes = some c)
    (hr : Recoverable.recover? t.signingHash.toBytes c = some (Recoverable.publicKey secret)) :
    { t with signature := some (.ofCompact c) }.recover = .ok (Recoverable.publicKey secret) := by
  simp only [recover, signingHash_signature,
    Signature.toCompact_ofCompact (Recoverable.sign?_fits hc), hr]

/-- What a secret key's signature makes of a transaction: another signature and
nothing else, by which it is the address of the key that sent it. -/
structure SignedBy (key : Bytes) (t signed : Transaction) : Prop where
  fields : signed = { t with signature := signed.signature }
  signingHash : signed.signingHash = t.signingHash
  isSigned : signed.isSigned = true
  sender : ∃ a, Address.ofSecretKey key = .ok a ∧ signed.sender = .ok a ∧
    ∃ m, Message.ofTransaction signed = .ok m ∧ m.sender = a

/-- The message of a transaction is sent by the transaction's sender. -/
theorem exists_message {a : Address} (h : t.sender = .ok a) :
    ∃ m, Message.ofTransaction t = .ok m ∧ m.sender = a := by
  simp only [Message.ofTransaction, h]
  cases t.recipient with
  | none => exact ⟨_, rfl, rfl⟩
  | some recipient => exact ⟨_, rfl, rfl⟩

theorem signedBy_of_signature {c : Recoverable.Compact} (hk : IsSecret key)
    (hc : Recoverable.sign? (Bytes.ofBigEndian key) t.signingHash.toBytes = some c)
    (hr : Recoverable.recover? t.signingHash.toBytes c
      = some (Recoverable.publicKey (Bytes.ofBigEndian key))) :
    SignedBy key t { t with signature := some (.ofCompact c) } := by
  have recovered := recover_of_signature hc hr
  have sender : { t with signature := some (.ofCompact c) }.sender
      = .ok (.ofPublicKey (Recoverable.publicKey (Bytes.ofBigEndian key))) := by
    rw [Transaction.sender, recovered]
    rfl
  refine ⟨rfl, signingHash_signature .., ?_, _, ?_, sender, exists_message sender⟩
  · rw [isSigned, recovered]
  · rw [Address.ofSecretKey, hk.secret?_eq]

/-- If the signature of a transaction's signing hash recovers to the key that made
it, then signing with a secret key makes the transaction one that its address has
sent; bytes that are no secret key are refused, and the transaction, with any
earlier signature, is as it was. -/
theorem signing_attributes (t : Transaction) (key : Bytes) :
    (IsSecret key → Recovers (Bytes.ofBigEndian key) t.signingHash.toBytes →
      ∃ signed, signing key t = .ok () signed ∧ SignedBy key t signed) ∧
    (¬ IsSecret key → ∃ text, signing key t = .error (.crypto text) t) := by
  constructor
  · rintro hk ⟨c, hc, hr⟩
    refine ⟨_, ?_, signedBy_of_signature hk hc hr⟩
    rw [signing_apply, signatureBy?_of_isSecret hk hc]
  · intro hk
    exact ⟨_, by rw [signing_apply, signatureBy?_of_not_isSecret hk]; rfl⟩

/-! ### A payment -/

/-- A secret key of 32 equal bytes. -/
def sevens : Bytes := List.replicate 32 7

/-- A payment that nobody has signed. -/
def payment : Transaction := .unsigned 0 50000 (some ⟨2⟩) 5 []

/-- The number of the key. -/
def sevensSecret : Nat := 0x0707070707070707070707070707070707070707070707070707070707070707

/-- The bytes of the payment's signing hash. -/
def paymentDigest : Bytes :=
  [119, 135, 190, 56, 217, 1, 54, 67, 173, 131, 96, 153, 102, 42, 92, 142,
    104, 43, 8, 79, 229, 158, 100, 3, 177, 60, 193, 171, 208, 233, 46, 167]

/-- The signature of the payment. -/
def paymentSignature : Recoverable.Compact :=
  ⟨114491728882484851869211953748196808485617762321708415269506584092525478343880,
    35763337244084636484183577470204390612893298909902897006316213302994366371577, 1⟩

/-- The public key of the key. -/
def sevensPublic : Secp256k1.Point :=
  .affine 69027260248659306275840823370188273920876699951663018989466199780360433196911
    44834275856942549241562684285056004617267665047167784621269869971922794372992

theorem sevens_secret : Bytes.ofBigEndian sevens = sevensSecret := by decide

theorem sevens_isSecret : IsSecret sevens := by
  rw [IsSecret, sevens_secret]
  decide

theorem payment_digest : payment.signingHash.toBytes = paymentDigest := by decide +kernel

/-- The first candidate is fit, and the signature that it makes recovers to the key. -/
theorem payment_recovers : Recovers sevensSecret paymentDigest := by
  have candidate : (Recoverable.Candidates.start sevensSecret paymentDigest).next.1
      = 79104263990726845929448625321616773416376183653162904255340625064224003781532 := by
    decide +kernel
  have signed : Recoverable.sign? sevensSecret paymentDigest = some paymentSignature :=
    Recoverable.sign?_of_first candidate (by decide +kernel)
  have recovered : Recoverable.recover? paymentDigest paymentSignature = some sevensPublic := by
    decide +kernel
  have known : Recoverable.publicKey sevensSecret = sevensPublic := by decide +kernel
  exact ⟨paymentSignature, signed, by rw [known, recovered]⟩

/-- The key `0x07…07` signs the payment and is named as its sender; an empty key is rejected. -/
theorem signing_attributes_payment :
    (IsSecret sevens ∧ Recovers (Bytes.ofBigEndian sevens) payment.signingHash.toBytes ∧
      ∃ signed, signing sevens payment = .ok () signed ∧ SignedBy sevens payment signed) ∧
    ¬ IsSecret [] ∧ ∃ text, signing [] payment = .error (.crypto text) payment := by
  have recovers : Recovers (Bytes.ofBigEndian sevens) payment.signingHash.toBytes := by
    rw [sevens_secret, payment_digest]
    exact payment_recovers
  have empty : ¬ IsSecret [] := fun h => absurd h.1 (by decide)
  exact ⟨⟨sevens_isSecret, recovers,
    (signing_attributes payment sevens).1 sevens_isSecret recovers⟩,
    empty, (signing_attributes payment []).2 empty⟩

end Transaction

end MeteredLedger
