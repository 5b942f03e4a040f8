import Mathlib.Data.List.Infix
import MeteredLedger.Block
import MeteredLedger.Proofs.Framing

/-!
# What the canonical bytes determine

Nothing stands between the fields of a record, and yet they can be told apart: each of them
says where it ends. A number does so by its first byte, which is either the number itself or
says how many bytes follow (`Encoding.number_shape`); a string of bytes stands behind its
length, and a value that may be absent behind a byte that says whether it is.

So the canonical bytes of a transaction begin those of no other, and determine every field of
it; the bytes that are signed determine every field but the signature, and the bytes of a
header all of it (`encoding_canonical`).

The length of a string is written as a number below `2 ^ 128`, and the strings of a
transaction and a header are taken to be no longer than that (`Transaction.Fits`,
`Header.Fits`).
-/

namespace MeteredLedger

/-- A beginning of what is written is nothing less than all of it. -/
theorem Delimits.prefix_iff {α : Type} {P : α → Prop} {write : α → Bytes} (h : Delimits P write)
    {a b : α} (ha : P a) (hb : P b) : write a <+: write b ↔ a = b := by
  constructor
  · rintro ⟨rest, hrest⟩
    refine (h a b rest [] ha hb ?_).1
    rw [hrest, List.append_nil]
  · rintro rfl
    exact List.prefix_rfl

/-! ### Numbers, strings and values that may be absent -/

namespace Encoding

/-- The number of bytes that follow the first byte of a number. -/
def following (first : UInt8) : Nat :=
  if first < 251 then 0 else if first = 251 then 2 else if first = 252 then 4
  else if first = 253 then 8 else 16

/-- **What a number is written as**: itself in one byte, or a marker and the digits that it
announces. -/
theorem number_shape {n : Nat} (h : n < 2 ^ 128) :
    (n < 251 ∧ number n = [UInt8.ofNat n]) ∨ ∃ marker : UInt8, 251 ≤ marker ∧
      n < 256 ^ following marker ∧
      number n = marker :: Bytes.littleEndian (following marker) n := by
  unfold number
  split_ifs with h₁ h₂ h₃ h₄
  · exact .inl ⟨h₁, rfl⟩
  · exact .inr ⟨251, by decide, h₂, rfl⟩
  · exact .inr ⟨252, by decide, h₃, rfl⟩
  · exact .inr ⟨253, by decide, h₄, rfl⟩
  · exact .inr ⟨254, by decide, h, rfl⟩

theorem toNat_ofNat_of_lt {n : Nat} (h : n < 251) : (UInt8.ofNat n).toNat = n := by
  rw [UInt8.toNat_ofNat', Nat.mod_eq_of_lt (by omega)]

/-- A number that is its own byte has no marker. -/
theorem ofNat_ne_marker {n : Nat} (h : n < 251) {marker : UInt8} (hm : 251 ≤ marker) :
    UInt8.ofNat n ≠ marker := by
  rintro rfl
  rw [UInt8.le_iff_toNat_le, toNat_ofNat_of_lt h] at hm
  exact absurd h (Nat.not_lt.2 hm)

end Encoding

open Encoding

theorem delimits_number : Delimits (· < 2 ^ 128) number := by
  intro m n x y hm hn h
  obtain ⟨hm, hwrite⟩ | ⟨marker, hmarker, hm, hwrite⟩ := number_shape hm <;>
    obtain ⟨hn, hwrite'⟩ | ⟨marker', hmarker', hn, hwrite'⟩ := number_shape hn <;>
    rw [hwrite, hwrite', List.cons_append, List.cons_append, List.cons.injEq] at h <;>
    obtain ⟨hfirst, hrest⟩ := h
  · have hvalue := congrArg UInt8.toNat hfirst
    rw [toNat_ofNat_of_lt hm, toNat_ofNat_of_lt hn] at hvalue
    exact ⟨hvalue, hrest⟩
  · exact absurd hfirst (ofNat_ne_marker hm hmarker')
  · exact absurd hfirst.symm (ofNat_ne_marker hn hmarker)
  · subst hfirst
    exact delimits_littleEndian _ m n x y hm hn hrest

/-- Amounts of gas, nonces, heights and times. -/
theorem delimits_count : Delimits (fun _ => True) fun n : UInt64 => number n.toNat := by
  intro m n x y _ _ h
  have hm : m.toNat < 2 ^ 128 := m.toNat_lt.trans (by decide)
  have hn : n.toNat < 2 ^ 128 := n.toNat_lt.trans (by decide)
  obtain ⟨hvalue, hrest⟩ := delimits_number _ _ x y hm hn h
  exact ⟨UInt64.toNat_inj.1 hvalue, hrest⟩

/-- Amounts of value. -/
theorem delimits_value : Delimits (fun _ => True) fun n : Wei => number n.toNat := by
  intro m n x y _ _ h
  obtain ⟨hvalue, hrest⟩ := delimits_number _ _ x y m.isLt n.isLt h
  exact ⟨BitVec.eq_of_toNat_eq hvalue, hrest⟩

theorem delimits_bytes : Delimits (fun bs => bs.length < 2 ^ 128) bytes := by
  intro as bs x y ha hb h
  rw [bytes, bytes, List.append_assoc, List.append_assoc] at h
  obtain ⟨hlength, hrest⟩ := delimits_number _ _ _ _ ha hb h
  exact List.append_inj hrest hlength

theorem delimits_optional {α : Type} {P : α → Prop} {write : α → Bytes} (h : Delimits P write) :
    Delimits (fun o => ∀ a ∈ o, P a) (optional write) := by
  rintro (_ | a) (_ | b) x y ha hb hab
  · exact ⟨rfl, (List.cons.inj hab).2⟩
  · exact absurd (List.cons.inj hab).1 (by decide)
  · exact absurd (List.cons.inj hab).1 (by decide)
  · obtain ⟨rfl, hrest⟩ := h a b x y (ha a rfl) (hb b rfl) (List.cons.inj hab).2
    exact ⟨rfl, hrest⟩

theorem delimits_signature : Delimits (fun _ => True) Signature.encode := by
  rintro ⟨r, s, v⟩ ⟨r', s', v'⟩ x y - - h
  simp only [Signature.encode, List.append_assoc, List.cons_append, List.nil_append] at h
  obtain ⟨rfl, h₁⟩ := delimits_hash r r' _ _ trivial trivial h
  obtain ⟨rfl, h₂⟩ := delimits_hash s s' _ _ trivial trivial h₁
  obtain ⟨rfl, hrest⟩ := List.cons.inj h₂
  exact ⟨rfl, hrest⟩

/-! ### Transactions -/

namespace Transaction

/-- The data has a length that can be written. -/
def Fits (t : Transaction) : Prop := t.data.length < 2 ^ 128

instance (t : Transaction) : Decidable t.Fits := inferInstanceAs (Decidable (_ < _))

/-- The transaction without its signature. -/
def content (t : Transaction) : Transaction := { t with signature := none }

/-- The bytes that are signed, and then the signature. -/
theorem encode_eq (t : Transaction) :
    t.encode = t.encodeForSigning ++ optional Signature.encode t.signature := rfl

/-- The fields before the data can be read back, whatever follows them. -/
theorem head_of_append {t u : Transaction} {x y : Bytes}
    (h : t.encodeForSigning ++ x = u.encodeForSigning ++ y) :
    { t.content with data := [] } = { u.content with data := [] } ∧
      bytes t.data ++ x = bytes u.data ++ y := by
  obtain ⟨nonce, gasLimit, recipient, value, data, signature⟩ := t
  obtain ⟨nonce', gasLimit', recipient', value', data', signature'⟩ := u
  simp only [encodeForSigning, List.append_assoc] at h
  obtain ⟨rfl, h₁⟩ := delimits_count nonce nonce' _ _ trivial trivial h
  obtain ⟨rfl, h₂⟩ := delimits_count gasLimit gasLimit' _ _ trivial trivial h₁
  obtain ⟨rfl, h₃⟩ := delimits_optional delimits_address recipient recipient' _ _
    (fun _ _ => trivial) (fun _ _ => trivial) h₂
  obtain ⟨rfl, h₄⟩ := delimits_value value value' _ _ trivial trivial h₃
  exact ⟨rfl, h₄⟩

/-- **What is signed says where it ends**: all fields but the signature can be read back. -/
theorem content_of_append {t u : Transaction} {x y : Bytes} (ht : t.Fits) (hu : u.Fits)
    (h : t.encodeForSigning ++ x = u.encodeForSigning ++ y) : t.content = u.content ∧ x = y := by
  obtain ⟨hhead, hrest⟩ := head_of_append h
  obtain ⟨hdata, hrest⟩ := delimits_bytes t.data u.data x y ht hu hrest
  refine ⟨?_, hrest⟩
  calc t.content = { { t.content with data := [] } with data := t.data } := rfl
    _ = { { u.content with data := [] } with data := u.data } := by rw [hhead, hdata]
    _ = u.content := rfl

end Transaction

theorem delimits_transaction : Delimits Transaction.Fits Transaction.encode := by
  intro t u x y ht hu h
  rw [Transaction.encode_eq, Transaction.encode_eq, List.append_assoc, List.append_assoc] at h
  obtain ⟨hcontent, h⟩ := Transaction.content_of_append ht hu h
  obtain ⟨hsignature, h⟩ := delimits_optional delimits_signature t.signature u.signature x y
    (fun _ _ => trivial) (fun _ _ => trivial) h
  refine ⟨?_, h⟩
  calc t = { t.content with signature := t.signature } := rfl
    _ = { u.content with signature := u.signature } := by rw [hcontent, hsignature]
    _ = u := rfl

/-! ### Data of any length -/

theorem Encoding.number_of_le {n : Nat} (h : 2 ^ 128 ≤ n) :
    number n = 254 :: Bytes.littleEndian 16 n := by
  have h₁ : ¬ n < 251 := by omega
  have h₂ : ¬ n < UInt16.size := by simp only [UInt16.size]; omega
  have h₃ : ¬ n < UInt32.size := by simp only [UInt32.size]; omega
  have h₄ : ¬ n < UInt64.size := by simp only [UInt64.size]; omega
  rw [number, if_neg h₁, if_neg h₂, if_neg h₃, if_neg h₄]

/-- A number too large to be written agrees below `2 ^ 128` with one that is written alike. -/
theorem Encoding.number_append_of_le {m n : Nat} {x y : Bytes} (hm : 2 ^ 128 ≤ m)
    (h : number m ++ x = number n ++ y) : m % 2 ^ 128 = n % 2 ^ 128 ∧ x = y := by
  have hn : number n = 254 :: Bytes.littleEndian 16 n := by
    by_cases hlt : n < 2 ^ 128
    · obtain ⟨hsmall, hwrite⟩ | ⟨marker, -, -, hwrite⟩ := number_shape hlt <;>
        rw [number_of_le hm, hwrite, List.cons_append, List.cons_append, List.cons.injEq] at h
      · exact absurd h.1.symm (ofNat_ne_marker hsmall (by decide))
      · rw [hwrite, ← h.1]
        rfl
    · exact number_of_le (Nat.le_of_not_lt hlt)
  rw [number_of_le hm, hn, List.cons_append, List.cons_append, List.cons.injEq] at h
  obtain ⟨hdigits, hrest⟩ := List.append_inj h.2 (by simp)
  have hread := congrArg Bytes.ofLittleEndian hdigits
  rw [Bytes.ofLittleEndian_littleEndian_mod, Bytes.ofLittleEndian_littleEndian_mod] at hread
  exact ⟨hread, hrest⟩

/-- Two numbers that are written alike agree below `2 ^ 128`. -/
theorem Encoding.number_append {m n : Nat} {x y : Bytes} (h : number m ++ x = number n ++ y) :
    m % 2 ^ 128 = n % 2 ^ 128 ∧ x = y := by
  by_cases hm : m < 2 ^ 128
  · by_cases hn : n < 2 ^ 128
    · obtain ⟨rfl, hrest⟩ := delimits_number m n x y hm hn h
      exact ⟨rfl, hrest⟩
    · obtain ⟨hmod, hrest⟩ := number_append_of_le (Nat.le_of_not_lt hn) h.symm
      exact ⟨hmod.symm, hrest.symm⟩
  · exact number_append_of_le (Nat.le_of_not_lt hm) h

theorem Signature.length_optional_le (σ : Option Signature) :
    (optional Signature.encode σ).length ≤ 66 := by
  cases σ <;> simp [Encoding.optional, Signature.encode, Hash.toBytes, Hash.width]

/-- **The bytes of a transaction are those of no other one**, however long the data: lengths that
are written alike would differ by far more than the signature that follows can make up for. -/
theorem Transaction.encode_injective : Function.Injective Transaction.encode := by
  intro t u h
  obtain ⟨hhead, hrest⟩ := head_of_append h
  rw [bytes, bytes, List.append_assoc, List.append_assoc] at hrest
  obtain ⟨hmod, hrest⟩ := number_append hrest
  have hlength := congrArg List.length hrest
  rw [List.length_append, List.length_append] at hlength
  have ht := Signature.length_optional_le t.signature
  have hu := Signature.length_optional_le u.signature
  obtain ⟨hdata, hrest⟩ := List.append_inj hrest (by omega)
  obtain ⟨hsignature, -⟩ := delimits_optional delimits_signature t.signature u.signature [] []
    (fun _ _ => trivial) (fun _ _ => trivial) (by rw [hrest])
  calc t = { { t.content with data := [] } with data := t.data, signature := t.signature } := rfl
    _ = { { u.content with data := [] } with data := u.data, signature := u.signature } := by
      rw [hhead, hdata, hsignature]
    _ = u := rfl

/-! ### Headers -/

/-- The extra data has a length that can be written. -/
def Header.Fits (h : Header) : Prop := h.extraData.length < 2 ^ 128

instance (h : Header) : Decidable h.Fits := inferInstanceAs (Decidable (_ < _))

theorem delimits_header : Delimits Header.Fits Header.encode := by
  rintro ⟨parent, number, state, transactions, timestamp, proposer, extra, gas⟩
    ⟨parent', number', state', transactions', timestamp', proposer', extra', gas'⟩ x y hh hk h
  simp only [Header.encode, List.append_assoc] at h
  obtain ⟨rfl, h₁⟩ := delimits_hash parent parent' _ _ trivial trivial h
  obtain ⟨rfl, h₂⟩ := delimits_count number number' _ _ trivial trivial h₁
  obtain ⟨rfl, h₃⟩ := delimits_hash state state' _ _ trivial trivial h₂
  obtain ⟨rfl, h₄⟩ := delimits_hash transactions transactions' _ _ trivial trivial h₃
  obtain ⟨rfl, h₅⟩ := delimits_count timestamp timestamp' _ _ trivial trivial h₄
  obtain ⟨rfl, h₆⟩ := delimits_address proposer proposer' _ _ trivial trivial h₅
  obtain ⟨rfl, h₇⟩ := delimits_bytes extra extra' _ _ hh hk h₆
  obtain ⟨rfl, hrest⟩ := delimits_count gas gas' x y trivial trivial h₇
  exact ⟨rfl, hrest⟩

/-- **The encoding is canonical.** The bytes of a transaction begin those of no other one, so
that they are never the same for two; the bytes that are signed begin those of another
transaction only if the two agree in all but the signature, and the bytes of a transaction are
what is signed and then the signature. The bytes of a header begin those of no other. -/
theorem encoding_canonical :
    (∀ t u : Transaction, t.Fits → u.Fits → (t.encode <+: u.encode ↔ t = u)) ∧
    (∀ t u : Transaction, t.Fits → u.Fits → (t.encodeForSigning <+: u.encodeForSigning ↔
      t.nonce = u.nonce ∧ t.gasLimit = u.gasLimit ∧ t.recipient = u.recipient ∧
        t.value = u.value ∧ t.data = u.data)) ∧
    (∀ t : Transaction,
      t.encode = t.encodeForSigning ++ Encoding.optional Signature.encode t.signature) ∧
    ∀ h k : Header, h.Fits → k.Fits → (h.encode <+: k.encode ↔ h = k) := by
  refine ⟨fun t u ht hu => delimits_transaction.prefix_iff ht hu, fun t u ht hu => ?_,
    Transaction.encode_eq, fun h k hh hk => delimits_header.prefix_iff hh hk⟩
  constructor
  · rintro ⟨rest, hrest⟩
    rw [← List.append_nil u.encodeForSigning] at hrest
    obtain ⟨hcontent, -⟩ := Transaction.content_of_append ht hu hrest
    have hfields := Transaction.mk.inj hcontent
    exact ⟨hfields.1, hfields.2.1, hfields.2.2.1, hfields.2.2.2.1, hfields.2.2.2.2.1⟩
  · rintro ⟨hnonce, hgas, hrecipient, hvalue, hdata⟩
    rw [Transaction.encodeForSigning, Transaction.encodeForSigning, hnonce, hgas, hrecipient,
      hvalue, hdata]

namespace EncodedPair

/-- A creation whose nonce and gas stand on both sides of the largest one-byte number. -/
def draft : Transaction := .unsigned 250 251 none 70000 [1, 2]

/-- It is signed. -/
def signed : Transaction := { draft with signature := some ⟨.zero, .zero, 1⟩ }

end EncodedPair

open EncodedPair in
/-- A transaction and its draft are signed alike, but the bytes of neither begin the other's; so
it is for two headers whose numbers differ. -/
theorem encoding_canonical_signed :
    draft.Fits ∧ signed.Fits ∧ draft.encodeForSigning <+: signed.encodeForSigning ∧
      ¬ draft.encode <+: signed.encode ∧ ¬ signed.encode <+: draft.encode ∧
      Header.genesis.Fits ∧
      ¬ Header.genesis.encode <+: { Header.genesis with number := 1 }.encode := by
  have hdraft : draft.Fits := by decide
  have hsigned : signed.Fits := by decide
  have hgenesis : Header.genesis.Fits := by decide
  have hnext : { Header.genesis with number := 1 }.Fits := by decide
  obtain ⟨htransactions, hsigning, -, hheaders⟩ := encoding_canonical
  refine ⟨hdraft, hsigned, (hsigning draft signed hdraft hsigned).2 (by decide), ?_, ?_,
    hgenesis, ?_⟩
  · rw [htransactions draft signed hdraft hsigned]
    decide
  · rw [htransactions signed draft hsigned hdraft]
    decide
  · rw [hheaders _ _ hgenesis hnext]
    decide

end MeteredLedger
