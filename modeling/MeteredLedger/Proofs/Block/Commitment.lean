import MeteredLedger.Proofs.Block.Admission
import MeteredLedger.Proofs.Encoding

/-!
# What a block commits to

The root of some transactions is a hash of hashes: those of their canonical bytes, put together in
order. A hash has 32 bytes, so the hashes can be told apart in what they make together, and the
canonical bytes of a transaction are those of no other. So a root tells everything about the list:
which transactions there are, how many, in which order and with which signatures
(`rootOf_inj`), as long as the hash tells apart the strings that it is asked for, and gives none
of them the hash that stands for the empty list (`Hash.Separates`).
-/

namespace MeteredLedger

/-- **The hash tells some strings apart**, and from no string at all. -/
structure Hash.Separates (xs : List Bytes) : Prop where
  /-- No two of them have the same hash, -/
  injective : ∀ x ∈ xs, ∀ y ∈ xs, Hash.digest x = Hash.digest y → x = y
  /-- and none has the zero hash. -/
  nonzero : ∀ x ∈ xs, Hash.digest x ≠ .zero

theorem Hash.Separates.mono {xs ys : List Bytes} (h : Separates ys) (hsub : xs ⊆ ys) :
    Separates xs :=
  ⟨fun x hx y hy => h.injective x (hsub hx) y (hsub hy), fun x hx => h.nonzero x (hsub hx)⟩

/-- The hashes say whether the strings are told apart. -/
theorem Hash.Separates.of_map_digest {xs : List Bytes} (hnodup : (xs.map Hash.digest).Nodup)
    (hzero : Hash.zero ∉ xs.map Hash.digest) : Separates xs :=
  ⟨fun _ hx _ hy => List.inj_on_of_nodup_map hnodup hx hy,
    fun _ hx h => hzero (h ▸ List.mem_map_of_mem hx)⟩

/-- A transaction is signed if a key is recovered from a signature that it carries. -/
theorem Transaction.isSigned_iff_exists_signature (t : Transaction) :
    t.isSigned = true ↔ ∃ σ key, t.signature = some σ ∧
      Recoverable.recover? t.signingHash.toBytes σ.toCompact = some key := by
  rw [isSigned_iff]
  constructor
  · rintro ⟨key, hkey⟩
    unfold recover at hkey
    split at hkey
    · cases hkey
    · rename_i σ hσ
      split at hkey
      · cases hkey
      · rename_i key' hrecover
        exact ⟨σ, key', hσ, hrecover⟩
  · rintro ⟨σ, key, hσ, hrecover⟩
    exact ⟨key, recover_eq_ok hσ hrecover⟩

namespace Block

/-- The strings that are hashed for the root of some transactions: the bytes of each of them, and
then all their hashes together, if there are any. -/
def hashedStrings (ts : List Transaction) : List Bytes :=
  ts.map Transaction.encode ++ if ts.isEmpty then [] else [rootBytes ts]

variable {ts us : List Transaction}

theorem encode_mem_hashedStrings {t : Transaction} (h : t ∈ ts) :
    t.encode ∈ hashedStrings ts :=
  List.mem_append_left _ (List.mem_map_of_mem h)

theorem rootBytes_mem_hashedStrings (h : ts ≠ []) : rootBytes ts ∈ hashedStrings ts := by
  rw [hashedStrings, if_neg (by simpa using h)]
  exact List.mem_append_right _ (List.mem_singleton_self _)

theorem rootOf_of_ne_nil (h : ts ≠ []) : rootOf ts = .digest (rootBytes ts) := by
  rw [rootOf, if_neg (by simpa using h)]

/-- Hashes can be told apart in what they make together. -/
theorem map_hash_of_rootBytes (h : rootBytes ts = rootBytes us) :
    ts.map Transaction.hash = us.map Transaction.hash := by
  have hbytes : ∀ ts : List Transaction,
      rootBytes ts = (ts.map Transaction.hash).flatMap Hash.toBytes := fun ts =>
    (List.flatMap_map _ _ _).symm
  rw [hbytes, hbytes] at h
  refine delimits_hash.flatMap_end (fun a _ hnil => ?_) (fun _ _ => trivial) (fun _ _ => trivial) h
  have hlength := congrArg List.length hnil
  simp [Hash.toBytes, Hash.width] at hlength

/-- Lists of the same hashes are the same, if the hash tells their bytes apart. -/
theorem eq_of_map_hash (h : ∀ t ∈ ts, ∀ u ∈ us, t.hash = u.hash → t.encode = u.encode)
    (hmap : ts.map Transaction.hash = us.map Transaction.hash) : ts = us := by
  induction ts generalizing us with
  | nil => exact (List.map_eq_nil_iff.1 hmap.symm).symm
  | cons t ts ih =>
    cases us with
    | nil => cases hmap
    | cons u us =>
      rw [List.map_cons, List.map_cons, List.cons.injEq] at hmap
      obtain ⟨hhash, hrest⟩ := hmap
      have hbytes := h t List.mem_cons_self u List.mem_cons_self hhash
      rw [Transaction.encode_injective hbytes, ih (fun t ht u hu =>
        h t (List.mem_cons_of_mem _ ht) u (List.mem_cons_of_mem _ hu)) hrest]

/-- The zero hash is the root of the empty list alone. -/
theorem rootOf_eq_zero_iff (h : Hash.Separates (hashedStrings ts)) : rootOf ts = .zero ↔ ts = [] := by
  constructor
  · intro hzero
    by_contra hne
    rw [rootOf_of_ne_nil hne] at hzero
    exact h.nonzero _ (rootBytes_mem_hashedStrings hne) hzero
  · rintro rfl
    rfl

/-- **A root tells the list.** -/
theorem rootOf_inj (h : Hash.Separates (hashedStrings ts ++ hashedStrings us)) :
    rootOf ts = rootOf us ↔ ts = us := by
  have hleft : hashedStrings ts ⊆ hashedStrings ts ++ hashedStrings us := List.subset_append_left _ _
  have hright : hashedStrings us ⊆ hashedStrings ts ++ hashedStrings us :=
    List.subset_append_right _ _
  refine ⟨fun hroot => ?_, congrArg rootOf⟩
  by_cases hts : ts = []
  · subst hts
    exact ((rootOf_eq_zero_iff (h.mono hright)).1 hroot.symm).symm
  by_cases hus : us = []
  · subst hus
    exact (rootOf_eq_zero_iff (h.mono hleft)).1 hroot
  rw [rootOf_of_ne_nil hts, rootOf_of_ne_nil hus] at hroot
  have hbytes := h.injective _ (hleft (rootBytes_mem_hashedStrings hts)) _
    (hright (rootBytes_mem_hashedStrings hus)) hroot
  refine eq_of_map_hash (fun t ht u hu hhash => ?_) (map_hash_of_rootBytes hbytes)
  exact h.injective _ (hleft (encode_mem_hashedStrings ht)) _
    (hright (encode_mem_hashedStrings hu)) hhash

/-- A sealed block is valid exactly if all of its transactions are signed. -/
theorem isValid_sealed_iff (h : Header) (ts : List Transaction) :
    (Block.sealed h ts).isValid = true ↔ ∀ t ∈ ts, t.isSigned = true := by
  simp [isValid, Block.sealed]

theorem rootOf_of_isValid {b : Block} (h : b.isValid = true) :
    b.header.transactionsRoot = rootOf b.transactions := by
  rw [isValid, Bool.and_eq_true, beq_iff_eq] at h
  exact h.1.symm

/-- **A block commits to its transactions.** A sealed block is valid exactly if from every one of
its transactions, by a signature that it carries, a key is recovered. Two valid blocks, whatever
their headers say otherwise, have the same root exactly if they have the same transactions in the
same order with the same signatures, and the root is zero exactly if there are none: if no two of
the strings that are hashed for the two roots have the same hash, and none of them the zero hash. -/
theorem commits_to_transactions :
    (∀ h ts, (Block.sealed h ts).isValid = true ↔ ∀ t ∈ ts, ∃ σ key, t.signature = some σ ∧
      Recoverable.recover? t.signingHash.toBytes σ.toCompact = some key) ∧
    ∀ b c : Block,
      Hash.Separates (hashedStrings b.transactions ++ hashedStrings c.transactions) →
      b.isValid = true → c.isValid = true →
      (b.header.transactionsRoot = c.header.transactionsRoot ↔ b.transactions = c.transactions) ∧
      (b.header.transactionsRoot = .zero ↔ b.transactions = []) := by
  refine ⟨fun h ts => ?_, fun b c hseparates hb hc => ?_⟩
  · rw [isValid_sealed_iff]
    exact forall₂_congr fun t _ => t.isSigned_iff_exists_signature
  · rw [rootOf_of_isValid hb, rootOf_of_isValid hc]
    exact ⟨rootOf_inj hseparates,
      rootOf_eq_zero_iff (hseparates.mono (List.subset_append_left _ _))⟩

open BlockExecution.BurntBlock in
/-- The transaction once and twice make three strings, told apart by the hash. -/
theorem separates_blocks :
    Hash.Separates (hashedStrings (block 1).transactions ++ hashedStrings (block 2).transactions) := by
  -- each string is hashed on its own: what the kernel holds on to for one is given up for the next
  have hsingle : Hash.digest spender.encode =
      ⟨0xca51a8626e3e7325308286983424dedc39d4eded0943f3638026784b3b4c05af⟩ := by decide +kernel
  have honce : Hash.digest (rootBytes [spender]) =
      ⟨0x4fd250615fe9999628790eb0dc074a36cdaafaf8c80b6bb08dc21acfbef9744f⟩ := by
    simp only [rootBytes, List.flatMap_cons, List.flatMap_nil, Transaction.hash, hsingle]
    decide +kernel
  have htwice : Hash.digest (rootBytes [spender, spender]) =
      ⟨0xefb222b134197afc180422285fd4d336276a79d3824d85aeed063c9f6b7b79de⟩ := by
    simp only [rootBytes, List.flatMap_cons, List.flatMap_nil, Transaction.hash, hsingle]
    decide +kernel
  have h : Hash.Separates [spender.encode, rootBytes [spender], rootBytes [spender, spender]] := by
    refine .of_map_digest ?_ ?_ <;>
      rw [List.map_cons, List.map_cons, List.map_cons, List.map_nil, hsingle, honce, htwice] <;>
      decide
  refine h.mono ?_
  simp [hashedStrings, block, Block.sealed, List.replicate]

open BlockExecution.BurntBlock in
/-- One signed transaction once, and the same one twice: the two blocks are valid and have
different roots, neither of which is zero. -/
theorem commits_to_transactions_repeated :
    (∃ σ key, spender.signature = some σ ∧
      Recoverable.recover? spender.signingHash.toBytes σ.toCompact = some key) ∧
    Hash.Separates (hashedStrings (block 1).transactions ++ hashedStrings (block 2).transactions) ∧
    (block 1).isValid = true ∧ (block 2).isValid = true ∧
    (block 1).header.transactionsRoot ≠ (block 2).header.transactionsRoot ∧
    (block 1).header.transactionsRoot ≠ .zero := by
  obtain ⟨hsealed, hroots⟩ := commits_to_transactions
  obtain ⟨hroot, hzero⟩ := hroots (block 1) (block 2) separates_blocks (isValid_block 1) (isValid_block 2)
  have hsigned := (hsealed { Header.genesis with gasLimit := maxGas } (List.replicate 1 spender)).1
    (isValid_block 1)
  have hlengths : ∀ n, (block n).transactions.length = n := fun n => List.length_replicate
  refine ⟨hsigned spender (List.mem_singleton_self _), separates_blocks, isValid_block 1, isValid_block 2,
    fun h => ?_, fun h => ?_⟩
  · have hlength := congrArg List.length (hroot.1 h)
    rw [hlengths, hlengths] at hlength
    cases hlength
  · have hlength := congrArg List.length (hzero.1 h)
    rw [hlengths] at hlength
    cases hlength

end Block

end MeteredLedger
