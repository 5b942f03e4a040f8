import MeteredLedger.Json.Records
import MeteredLedger.Proofs.Identifiers
import MeteredLedger.Proofs.Json.Text

/-!
# Records read back from their JSON

A type keeps its values in JSON if the form of a value is plain, so that its text reads back, and is
read as that value (`LawfulJsonForm`). Numbers do, as none of them is out of range; lists do if their
elements do; and what may be absent does if no value is written as null, which is how an absent one
is (`NeverNull`). A record does if its fields do and their names differ: every name is then that of
one member (`fields?_ofFields`).

So every record of the ledger is what its text spells, whatever text it was read from in the first
place (`records_round_trip`).
-/

namespace MeteredLedger

/-- **What is written reads back.** -/
class LawfulJsonForm (α : Type) [JsonForm α] : Prop where
  /-- The form of a value is plain, -/
  isPlain : ∀ a : α, (toJson a).isPlain = true
  /-- and is read as that value. -/
  reads : ∀ a : α, ofJson? (toJson a) = some a

/-- **No value is written as null.** -/
class NeverNull (α : Type) [JsonForm α] : Prop where
  ne_null : ∀ a : α, toJson a ≠ .null

attribute [simp] LawfulJsonForm.isPlain LawfulJsonForm.reads

namespace Json

/-! ### Numbers and lists -/

theorem isPlain_ofNat (n : Nat) : (ofNat n).isPlain = true := by
  simp [ofNat, isPlain]

theorem natBelow?_ofNat {n bound : Nat} (h : n < bound) : (ofNat n).natBelow? bound = some n :=
  if_pos h

theorem arePlain_map {α : Type} {f : α → Json} {xs : List α} (h : ∀ x ∈ xs, (f x).isPlain = true) :
    arePlain (xs.map f) = true := by
  induction xs with
  | nil => rw [List.map_nil, arePlain]
  | cons x xs ih =>
    rw [List.map_cons, arePlain, h x List.mem_cons_self,
      ih fun x hx => h x (List.mem_cons_of_mem _ hx), Bool.and_self]

/-- All of them are read, if each of them is. -/
theorem mapM_eq_some {α β : Type} {f : α → Option β} {g : α → β} {xs : List α}
    (h : ∀ x ∈ xs, f x = some (g x)) : xs.mapM f = some (xs.map g) := by
  induction xs with
  | nil => rfl
  | cons x xs ih =>
    rw [List.mapM_cons, h x List.mem_cons_self, ih fun x hx => h x (List.mem_cons_of_mem _ hx)]
    rfl

end Json

open Json (natBelow?_ofNat isPlain_ofNat)

instance : LawfulJsonForm UInt8 where
  isPlain n := isPlain_ofNat n.toNat
  reads n := by
    show UInt8.ofNat <$> (Json.ofNat n.toNat).natBelow? UInt8.size = some n
    rw [natBelow?_ofNat n.toNat_lt]
    exact congrArg some UInt8.ofNat_toNat

instance : LawfulJsonForm UInt64 where
  isPlain n := isPlain_ofNat n.toNat
  reads n := by
    show UInt64.ofNat <$> (Json.ofNat n.toNat).natBelow? UInt64.size = some n
    rw [natBelow?_ofNat n.toNat_lt]
    exact congrArg some UInt64.ofNat_toNat

instance {w : Nat} : LawfulJsonForm (BitVec w) where
  isPlain n := isPlain_ofNat n.toNat
  reads n := by
    have hlt : n.toNat < (BitVec.allOnes w).toNat + 1 := by
      have := n.isLt
      rw [BitVec.toNat_allOnes]
      omega
    show BitVec.ofNat w <$> (Json.ofNat n.toNat).natBelow? _ = some n
    rw [natBelow?_ofNat hlt]
    exact congrArg some (by simp)

instance {α : Type} [JsonForm α] [LawfulJsonForm α] : LawfulJsonForm (List α) where
  isPlain xs := by
    show (Json.array (xs.map toJson)).isPlain = true
    rw [Json.isPlain]
    exact Json.arePlain_map fun x _ => LawfulJsonForm.isPlain x
  reads xs := by
    show (xs.map toJson).mapM ofJson? = some xs
    rw [List.mapM_map]
    exact (Json.mapM_eq_some (g := id) fun x _ => LawfulJsonForm.reads x).trans (by rw [List.map_id])

instance {α : Type} [JsonForm α] : NeverNull (List α) where
  ne_null _ := nofun

/-- An absent value is null, and the others are not. -/
instance {α : Type} [JsonForm α] [LawfulJsonForm α] [NeverNull α] : LawfulJsonForm (Option α) where
  isPlain
    | none => by
      show Json.null.isPlain = true
      simp [Json.isPlain]
    | some a => LawfulJsonForm.isPlain a
  reads
    | none => rfl
    | some a => by
      show (match toJson a with
        | .null => some none
        | j => some <$> ofJson? j) = some (some a)
      split
      · rename_i hnull
        exact absurd hnull (NeverNull.ne_null a)
      · rw [LawfulJsonForm.reads]
        rfl

/-! ### Identifiers -/

theorem Hash.ofBytes?_toBytes (h : Hash) : ofBytes? h.toBytes = some h := by
  rw [ofBytes?, if_pos (areBytes.length_write h), areBytes.read_write]

theorem Address.ofBytes?_toBytes (a : Address) : ofBytes? a.toBytes = some a := by
  rw [ofBytes?, if_pos (areBytes.length_write a), areBytes.read_write]

instance : LawfulJsonForm Hash where
  isPlain h := LawfulJsonForm.isPlain h.toBytes
  reads h := by
    show ofJson? (toJson h.toBytes) >>= Hash.ofBytes? = some h
    rw [LawfulJsonForm.reads]
    exact h.ofBytes?_toBytes

instance : LawfulJsonForm Address where
  isPlain a := LawfulJsonForm.isPlain a.toBytes
  reads a := by
    show ofJson? (toJson a.toBytes) >>= Address.ofBytes? = some a
    rw [LawfulJsonForm.reads]
    exact a.ofBytes?_toBytes

instance : NeverNull Address where
  ne_null _ := nofun

/-! ### Records -/

namespace Json

variable {fs : List (String × Json)}

@[simp] theorem required?_some {α : Type} [JsonForm α] (j : Json) :
    (required? (some j) : Option α) = ofJson? j := rfl

@[simp] theorem optional?_some {α : Type} [JsonForm α] (j : Json) :
    optional? (some j) = (ofJson? j : Option (Option α)) := rfl

theorem isPlain_ofFields (h : ∀ f ∈ fs, f.2.isPlain = true) : (ofFields fs).isPlain = true := by
  rw [ofFields, isPlain]
  induction fs with
  | nil => rw [List.map_nil, arePlainMembers]
  | cons f fs ih =>
    rw [List.map_cons, arePlainMembers, h f List.mem_cons_self,
      ih fun f hf => h f (List.mem_cons_of_mem _ hf)]
    rfl

/-- A key that no field has. -/
theorem membersWith_eq_nil {key : String} (h : key ∉ fs.map Prod.fst) :
    membersWith key (fs.map fun (k, j) => (some k, j)) = [] := by
  rw [membersWith, List.filterMap_map, List.filterMap_eq_nil_iff]
  rintro ⟨k, j⟩ hf
  have hne : k ≠ key := by
    rintro rfl
    exact h (List.mem_map_of_mem hf)
  simp [hne]

/-- The key of one field, if all of them differ. -/
theorem membersWith_of_mem {key : String} {j : Json} (hn : (fs.map Prod.fst).Nodup)
    (h : (key, j) ∈ fs) : membersWith key (fs.map fun (k, j) => (some k, j)) = [j] := by
  induction fs with
  | nil => cases h
  | cons f fs ih =>
    obtain ⟨k, j'⟩ := f
    rw [List.map_cons, List.nodup_cons] at hn
    rw [List.map_cons, membersWith, List.filterMap_cons]
    by_cases hk : k = key
    · subst hk
      have hj : j = j' := by
        obtain h | h := List.mem_cons.1 h
        · exact (Prod.mk.inj h).2
        · exact absurd (List.mem_map_of_mem h) hn.1
      have hrest := membersWith_eq_nil hn.1
      rw [membersWith] at hrest
      simp [hj, hrest]
    · have hmem : (key, j) ∈ fs := by
        obtain h | h := List.mem_cons.1 h
        · exact absurd (Prod.mk.inj h).1.symm hk
        · exact h
      have hrest := ih hn.2 hmem
      rw [membersWith] at hrest
      simp [hk, hrest]

/-- **The fields of a record are found**, if their names differ. -/
theorem fields?_ofFields (hn : (fs.map Prod.fst).Nodup) :
    fields? (fs.map Prod.fst) (ofFields fs) = some (fs.map fun f => some f.2) := by
  have hkeys : ((fs.map fun (k, j) => (some k, j)).all fun m => m.1.isSome) = true := by simp
  rw [ofFields, fields?, if_pos hkeys, List.mapM_map]
  refine mapM_eq_some fun f hf => ?_
  unfold Function.comp onlyMember?
  rw [membersWith_of_mem hn hf]

/-- A record that is made of its fields again. -/
theorem reads_ofFields {α : Type} {names : List String} {build : List (Option Json) → Option α} {a : α}
    (hnames : fs.map Prod.fst = names) (hn : names.Nodup)
    (hbuild : build (fs.map fun f => some f.2) = some a) :
    fields? names (ofFields fs) >>= build = some a := by
  subst hnames
  rw [fields?_ofFields hn]
  exact hbuild

end Json

open Json (isPlain_ofFields reads_ofFields)

instance : LawfulJsonForm Signature where
  isPlain _ := isPlain_ofFields (by simp)
  reads _ := reads_ofFields rfl (by decide) (by simp)

instance : NeverNull Signature where
  ne_null _ := nofun

instance : LawfulJsonForm Transaction where
  isPlain _ := isPlain_ofFields (by simp)
  reads _ := reads_ofFields rfl (by decide) (by simp)

instance : LawfulJsonForm Header where
  isPlain _ := isPlain_ofFields (by simp)
  reads _ := reads_ofFields rfl (by decide) (by simp)

instance : LawfulJsonForm Block where
  isPlain _ := isPlain_ofFields (by simp)
  reads _ := reads_ofFields rfl (by decide) (by simp)

instance : LawfulJsonForm Log where
  isPlain _ := isPlain_ofFields (by simp)
  reads _ := reads_ofFields rfl (by decide) (by simp)

instance : LawfulJsonForm Receipt where
  isPlain _ := isPlain_ofFields (by simp)
  reads _ := reads_ofFields rfl (by decide) (by simp)

instance : LawfulJsonForm Account where
  isPlain _ := isPlain_ofFields (by simp)
  reads _ := reads_ofFields rfl (by decide) (by simp)

/-! ### Texts -/

namespace Json

/-- **A value is what its text spells.** -/
theorem read?_write {α : Type} [JsonForm α] [LawfulJsonForm α] (a : α) : read? (write a) = some a := by
  rw [read?, write, parse_render (LawfulJsonForm.isPlain a)]
  exact LawfulJsonForm.reads a

/-- Every value reads back from its text, and so does every value that a text spells. -/
def RoundTrips (α : Type) [JsonForm α] : Prop :=
  (∀ a : α, read? (write a) = some a) ∧
  ∀ (text : String) (a : α), read? text = some a → read? (write a) = some a

theorem roundTrips (α : Type) [JsonForm α] [LawfulJsonForm α] : RoundTrips α :=
  ⟨read?_write, fun _ a _ => read?_write a⟩

/-- **The records of the ledger read back from their JSON**, and what any text spells as one of them
is the same when it is written and read again. -/
theorem records_round_trip :
    RoundTrips Hash ∧ RoundTrips Address ∧ RoundTrips Signature ∧ RoundTrips Transaction ∧
      RoundTrips Header ∧ RoundTrips Block ∧ RoundTrips Log ∧ RoundTrips Receipt ∧
      RoundTrips Account :=
  ⟨roundTrips _, roundTrips _, roundTrips _, roundTrips _, roundTrips _, roundTrips _, roundTrips _,
    roundTrips _, roundTrips _⟩

/-! ### Texts that differ from what is written -/

namespace SparseTexts

/-- A transaction as an array, with the largest quantities and nothing signed. -/
def listed : String :=
  " [18446744073709551615, 0, null, 340282366920938463463374607431768211455, [255], null] "

/-- The same with names, in another order: what is absent is left out, and more is said. -/
def named : String :=
  "\x7b\"more\": [true, \"\\ud800\", -1.50e3],\"data\":[255], \"gas_limit\" : 0,\n\"value\":" ++
  "340282366920938463463374607431768211455,\"nonce\":18446744073709551615\x7d"

/-- A creation at both ends of the ranges, without a signature. -/
def transaction : Transaction := ⟨maxGas, 0, none, maxWei, [255], none⟩

end SparseTexts

open SparseTexts in
/-- Both texts spell the transaction, and so does the one that is written for it. -/
theorem records_round_trip_sparse :
    (read? listed : Option Transaction) = some transaction ∧
    (read? named : Option Transaction) = some transaction ∧
    (read? (write transaction) : Option Transaction) = some transaction := by
  have hlisted : (read? listed : Option Transaction) = some transaction := by decide +kernel
  have hnamed : (read? named : Option Transaction) = some transaction := by decide +kernel
  obtain ⟨-, -, -, ⟨-, hread⟩, -⟩ := records_round_trip
  exact ⟨hlisted, hnamed, hread named transaction hnamed⟩

end Json

end MeteredLedger
