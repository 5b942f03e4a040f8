import MeteredLedger.Proofs.View.Publish

/-!
# The store is canonical

What is empty is not kept: an account, a value, a code that is written empty is taken away, and with
the last slot of an address goes the map of its slots (`Storage.Tidy`). So every entry of a store
that has come about by writing says something (`Store.Canonical`), and nothing is left of what was
written and cleared again. A place that reads as empty therefore has no entry, and two stores that
read the same everywhere are the same (`Store.Canonical.eq_of_reads`), by whatever writes they have
come about (`Store.contents_canonical`).
-/

namespace MeteredLedger

/-! ### Storage -/

namespace Storage

/-- **No address has an empty map of slots.** -/
def Tidy (m : Storage) : Prop := ∀ (a : Address) keys, m.maps[a]? = some keys → keys ≠ ∅

theorem tidy_empty : (∅ : Storage).Tidy := by
  intro a keys h
  rw [show (∅ : Storage).maps = ∅ from rfl, Std.ExtTreeMap.getElem?_empty] at h
  cases h

variable {m n : Storage}

theorem Tidy.insert (h : m.Tidy) (x : Slot) (value : Bytes) : (m.insert x value).Tidy := by
  intro a keys hkeys
  rw [Storage.insert, Std.ExtTreeMap.getElem?_insert] at hkeys
  split_ifs at hkeys
  · obtain rfl := Option.some.inj hkeys
    exact Std.ExtTreeMap.insert_ne_empty
  · exact h a keys hkeys

theorem Tidy.erase (h : m.Tidy) (x : Slot) : (m.erase x).Tidy := by
  unfold Storage.erase
  split
  · exact h
  · rename_i keys _
    intro a left hleft
    -- the map that the slot was in is kept only if something is left in it
    obtain ⟨hsome, rfl⟩ | hbefore := Maps.entry_write hleft
    · rwa [← Bool.not_eq_true, Std.ExtTreeMap.isEmpty_iff] at hsome
    · exact h a left hbefore

theorem exists_key {keys : KeyMap Bytes} (h : keys ≠ ∅) :
    ∃ (key : Hash) (value : Bytes), keys[key]? = some value := by
  by_contra hnone
  push Not at hnone
  refine h (Std.ExtTreeMap.ext_getElem? fun key => ?_)
  rw [Std.ExtTreeMap.getElem?_empty, Option.eq_none_iff_forall_ne_some]
  exact hnone key

/-- An address whose slots are all read in other storage has a map there. -/
theorem Tidy.exists_map (hm : m.Tidy) (h : ∀ x : Slot, m[x]? = n[x]?) {a : Address}
    {keys : KeyMap Bytes} (hkeys : m.maps[a]? = some keys) : n.maps[a]? = some keys := by
  obtain ⟨key, value, hvalue⟩ := exists_key (hm a keys hkeys)
  have hread : ∀ key : Hash, keys[key]? = n.maps[a]?.bind fun keys => keys[key]? := by
    intro key
    have hx := h ⟨a, key⟩
    rw [getElem?_eq, getElem?_eq, hkeys] at hx
    exact hx
  cases hn : n.maps[a]? with
  | none =>
    have hx := hread key
    rw [hvalue, hn] at hx
    cases hx
  | some keys' =>
    rw [hn] at hread
    exact congrArg some (Std.ExtTreeMap.ext_getElem? fun key => (hread key).symm)

/-- **Tidy storage is what is read of it.** -/
theorem Tidy.eq_of_getElem? (hm : m.Tidy) (hn : n.Tidy) (h : ∀ x : Slot, m[x]? = n[x]?) :
    m = n := by
  obtain ⟨maps⟩ := m
  obtain ⟨maps'⟩ := n
  congr 1
  refine Std.ExtTreeMap.ext_getElem? fun a => Option.ext fun keys => ?_
  exact ⟨hm.exists_map h, hn.exists_map fun x => (h x).symm⟩

theorem Tidy.eq_of_toList (hm : m.Tidy) (hn : n.Tidy) (h : m.toList = n.toList) : m = n := by
  refine hm.eq_of_getElem? hn fun x => Option.ext fun value => ?_
  rw [← mem_toList_iff, ← mem_toList_iff, h]

end Storage

/-! ### The store -/

namespace Store

/-- **Nothing in the store is empty.** -/
structure Canonical (s : Store) : Prop where
  /-- No account is, -/
  account : ∀ (a : Address) x, s.accounts[a]? = some x → x.isEmpty = false
  /-- and neither is the value of a slot, -/
  slot : ∀ (x : Slot) value, s.slots[x]? = some value → value ≠ []
  /-- the map of the slots of an address, -/
  storage : s.slots.Tidy
  /-- or a code. -/
  code : ∀ (a : Address) code, s.code[a]? = some code → code ≠ []

theorem canonical_empty : empty.Canonical where
  account a x h := by
    rw [show empty.accounts = ∅ from rfl, Std.ExtTreeMap.getElem?_empty] at h
    cases h
  slot x value h := by
    rw [show empty.slots = ∅ from rfl, Storage.getElem?_empty] at h
    cases h
  storage := Storage.tidy_empty
  code a code h := by
    rw [show empty.code = ∅ from rfl, Std.ExtTreeMap.getElem?_empty] at h
    cases h

namespace Canonical

variable {s t : Store}

theorem putAccount (h : s.Canonical) (a : Address) (x : Account) :
    (s.putAccount a x).Canonical where
  account b y hy := by
    obtain ⟨hempty, rfl⟩ | hbefore := Maps.entry_write hy
    · exact hempty
    · exact h.account b y hbefore
  slot := h.slot
  storage := h.storage
  code := h.code

theorem putSlot (h : s.Canonical) (x : Slot) (value : Bytes) : (s.putSlot x value).Canonical where
  account := h.account
  slot y other hy := by
    unfold Store.putSlot at hy
    dsimp only at hy
    split_ifs at hy with hempty
    · rw [Storage.getElem?_erase] at hy
      split_ifs at hy
      exact h.slot y other hy
    · rw [Storage.getElem?_insert] at hy
      split_ifs at hy
      · obtain rfl := Option.some.inj hy
        rwa [List.isEmpty_iff] at hempty
      · exact h.slot y other hy
  storage := by
    unfold Store.putSlot
    dsimp only
    split_ifs
    · exact h.storage.erase x
    · exact h.storage.insert x value
  code := h.code

theorem putCode (h : s.Canonical) (a : Address) (code : Bytes) : (s.putCode a code).Canonical where
  account := h.account
  slot := h.slot
  storage := h.storage
  code b other hb := by
    obtain ⟨hempty, rfl⟩ | hbefore := Maps.entry_write hb
    · rwa [← Bool.not_eq_true, List.isEmpty_iff] at hempty
    · exact h.code b other hbefore

/-- Changes made together are made one after another. -/
theorem apply (h : s.Canonical) (c : Changes) : (s.apply c).Canonical := by
  have haccounts := Maps.foldl_keeps (P := Canonical) (fun _ a x h => h.putAccount a x) c.accounts h
  have hslots := Maps.foldl_keeps (P := Canonical) (fun _ x value h => h.putSlot x value) c.slots
    haccounts
  exact Maps.foldl_keeps (P := Canonical) (fun _ a code h => h.putCode a code) c.code hslots

/-! ### Reading -/

/-- An entry that is not what is read where there is none is told by what is read. -/
theorem eq_of_getD {α : Type} {none : α} {o o' : Option α} (ho : ∀ x, o = some x → x ≠ none)
    (ho' : ∀ x, o' = some x → x ≠ none) (h : o.getD none = o'.getD none) : o = o' := by
  cases o with
  | none =>
    cases o' with
    | none => rfl
    | some x => exact absurd h.symm (ho' x rfl)
  | some x =>
    cases o' with
    | none => exact absurd h (ho x rfl)
    | some y => exact congrArg some h

/-- **Two canonical stores that read the same everywhere are the same.** -/
theorem eq_of_reads (hs : s.Canonical) (ht : t.Canonical)
    (haccount : ∀ a, s.account a = t.account a) (hslot : ∀ x, s.slot x = t.slot x)
    (hcode : ∀ a, s.codeAt a = t.codeAt a) : s = t := by
  have nonempty : ∀ {x : Account}, x.isEmpty = false → x ≠ .empty := by
    rintro _ h rfl
    cases h
  have haccounts : s.accounts = t.accounts := Std.ExtTreeMap.ext_getElem? fun a =>
    eq_of_getD (fun x hx => nonempty (hs.account a x hx)) (fun x hx => nonempty (ht.account a x hx))
      (haccount a)
  have hslots : s.slots = t.slots := hs.storage.eq_of_getElem? ht.storage fun x =>
    eq_of_getD (hs.slot x) (ht.slot x) (hslot x)
  have hcodes : s.code = t.code := Std.ExtTreeMap.ext_getElem? fun a =>
    eq_of_getD (hs.code a) (ht.code a) (hcode a)
  obtain ⟨accounts, slots, code⟩ := s
  cases haccounts
  cases hslots
  cases hcodes
  rfl

end Canonical

theorem canonical_ofAccounts (accounts : List (Address × Account)) :
    (ofAccounts accounts).Canonical := by
  refine List.foldlRecOn _ _ canonical_empty fun s hs e _ => ?_
  dsimp only
  split_ifs
  · exact hs
  · exact hs.putAccount e.1 e.2

/-! ### Histories -/

/-- A write to the store. -/
inductive Write where
  /-- An account is written. -/
  | account (a : Address) (x : Account)
  /-- A slot is written. -/
  | slot (x : Slot) (value : Bytes)
  /-- The code of an address is written. -/
  | code (a : Address) (code : Bytes)
  /-- Changes are made together. -/
  | changes (c : Changes)

/-- The store after a write. -/
def write (s : Store) : Write → Store
  | .account a x => s.putAccount a x
  | .slot x value => s.putSlot x value
  | .code a code => s.putCode a code
  | .changes c => s.apply c

/-- The store that starts with some accounts, after some writes. -/
def afterWrites (accounts : List (Address × Account)) (writes : List Write) : Store :=
  writes.foldl write (ofAccounts accounts)

theorem Canonical.write {s : Store} (h : s.Canonical) (w : Write) : (s.write w).Canonical := by
  cases w with
  | account a x => exact h.putAccount a x
  | slot x value => exact h.putSlot x value
  | code a code => exact h.putCode a code
  | changes c => exact h.apply c

theorem canonical_afterWrites (accounts : List (Address × Account)) (writes : List Write) :
    (afterWrites accounts writes).Canonical :=
  List.foldlRecOn _ _ (canonical_ofAccounts accounts) fun _ h w _ => h.write w

/-- **The store is canonical**: after any writes, from any accounts, it holds no empty account, no
empty value, no address with an empty map of slots and no empty code. So two stores in which every
address has the same account and the same code, or none, and every slot the same value, or none, are
the same and have the same root, by whatever writes they have come about. -/
theorem contents_canonical (accounts : List (Address × Account)) (writes : List Write) :
    (afterWrites accounts writes).Canonical ∧
    ∀ accounts' writes',
      (∀ a : Address,
        (afterWrites accounts writes).accounts[a]? = (afterWrites accounts' writes').accounts[a]?) →
      (∀ x : Slot,
        (afterWrites accounts writes).slots[x]? = (afterWrites accounts' writes').slots[x]?) →
      (∀ a : Address,
        (afterWrites accounts writes).code[a]? = (afterWrites accounts' writes').code[a]?) →
      afterWrites accounts writes = afterWrites accounts' writes' ∧
        (afterWrites accounts writes).root = (afterWrites accounts' writes').root := by
  have hcanonical := canonical_afterWrites accounts writes
  refine ⟨hcanonical, fun accounts' writes' haccount hslot hcode => ?_⟩
  have heq : afterWrites accounts writes = afterWrites accounts' writes' :=
    hcanonical.eq_of_reads (canonical_afterWrites accounts' writes')
      (fun a => congrArg (Option.getD · _) (haccount a))
      (fun x => congrArg (Option.getD · _) (hslot x)) fun a => congrArg (Option.getD · _) (hcode a)
  exact ⟨heq, congrArg root heq⟩

/-! ### Writes that are cleared again -/

namespace Cleared

/-- The accounts at the start; an empty one is passed over. -/
def opening : List (Address × Account) := [(⟨1⟩, .ofBalance 5), (⟨3⟩, .ofBalance 1), (⟨1⟩, .empty)]

/-- Three slots are written one by one; two are cleared together, one of them the last of its
address. -/
def writes : List Write :=
  [.slot ⟨⟨2⟩, ⟨3⟩⟩ [7], .slot ⟨⟨2⟩, ⟨4⟩⟩ [9], .slot ⟨⟨5⟩, ⟨1⟩⟩ [1], .code ⟨5⟩ [0],
    .changes (((Changes.empty.putSlot ⟨⟨5⟩, ⟨1⟩⟩ []).putSlot ⟨⟨2⟩, ⟨4⟩⟩ []).putCode ⟨5⟩ []),
    .account ⟨3⟩ .empty]

/-- What is left of them, written at once. -/
def batch : List Write :=
  [.changes ((Changes.empty.putSlot ⟨⟨2⟩, ⟨3⟩⟩ [7]).putAccount ⟨1⟩ (.ofBalance 5))]

/-- The store that has come about step by step. -/
def gradual : Store := afterWrites opening writes

/-- The store that has come about at once. -/
def sudden : Store := afterWrites [] batch

end Cleared

open Cleared in
/-- Both ways end in one store, which keeps nothing of the address whose only slot was cleared. -/
theorem contents_canonical_cleared :
    (∀ a : Address, gradual.accounts[a]? = sudden.accounts[a]?) ∧
    (∀ x : Slot, gradual.slots[x]? = sudden.slots[x]?) ∧
    (∀ a : Address, gradual.code[a]? = sudden.code[a]?) ∧
    gradual.Canonical ∧ gradual.slots.maps[(⟨5⟩ : Address)]? = none ∧ gradual = sudden := by
  have haccounts : gradual.accounts = sudden.accounts :=
    Std.ExtTreeMap.toList_inj.1 (by decide +kernel)
  have hslots : gradual.slots.toList = sudden.slots.toList := by decide +kernel
  have hcodes : gradual.code = sudden.code := Std.ExtTreeMap.toList_inj.1 (by decide +kernel)
  have haccount : ∀ a : Address, gradual.accounts[a]? = sudden.accounts[a]? := by
    intro a
    rw [haccounts]
  have hslot : ∀ x : Slot, gradual.slots[x]? = sudden.slots[x]? := by
    refine fun x => Option.ext fun value => ?_
    rw [← Storage.mem_toList_iff, ← Storage.mem_toList_iff, hslots]
  have hcode : ∀ a : Address, gradual.code[a]? = sudden.code[a]? := by
    intro a
    rw [hcodes]
  have hmap : gradual.slots.maps[(⟨5⟩ : Address)]?.isNone = true := by decide +kernel
  obtain ⟨hcanonical, same⟩ := contents_canonical opening writes
  exact ⟨haccount, hslot, hcode, hcanonical, Option.isNone_iff_eq_none.1 hmap,
    (same [] batch haccount hslot hcode).1⟩

end Store

end MeteredLedger
