import MeteredLedger.Proofs.Framing
import MeteredLedger.Proofs.Store.Canonical

/-!
# What the root of a store commits to

The root is the hash of three sections: the accounts, the slots and the code, in order
(`Store.rootBytes`). Every record says where it ends, so a section can be read back once
one knows how many records it has. But no section says so, and a slot can be written as
code is. Of stores that can be reached, equal bytes make equal stores exactly if there
are as many accounts and as many slots in the one as in the other (`rootBytes_commits`);
a slot and a contract with the same bytes are `SlotOrCode.slotStore` and
`SlotOrCode.codeStore`.

A string behind its length is read back only if the length fits into eight bytes, so the
strings written to a store are taken to be no longer than that (`Store.Sized`).
-/

namespace MeteredLedger

namespace Store

/-! ### Stores that can be reached -/

/-- A string whose length fits into eight bytes. -/
def Fits (bs : Bytes) : Prop := bs.length < 256 ^ 8

/-- **A store that can be reached** from accounts by writing, with strings that fit. -/
inductive Reachable : Store → Prop where
  | ofAccounts (accounts : List (Address × Account)) : Reachable (ofAccounts accounts)
  | putAccount {s : Store} (h : Reachable s) (a : Address) (x : Account) :
      Reachable (s.putAccount a x)
  | putSlot {s : Store} (h : Reachable s) (x : Slot) {value : Bytes} (hv : Fits value) :
      Reachable (s.putSlot x value)
  | putCode {s : Store} (h : Reachable s) (a : Address) {code : Bytes} (hc : Fits code) :
      Reachable (s.putCode a code)
  | apply {s : Store} (h : Reachable s) {c : Changes}
      (hv : ∀ (x : Slot) value, c.slots[x]? = some value → Fits value)
      (hc : ∀ (a : Address) code, c.code[a]? = some code → Fits code) : Reachable (s.apply c)

/-- Every string in the store fits. -/
structure Sized (s : Store) : Prop where
  slot : ∀ x, Fits (s.slot x)
  code : ∀ a, Fits (s.codeAt a)

theorem fits_nil : Fits [] := by
  unfold Fits
  decide

theorem sized_ofAccounts (accounts : List (Address × Account)) : (ofAccounts accounts).Sized := by
  have step : ∀ (l : List (Address × Account)) (s : Store), s.Sized →
      (l.foldl (fun s e => if e.2.isEmpty then s else s.putAccount e.1 e.2) s).Sized := by
    intro l
    induction l with
    | nil => exact fun s h => h
    | cons e l ih =>
      intro s h
      refine ih _ ?_
      dsimp only
      split_ifs
      · exact h
      · exact ⟨h.slot, h.code⟩
  refine step accounts empty ⟨fun x => ?_, fun a => ?_⟩
  · show Fits ((∅ : Storage)[x]?.getD [])
    rw [Storage.getElem?_empty]
    exact fits_nil
  · show Fits ((∅ : AddressMap Bytes)[a]?.getD [])
    rw [Std.ExtTreeMap.getElem?_empty]
    exact fits_nil

/-- What is written over something that fits fits if the new does. -/
theorem fits_getD {o : Option Bytes} {old : Bytes} (h : ∀ bs, o = some bs → Fits bs)
    (hold : Fits old) : Fits (o.getD old) := by
  cases o with
  | none => exact hold
  | some bs => exact h bs rfl

theorem Reachable.sized {s : Store} (h : s.Reachable) : s.Sized := by
  induction h with
  | ofAccounts accounts => exact sized_ofAccounts accounts
  | putAccount _ a x ih => exact ⟨ih.slot, ih.code⟩
  | @putSlot s _ x value hv ih =>
    refine ⟨fun y => ?_, ih.code⟩
    rw [slot_putSlot]
    split_ifs
    · exact hv
    · exact ih.slot y
  | @putCode s _ a code hc ih =>
    refine ⟨ih.slot, fun b => ?_⟩
    rw [codeAt_putCode]
    split_ifs
    · exact hc
    · exact ih.code b
  | apply _ hv hc ih =>
    refine ⟨fun x => ?_, fun a => ?_⟩
    · rw [slot_apply]
      exact fits_getD (hv x) (ih.slot x)
    · rw [codeAt_apply]
      exact fits_getD (hc a) (ih.code a)

theorem Reachable.canonical {s : Store} (h : s.Reachable) : s.Canonical := by
  induction h with
  | ofAccounts accounts => exact canonical_ofAccounts accounts
  | putAccount _ a x ih => exact ih.putAccount a x
  | putSlot _ x _ ih => exact ih.putSlot x _
  | putCode _ a _ ih => exact ih.putCode a _
  | apply _ _ _ ih => exact ih.apply _

/-! ### Records -/

theorem delimits_sized : Delimits Fits sized := by
  intro bs bs' x y hb hb' h
  unfold sized at h
  rw [List.append_assoc, List.append_assoc] at h
  obtain ⟨hlen, hrest⟩ := delimits_littleEndian 8 _ _ _ _ hb hb' h
  exact List.append_inj hrest hlen

theorem delimits_account :
    Delimits (fun _ => True) fun e : Address × Account => accountBytes e.1 e.2 := by
  rintro ⟨a, nonce, balance, codeHash⟩ ⟨a', nonce', balance', codeHash'⟩ x y - - h
  simp only [accountBytes, List.append_assoc] at h
  obtain ⟨rfl, h₁⟩ := delimits_address a a' _ _ trivial trivial h
  obtain ⟨hn, h₂⟩ := delimits_littleEndian 8 _ _ _ _ nonce.toNat_lt nonce'.toNat_lt h₁
  obtain ⟨hb, h₃⟩ := delimits_littleEndian 16 _ _ _ _ balance.isLt balance'.isLt h₂
  obtain ⟨rfl, hxy⟩ := delimits_hash _ _ _ _ trivial trivial h₃
  obtain rfl := UInt64.toNat_inj.1 hn
  obtain rfl := BitVec.eq_of_toNat_eq hb
  exact ⟨rfl, hxy⟩

theorem delimits_slot :
    Delimits (fun e => Fits e.2) fun e : Slot × Bytes => slotBytes e.1 e.2 := by
  rintro ⟨⟨a, key⟩, value⟩ ⟨⟨a', key'⟩, value'⟩ x y hv hv' h
  simp only [slotBytes, List.append_assoc] at h
  obtain ⟨rfl, h₁⟩ := delimits_address a a' _ _ trivial trivial h
  obtain ⟨rfl, h₂⟩ := delimits_hash key key' _ _ trivial trivial h₁
  obtain ⟨rfl, hxy⟩ := delimits_sized value value' _ _ hv hv' h₂
  exact ⟨rfl, hxy⟩

theorem delimits_code :
    Delimits (fun e => Fits e.2) fun e : Address × Bytes => codeBytes e.1 e.2 := by
  rintro ⟨a, code⟩ ⟨a', code'⟩ x y hc hc' h
  simp only [codeBytes, List.append_assoc] at h
  obtain ⟨rfl, h₁⟩ := delimits_address a a' _ _ trivial trivial h
  obtain ⟨rfl, hxy⟩ := delimits_sized code code' _ _ hc hc' h₁
  exact ⟨rfl, hxy⟩

theorem codeBytes_ne_nil (a : Address) (code : Bytes) : codeBytes a code ≠ [] := by
  intro h
  have hl := congrArg List.length h
  simp [codeBytes, Address.toBytes, Address.width] at hl

/-! ### Sections -/

theorem rootBytes_eq (s : Store) : s.rootBytes =
    s.accounts.toList.flatMap (fun e => accountBytes e.1 e.2)
      ++ (s.slots.toList.flatMap (fun e => slotBytes e.1 e.2)
        ++ s.code.toList.flatMap fun e => codeBytes e.1 e.2) := by
  unfold rootBytes
  rw [List.append_assoc]

theorem Sized.of_mem_slots {s : Store} (h : s.Sized) {e : Slot × Bytes} (he : e ∈ s.slots.toList) :
    Fits e.2 := by
  have hx : s.slot e.1 = e.2 := by
    unfold Store.slot
    rw [(Storage.mem_toList_iff _ _).1 he]
    rfl
  rw [← hx]
  exact h.slot e.1

theorem Sized.of_mem_code {s : Store} (h : s.Sized) {e : Address × Bytes}
    (he : e ∈ s.code.toList) : Fits e.2 := by
  have hx : s.codeAt e.1 = e.2 := by
    unfold codeAt
    rw [Std.ExtTreeMap.mem_toList_iff_getElem?_eq_some.1 he]
    rfl
  rw [← hx]
  exact h.code e.1

/-- Sections with as many records as each other are read back one after another. -/
theorem eq_of_rootBytes_eq {s t : Store} (hs : s.Sized) (ht : t.Sized) (hsc : s.Canonical)
    (htc : t.Canonical) (h : s.rootBytes = t.rootBytes)
    (ha : s.accounts.size = t.accounts.size) (hx : s.slots.size = t.slots.size) : s = t := by
  rw [rootBytes_eq, rootBytes_eq] at h
  obtain ⟨haccounts, h₁⟩ := delimits_account.flatMap (fun _ _ => trivial) (fun _ _ => trivial)
    (by simpa using ha) h
  obtain ⟨hslots, h₂⟩ := delimits_slot.flatMap (fun _ he => hs.of_mem_slots he)
    (fun _ he => ht.of_mem_slots he) hx h₁
  have hcode := delimits_code.flatMap_end (fun e _ => codeBytes_ne_nil e.1 e.2)
    (fun _ he => hs.of_mem_code he) (fun _ he => ht.of_mem_code he) h₂
  obtain ⟨accounts, slots, code⟩ := s
  obtain ⟨accounts', slots', code'⟩ := t
  obtain rfl := Std.ExtTreeMap.toList_inj.1 haccounts
  obtain rfl := hsc.storage.eq_of_toList htc.storage hslots
  obtain rfl := Std.ExtTreeMap.toList_inj.1 hcode
  rfl

/-- **What equal bytes say of two stores**: they are the same exactly if they hold as many
accounts as each other, and as many slots. -/
theorem rootBytes_commits {s t : Store} (hs : s.Reachable) (ht : t.Reachable)
    (h : s.rootBytes = t.rootBytes) :
    s = t ↔ s.accounts.size = t.accounts.size ∧ s.slots.size = t.slots.size := by
  constructor
  · rintro rfl
    exact ⟨rfl, rfl⟩
  · rintro ⟨ha, hx⟩
    exact eq_of_rootBytes_eq hs.sized ht.sized hs.canonical ht.canonical h ha hx

namespace Reordered

/-- Two accounts, a slot and a contract. -/
def first : Store :=
  ((ofAccounts [(⟨1⟩, .ofBalance 5), (⟨2⟩, ⟨1, 0, ⟨7⟩⟩)]).putSlot ⟨⟨2⟩, ⟨3⟩⟩ [7]).putCode ⟨2⟩ [0]

/-- The same in another order, with a slot written twice. -/
def second : Store :=
  ((((empty.putCode ⟨2⟩ [0]).putSlot ⟨⟨2⟩, ⟨3⟩⟩ [9]).putAccount ⟨2⟩ ⟨1, 0, ⟨7⟩⟩).putSlot
    ⟨⟨2⟩, ⟨3⟩⟩ [7]).putAccount ⟨1⟩ (.ofBalance 5)

end Reordered

open Reordered in
/-- Two ways to the same contents. -/
theorem rootBytes_commits_reordered :
    first.Reachable ∧ second.Reachable ∧ first.rootBytes = second.rootBytes ∧
      first.accounts.size = second.accounts.size ∧ first.slots.size = second.slots.size ∧
      first = second := by
  have fits : ∀ b : UInt8, Fits [b] := by
    intro b
    show 1 < 256 ^ 8
    decide
  have hfirst : first.Reachable := ((Reachable.ofAccounts _).putSlot _ (fits 7)).putCode _ (fits 0)
  have hsecond : second.Reachable :=
    (((((Reachable.ofAccounts []).putCode _ (fits 0)).putSlot _ (fits 9)).putAccount _ _).putSlot _
      (fits 7)).putAccount _ _
  have hbytes : first.rootBytes = second.rootBytes := by decide +kernel
  have haccounts : first.accounts.size = second.accounts.size := by decide +kernel
  have hslots : first.slots.size = second.slots.size := by decide +kernel
  exact ⟨hfirst, hsecond, hbytes, haccounts, hslots,
    (rootBytes_commits hfirst hsecond hbytes).2 ⟨haccounts, hslots⟩⟩

/-! ### One string, two stores -/

namespace SlotOrCode

/-- The address of both records. -/
def address : Address := ⟨0x0101010101010101010101010101010101010101⟩

/-- The slot, whose key begins with the length of the code. -/
def place : Slot := ⟨address, ⟨0x2100000000000000000000000000000000000000000000000000000000000000⟩⟩

/-- The code: the rest of the key, the length of the value and the value. -/
def contract : Bytes := List.replicate 24 0 ++ [1, 0, 0, 0, 0, 0, 0, 0] ++ [7]

/-- One slot, and nothing else. -/
def slotStore : Store := empty.putSlot place [7]

/-- The code of one address, and nothing else. -/
def codeStore : Store := empty.putCode address contract

end SlotOrCode

open SlotOrCode in
/-- A slot is written with the bytes of a contract's code. -/
theorem rootBytes_not_injective :
    slotStore.Reachable ∧ codeStore.Reachable ∧ slotStore.rootBytes = codeStore.rootBytes ∧
      slotStore ≠ codeStore := by
  have hempty : Reachable empty := .ofAccounts []
  have hvalue : Fits [7] := by
    unfold Fits
    decide
  have hcode : Fits contract := by
    unfold Fits
    decide
  refine ⟨hempty.putSlot place hvalue, hempty.putCode address hcode, by decide +kernel,
    fun h => ?_⟩
  have hslots : slotStore.slots.size = 1 := by decide +kernel
  have hslots' : codeStore.slots.size = 0 := by decide +kernel
  rw [h, hslots'] at hslots
  cases hslots

end Store

end MeteredLedger
