import MeteredLedger.Proofs.Store.Canonical
import MeteredLedger.Proofs.View.Ending

/-!
# Slots that were never written

The history of a store can be retold without the writes to one slot (`Store.Write.without`). What
comes of it is the store with that slot cleared (`Store.afterWrites_without`). So a store in which a
slot reads as empty is the one that there would be if the slot had never been written
(`Store.eq_afterWrites_without`), and that goes for the changes of a view, too, if the slot reads as
empty there when the view is published (`View.publish_unwritten`).
-/

namespace MeteredLedger

/-- The changes but for one slot. -/
def Changes.without (x : Slot) (c : Changes) : Changes := { c with slots := c.slots.erase x }

namespace Store

/-- A write but for what it does to one slot. -/
def Write.without (x : Slot) : Write → Option Write
  | .slot y value => if y = x then none else some (.slot y value)
  | .changes c => some (.changes (c.without x))
  | w => some w

variable {s : Store} {x : Slot}

/-- There is nothing to clear where nothing is. -/
theorem Canonical.putSlot_nil (h : s.Canonical) (hx : s.slot x = []) : s.putSlot x [] = s := by
  refine (h.putSlot x []).eq_of_reads h (fun _ => rfl) (fun y => ?_) fun _ => rfl
  rw [slot_putSlot]
  split_ifs with hy
  · rw [← hy, hx]
  · rfl

/-- Of two writes to a slot the second one counts. -/
theorem Canonical.putSlot_putSlot (h : s.Canonical) (x : Slot) (value value' : Bytes) :
    (s.putSlot x value).putSlot x value' = s.putSlot x value' := by
  refine ((h.putSlot x value).putSlot x value').eq_of_reads (h.putSlot x value') (fun _ => rfl)
    (fun y => ?_) fun _ => rfl
  simp only [slot_putSlot]
  split_ifs <;> rfl

/-- Writes to two slots are made in any order. -/
theorem Canonical.putSlot_comm (h : s.Canonical) {y : Slot} (hne : x ≠ y) (value value' : Bytes) :
    (s.putSlot x value).putSlot y value' = (s.putSlot y value').putSlot x value := by
  refine ((h.putSlot x value).putSlot y value').eq_of_reads ((h.putSlot y value').putSlot x value)
    (fun _ => rfl) (fun z => ?_) fun _ => rfl
  simp only [slot_putSlot]
  split_ifs with hy hx
  · exact absurd (hx.trans hy.symm) hne
  · rfl
  · rfl
  · rfl

theorem slot_apply_without (t : Store) (x : Slot) (c : Changes) (y : Slot) :
    (t.apply (c.without x)).slot y = if x = y then t.slot y else (t.apply c).slot y := by
  have herase : (c.without x).slots[y]? = if x = y then none else c.slots[y]? := by
    rw [Changes.without, Std.ExtTreeMap.getElem?_erase]
    simp only [Std.LawfulEqOrd.compare_eq_iff_eq]
  rw [slot_apply, slot_apply, herase]
  split_ifs <;> rfl

/-- A slot may be cleared after a write, or before what the write does to the rest. -/
theorem Canonical.write_without (h : s.Canonical) (x : Slot) (w : Write) :
    (w.without x).elim (s.putSlot x []) (Store.write (s.putSlot x []))
      = (s.write w).putSlot x [] := by
  cases w with
  | account a y => rfl
  | code a code => rfl
  | slot y value =>
    show Option.elim (if y = x then none else some (Write.slot y value)) _ _ = _
    split_ifs with hy
    · rw [← hy, Option.elim_none, Store.write, h.putSlot_putSlot]
    · exact h.putSlot_comm (Ne.symm hy) [] value
  | changes c =>
    refine ((h.putSlot x []).apply _).eq_of_reads ((h.apply c).putSlot x []) (fun a => ?_)
      (fun z => ?_) fun a => ?_
    · show ((s.putSlot x []).apply (c.without x)).account a = (s.apply c).account a
      rw [account_apply, account_apply]
      rfl
    · show ((s.putSlot x []).apply (c.without x)).slot z = ((s.apply c).putSlot x []).slot z
      rw [slot_apply_without, slot_putSlot, slot_putSlot]
      split_ifs with hz
      · rfl
      · rw [slot_apply, slot_apply, slot_putSlot, if_neg hz]
    · show ((s.putSlot x []).apply (c.without x)).codeAt a = (s.apply c).codeAt a
      rw [codeAt_apply, codeAt_apply]
      rfl

theorem Canonical.foldl_without (h : s.Canonical) (x : Slot) (writes : List Write) :
    (writes.filterMap (Write.without x)).foldl Store.write (s.putSlot x [])
      = (writes.foldl Store.write s).putSlot x [] := by
  induction writes generalizing s with
  | nil => rfl
  | cons w writes ih =>
    have hw := h.write_without x w
    rw [List.filterMap_cons, List.foldl_cons, ← ih (h.write w), ← hw]
    cases w.without x <;> rfl

theorem slot_ofAccounts (accounts : List (Address × Account)) (x : Slot) :
    (ofAccounts accounts).slot x = [] := by
  refine List.foldlRecOn (motive := fun s : Store => s.slot x = []) _ _ ?_ fun s hs e _ => ?_
  · rw [slot, show empty.slots = ∅ from rfl, Storage.getElem?_empty]
    rfl
  · dsimp only
    split_ifs <;> exact hs

/-- **Without the writes to a slot**, the store is the one with the slot cleared. -/
theorem afterWrites_without (accounts : List (Address × Account)) (writes : List Write) (x : Slot) :
    afterWrites accounts (writes.filterMap (Write.without x))
      = (afterWrites accounts writes).putSlot x [] := by
  have hstart := canonical_ofAccounts accounts
  rw [afterWrites, afterWrites, ← hstart.foldl_without,
    hstart.putSlot_nil (slot_ofAccounts accounts x)]

/-- **A slot that reads as empty has left nothing behind**: the store is the one that there would
be if the slot had never been written. -/
theorem eq_afterWrites_without {accounts : List (Address × Account)} {writes : List Write}
    (hx : (afterWrites accounts writes).slot x = []) :
    (afterWrites accounts writes).slots[x]? = none ∧
      afterWrites accounts writes = afterWrites accounts (writes.filterMap (Write.without x)) := by
  have hcanonical := canonical_afterWrites accounts writes
  constructor
  · cases hentry : (afterWrites accounts writes).slots[x]? with
    | none => rfl
    | some value =>
      rw [slot, hentry] at hx
      exact absurd hx (hcanonical.slot x value hentry)
  · rw [afterWrites_without, hcanonical.putSlot_nil hx]

end Store

/-- **A slot that a view shows empty is gone from the store** when the view is published, as if
nothing had ever been written to it, by the view or before. -/
theorem View.publish_unwritten {accounts : List (Address × Account)} {writes : List Store.Write}
    {v : View} {x : Slot} {logs : List Log} {s : Store}
    (hx : v.slot (Store.afterWrites accounts writes) x = [])
    (h : v.publish true (Store.afterWrites accounts writes) = .ok (logs, s)) :
    s.slots[x]? = none ∧ s = Store.afterWrites accounts
      ((writes ++ [Store.Write.changes v.pending]).filterMap (Store.Write.without x)) := by
  have hs : (Store.afterWrites accounts writes).apply v.pending
      = Store.afterWrites accounts (writes ++ [Store.Write.changes v.pending]) := by
    rw [Store.afterWrites, Store.afterWrites, List.foldl_append]
    rfl
  obtain ⟨-, -, rfl⟩ := publish_eq_ok h
  rw [hs]
  refine Store.eq_afterWrites_without ?_
  rw [← hs, slot_apply_pending, hx]

end MeteredLedger
