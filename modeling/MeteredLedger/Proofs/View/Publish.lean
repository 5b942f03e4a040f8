import MeteredLedger.Proofs.Maps
import MeteredLedger.Proofs.View.Sight

/-!
# What publishing a view makes of the store

The pending changes of a view answer as its layers do (`accounts_pending` and its kin).
So a store in which they are made reads as the view showed it, place by place, as long
as the view remembers nothing else of the store than it says (`account_apply_pending`,
`codeAt_apply_pending`, `slot_apply_pending`).
-/

namespace MeteredLedger

theorem Account.eq_empty_of_isEmpty {x : Account} (h : x.isEmpty = true) : x = .empty := by
  obtain ⟨nonce, balance, codeHash⟩ := x
  simp only [isEmpty, Hash.isZero, Bool.and_eq_true, beq_iff_eq] at h
  obtain ⟨⟨rfl, rfl⟩, rfl⟩ := h
  rfl

namespace Store

/-! ### Writing to the store -/

theorem account_putAccount (s : Store) (a : Address) (x : Account) (b : Address) :
    (s.putAccount a x).account b = if a = b then x else s.account b :=
  Maps.getD_write s.accounts Account.eq_empty_of_isEmpty a b

theorem slot_putSlot (s : Store) (x : Slot) (value : Bytes) (y : Slot) :
    (s.putSlot x value).slot y = if x = y then value else s.slot y := by
  unfold slot putSlot
  dsimp only
  split_ifs with hempty hxy hxy
  · rw [Storage.getElem?_erase, if_pos hxy, List.isEmpty_iff.1 hempty]
    rfl
  · rw [Storage.getElem?_erase, if_neg hxy]
  · rw [Storage.getElem?_insert, if_pos hxy]
    rfl
  · rw [Storage.getElem?_insert, if_neg hxy]

theorem codeAt_putCode (s : Store) (a : Address) (code : Bytes) (b : Address) :
    (s.putCode a code).codeAt b = if a = b then code else s.codeAt b :=
  Maps.getD_write s.code List.isEmpty_iff.1 a b

/-! ### Making changes -/

/-- What the writes of a fold leave alone. -/
theorem foldl_put_eq {κ α β : Type} [Ord κ] [Std.TransOrd κ] (put : Store → κ → α → Store)
    (look : Store → β) (h : ∀ s k a, look (put s k a) = look s) (t : Std.ExtTreeMap κ α)
    (s : Store) : look (t.foldl put s) = look s := by
  rw [Std.ExtTreeMap.foldl_eq_foldl_toList]
  induction t.toList generalizing s with
  | nil => rfl
  | cons e l ih => rw [List.foldl_cons, ih, h]

theorem account_apply (s : Store) (c : Changes) (a : Address) :
    (s.apply c).account a = c.accounts[a]?.getD (s.account a) := by
  unfold apply
  dsimp only
  rw [foldl_put_eq putCode (·.account a) fun _ _ _ => rfl,
    foldl_put_eq putSlot (·.account a) fun _ _ _ => rfl,
    Maps.look_foldl putAccount account id account_putAccount]
  simp

theorem slot_apply (s : Store) (c : Changes) (x : Slot) :
    (s.apply c).slot x = c.slots[x]?.getD (s.slot x) := by
  unfold apply
  dsimp only
  rw [foldl_put_eq putCode (·.slot x) fun _ _ _ => rfl,
    Maps.look_foldl putSlot slot id slot_putSlot,
    foldl_put_eq putAccount (·.slot x) fun _ _ _ => rfl]
  simp

theorem codeAt_apply (s : Store) (c : Changes) (a : Address) :
    (s.apply c).codeAt a = c.code[a]?.getD (s.codeAt a) := by
  unfold apply
  dsimp only
  rw [Maps.look_foldl putCode codeAt id codeAt_putCode,
    foldl_put_eq putSlot (·.codeAt a) fun _ _ _ => rfl,
    foldl_put_eq putAccount (·.codeAt a) fun _ _ _ => rfl]
  simp

end Store

namespace View

/-! ### Pending changes -/

/-- What layers answer together once they are all in one map. -/
theorem getElem?_foldr_union {κ α : Type} [Ord κ] [Std.TransOrd κ]
    (part : Layer → Std.ExtTreeMap κ α) (layers : List Layer) (k : κ) :
    (layers.foldr (fun layer all => all ∪ part layer) ∅)[k]?
      = layers.findSome? fun layer => (part layer)[k]? := by
  induction layers with
  | nil => exact Std.ExtTreeMap.getElem?_empty
  | cons layer rest ih =>
    rw [List.foldr_cons, Std.ExtTreeMap.getElem?_union, ih, List.findSome?_cons]
    cases (part layer)[k]? <;> rfl

theorem accounts_pending (v : View) (a : Address) :
    v.pending.accounts[a]? = v.find? (·.accounts[a]?) := by
  rw [find?_eq]
  exact getElem?_foldr_union (·.accounts) v.layers a

theorem slots_pending (v : View) (x : Slot) : v.pending.slots[x]? = v.find? (·.slots[x]?) := by
  rw [find?_eq]
  exact getElem?_foldr_union (·.slots) v.layers x

theorem code_pending (v : View) (a : Address) : v.pending.code[a]? = v.find? (·.code[a]?) := by
  rw [find?_eq]
  exact getElem?_foldr_union (·.code) v.layers a

/-- **A store in which the changes of a view are made reads as the view showed it.** -/
theorem account_apply_pending {s : Store} {v : View} (h : ∀ a, v.backing s a = s.account a) :
    (s.apply v.pending).account = v.account s := by
  funext a
  rw [Store.account_apply, accounts_pending, account_eq, h]

theorem slot_apply_pending (s : Store) (v : View) : (s.apply v.pending).slot = v.slot s := by
  funext x
  rw [Store.slot_apply, slots_pending, slot_eq]

theorem codeAt_apply_pending (s : Store) (v : View) :
    (s.apply v.pending).codeAt = v.codeAt s := by
  funext a
  rw [Store.codeAt_apply, code_pending, codeAt_eq]

theorem sight_apply_pending {s : Store} {v : View} (h : ∀ a, v.backing s a = s.account a) :
    (s.apply v.pending).sight v.logs = v.sight s := by
  unfold Store.sight View.sight
  rw [account_apply_pending h, codeAt_apply_pending, slot_apply_pending]

end View

end MeteredLedger
