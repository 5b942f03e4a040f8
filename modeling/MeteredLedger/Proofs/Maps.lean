import Mathlib.Algebra.BigOperators.Group.Finset.Basic
import Mathlib.Algebra.Order.BigOperators.Group.List
import Mathlib.Algebra.Order.Ring.Nat
import Mathlib.Data.Fintype.Defs
import Std.Data.ExtTreeMap

/-!
# Sums and folds over maps

What a new entry does to a sum over the entries of a map (`sum_insert`), how such a sum is one over
all keys (`sum_entries`), what is read after an entry has been written or taken away (`getD_write`),
and what is read after all entries of a map have been written somewhere, one after another
(`look_foldl`).
-/

namespace MeteredLedger

namespace Maps

variable {κ : Type}

section Lists

variable [DecidableEq κ] {σ α β : Type} (put : σ → κ → α → σ) (look : σ → κ → β)
  (written : α → β)

/-- What is read for a key once a list of entries with different keys is written. -/
theorem look_foldl_list
    (look_put : ∀ s k a k', look (put s k a) k' = if k = k' then written a else look s k')
    (l : List (κ × α)) (hl : (l.map Prod.fst).Nodup) (s : σ) (k : κ) :
    (∀ a, (k, a) ∈ l → look (l.foldl (fun s e => put s e.1 e.2) s) k = written a) ∧
    (k ∉ l.map Prod.fst → look (l.foldl (fun s e => put s e.1 e.2) s) k = look s k) := by
  induction l generalizing s with
  | nil => exact ⟨fun _ h => (List.not_mem_nil h).elim, fun _ => rfl⟩
  | cons e l ih =>
    obtain ⟨k₀, a₀⟩ := e
    rw [List.map_cons, List.nodup_cons] at hl
    obtain ⟨hmem, habsent⟩ := ih hl.2 (put s k₀ a₀)
    constructor
    · intro a ha
      rw [List.foldl_cons]
      obtain he | ha := List.mem_cons.1 ha
      · cases he
        rw [habsent hl.1, look_put, if_pos rfl]
      · exact hmem a ha
    · intro hk
      rw [List.map_cons, List.mem_cons, not_or] at hk
      rw [List.foldl_cons, habsent hk.2, look_put, if_neg (Ne.symm hk.1)]

end Lists

variable [Ord κ] [Std.TransOrd κ]

section Entries

variable {α : Type} (t : Std.ExtTreeMap κ α)

theorem nodup_keys : (t.toList.map Prod.fst).Nodup := by
  rw [Std.ExtTreeMap.map_fst_toList_eq_keys]
  exact t.nodup_keys

theorem nodup_toList : t.toList.Nodup := .of_map _ (nodup_keys t)

variable [Std.LawfulEqOrd κ]

/-- An entry, and the entries of the other keys. -/
theorem toList_perm {k : κ} {a : α} (h : t[k]? = some a) :
    t.toList.Perm ((k, a) :: (t.erase k).toList) := by
  refine (List.perm_ext_iff_of_nodup (nodup_toList t) ?_).2 ?_
  · refine List.nodup_cons.2 ⟨fun hm => ?_, nodup_toList _⟩
    rw [Std.ExtTreeMap.mem_toList_iff_getElem?_eq_some, Std.ExtTreeMap.getElem?_erase_self] at hm
    cases hm
  · rintro ⟨k', a'⟩
    rw [List.mem_cons, Std.ExtTreeMap.mem_toList_iff_getElem?_eq_some,
      Std.ExtTreeMap.mem_toList_iff_getElem?_eq_some, Std.ExtTreeMap.getElem?_erase]
    by_cases hk : k = k'
    · subst hk
      simp [h, eq_comm]
    · simp [hk, Ne.symm hk]

theorem erase_insert (k : κ) (a : α) : (t.insert k a).erase k = t.erase k := by
  refine Std.ExtTreeMap.ext_getElem? fun k' => ?_
  simp only [Std.ExtTreeMap.getElem?_erase, Std.ExtTreeMap.getElem?_insert]
  split_ifs <;> rfl

theorem erase_eq_self {k : κ} (h : t[k]? = none) : t.erase k = t := by
  refine Std.ExtTreeMap.ext_getElem? fun k' => ?_
  rw [Std.ExtTreeMap.getElem?_erase]
  by_cases hk : k = k'
  · subst hk
    simp [h]
  · simp [hk]

/-- A new entry adds to a sum over the entries, and the entry that it replaces no
longer does. -/
theorem sum_insert (f : α → Nat) (k : κ) (a : α) :
    ((t.insert k a).toList.map fun e => f e.2).sum + (t[k]?.map f).getD 0
      = (t.toList.map fun e => f e.2).sum + f a := by
  have hi := ((toList_perm (t.insert k a) (k := k) (a := a) (by simp)).map fun e => f e.2).sum_eq
  rw [erase_insert, List.map_cons, List.sum_cons] at hi
  rw [hi]
  cases h : t[k]? with
  | none =>
    rw [erase_eq_self t h]
    simp [Nat.add_comm]
  | some old =>
    have ho := ((toList_perm t h).map fun e => f e.2).sum_eq
    rw [List.map_cons, List.sum_cons] at ho
    rw [ho]
    simp only [Option.map_some, Option.getD_some]
    omega

/-- An entry is no more than the sum over all entries. -/
theorem le_sum (f : α → Nat) (k : κ) :
    (t[k]?.map f).getD 0 ≤ (t.toList.map fun e => f e.2).sum := by
  cases h : t[k]? with
  | none => exact Nat.zero_le _
  | some old =>
    refine List.single_le_sum (by simp) _ (List.mem_map.2 ⟨(k, old), ?_, rfl⟩)
    exact Std.ExtTreeMap.mem_toList_iff_getElem?_eq_some.2 h

/-- **A sum over the entries of a map is a sum over all keys**, where a key without an entry adds
nothing. -/
theorem sum_entries [Fintype κ] {β : Type} [AddCommMonoid β] (f : κ → α → β) :
    (t.toList.map fun e => f e.1 e.2).sum = ∑ k, (t[k]?.map (f k)).getD 0 := by
  classical
  have hentries : t.toList.map (fun e => f e.1 e.2)
      = (t.toList.map Prod.fst).map fun k => (t[k]?.map (f k)).getD 0 := by
    rw [List.map_map]
    refine List.map_congr_left fun e he => ?_
    rw [Function.comp_apply, Std.ExtTreeMap.mem_toList_iff_getElem?_eq_some.1 he]
    rfl
  rw [hentries, ← List.sum_toFinset _ (nodup_keys t)]
  refine Finset.sum_subset (Finset.subset_univ _) fun k _ hk => ?_
  have hnone : t[k]? = none := by
    rw [List.mem_toFinset, Std.ExtTreeMap.map_fst_toList_eq_keys, Std.ExtTreeMap.mem_keys] at hk
    exact Std.ExtTreeMap.getElem?_eq_none hk
  rw [hnone]
  rfl

end Entries

/-! ### Writing entries -/

/-- What is read after a write that takes an entry away if it says no more than what is
read where there is none. -/
theorem getD_write [Std.LawfulEqOrd κ] [DecidableEq κ] {α : Type} (t : Std.ExtTreeMap κ α)
    {absent : Bool} {a none : α} (h : absent = true → a = none) (k k' : κ) :
    ((if absent then t.erase k else t.insert k a)[k']?).getD none
      = if k = k' then a else t[k']?.getD none := by
  by_cases ha : absent = true
  · rw [if_pos ha, Std.ExtTreeMap.getElem?_erase]
    by_cases hk : k = k'
    · simp [hk, h ha]
    · simp [hk]
  · rw [if_neg ha, Std.ExtTreeMap.getElem?_insert]
    by_cases hk : k = k'
    · simp [hk]
    · simp [hk]

/-- An entry after a write is the one written, or was there before. -/
theorem entry_write [Std.LawfulEqOrd κ] {α : Type} {t : Std.ExtTreeMap κ α} {absent : Bool}
    {k k' : κ} {a x : α} (h : (if absent then t.erase k else t.insert k a)[k']? = some x) :
    absent = false ∧ x = a ∨ t[k']? = some x := by
  by_cases ha : absent = true
  · rw [if_pos ha, Std.ExtTreeMap.getElem?_erase] at h
    split_ifs at h
    exact .inr h
  · rw [if_neg ha, Std.ExtTreeMap.getElem?_insert] at h
    split_ifs at h
    · exact .inl ⟨Bool.eq_false_of_not_eq_true ha, (Option.some.inj h).symm⟩
    · exact .inr h

/-- What writes preserve, writing all entries of a map does. -/
theorem foldl_keeps {α σ : Type} {P : σ → Prop} {put : σ → κ → α → σ}
    (keeps : ∀ s k a, P s → P (put s k a)) (t : Std.ExtTreeMap κ α) {s : σ} (h : P s) :
    P (t.foldl put s) := by
  rw [Std.ExtTreeMap.foldl_eq_foldl_toList]
  exact List.foldlRecOn _ _ h fun s hs e _ => keeps s e.1 e.2 hs

section Writing

variable [Std.LawfulEqOrd κ] [DecidableEq κ] {σ α β : Type} (put : σ → κ → α → σ) (look : σ → κ → β)
  (written : α → β)

/-- **What is read for a key once all entries of a map are written**: what its entry
says, or what was read before if it has none. -/
theorem look_foldl
    (look_put : ∀ s k a k', look (put s k a) k' = if k = k' then written a else look s k')
    (t : Std.ExtTreeMap κ α) (s : σ) (k : κ) :
    look (t.foldl put s) k = (t[k]?.map written).getD (look s k) := by
  obtain ⟨hmem, habsent⟩ := look_foldl_list put look written look_put t.toList (nodup_keys t) s k
  rw [Std.ExtTreeMap.foldl_eq_foldl_toList]
  cases h : t[k]? with
  | some a => exact hmem a (Std.ExtTreeMap.mem_toList_iff_getElem?_eq_some.2 h)
  | none =>
    refine habsent fun hk => ?_
    obtain ⟨⟨_, a⟩, ha, rfl⟩ := List.mem_map.1 hk
    rw [Std.ExtTreeMap.mem_toList_iff_getElem?_eq_some, h] at ha
    cases ha

end Writing

end Maps

end MeteredLedger
