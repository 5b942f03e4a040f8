import Mathlib.Algebra.BigOperators.Group.Finset.Basic
import Mathlib.Data.Fintype.Basic
import Mathlib.Data.Fintype.OfMap
import MeteredLedger.Proofs.View.Sight

/-!
# How much value there is

All balances together, over all addresses and in numbers without bound: of what a view
shows (`Sight.total`) and of a store (`Store.total`). Another account at an address
changes the total by the difference of the two balances (`total_putAccount`), so that
moving value changes nothing, also from an address to itself (`total_transfer`).
-/

namespace MeteredLedger

noncomputable instance : Fintype Address :=
  .ofInjective (fun a => a.bits.toFin) fun _ _ h =>
    congrArg Address.mk (BitVec.eq_of_toFin_eq h)

/-- All balances of a store together. -/
noncomputable def Store.total (s : Store) : Nat := ∑ a, (s.account a).balance.toNat

namespace Sight

/-- All balances shown together. -/
noncomputable def total (σ : Sight) : Nat := ∑ a, (σ.account a).balance.toNat

/-- Another account changes the total by its own balance and the one it replaces. -/
theorem total_putAccount (σ : Sight) (a : Address) (x : Account) :
    (σ.putAccount a x).total + (σ.account a).balance.toNat = σ.total + x.balance.toNat := by
  unfold total
  rw [← Finset.add_sum_erase _ _ (Finset.mem_univ a),
    ← Finset.add_sum_erase _ (fun b => (σ.account b).balance.toNat) (Finset.mem_univ a)]
  have hrest : ∑ b ∈ Finset.univ.erase a, ((σ.putAccount a x).account b).balance.toNat
      = ∑ b ∈ Finset.univ.erase a, (σ.account b).balance.toNat := by
    refine Finset.sum_congr rfl fun b hb => ?_
    rw [putAccount_account, Function.update_of_ne (Finset.ne_of_mem_erase hb)]
  rw [hrest, putAccount_account, Function.update_self]
  omega

/-- A balance that stays the same leaves the total the same. -/
theorem total_putAccount_of_balance {σ : Sight} {a : Address} {x : Account}
    (h : x.balance = (σ.account a).balance) : (σ.putAccount a x).total = σ.total := by
  have ht := total_putAccount σ a x
  rw [h] at ht
  omega

@[simp] theorem total_putCode (σ : Sight) (a : Address) (code : Bytes) :
    (σ.putCode a code).total = σ.total := rfl

@[simp] theorem total_putSlot (σ : Sight) (x : Slot) (value : Bytes) :
    (σ.putSlot x value).total = σ.total := rfl

@[simp] theorem total_addLog (σ : Sight) (log : Log) : (σ.addLog log).total = σ.total := rfl

end Sight

/-! ### Moving value -/

theorem Account.toNat_debit? {x y : Account} {amount : Wei} (h : x.debit? amount = some y) :
    y.balance.toNat + amount.toNat = x.balance.toNat := by
  unfold debit? at h
  split_ifs at h with hle
  cases h
  have hle' : amount.toNat ≤ x.balance.toNat := BitVec.le_def.1 hle
  show (x.balance - amount).toNat + amount.toNat = x.balance.toNat
  rw [BitVec.toNat_sub_of_le hle]
  omega

/-- A balance has room for an amount if the sum is below the width of balances. -/
theorem le_maxWei_sub_iff {balance amount : Wei} :
    balance ≤ maxWei - amount ↔ balance.toNat + amount.toNat < 2 ^ 128 := by
  have hlt := amount.isLt
  have hmax : maxWei.toNat = 2 ^ 128 - 1 := BitVec.toNat_allOnes
  have hsub : (maxWei - amount).toNat = maxWei.toNat - amount.toNat :=
    BitVec.toNat_sub_of_le (BitVec.le_def.2 (by omega))
  rw [BitVec.le_def, hsub]
  omega

theorem Account.toNat_credit? {x y : Account} {amount : Wei} (h : x.credit? amount = some y) :
    y.balance.toNat = x.balance.toNat + amount.toNat := by
  unfold credit? addWei? at h
  split_ifs at h with hle
  · cases h
    show (x.balance + amount).toNat = x.balance.toNat + amount.toNat
    rw [BitVec.toNat_add, Nat.mod_eq_of_lt (le_maxWei_sub_iff.1 hle)]
  · cases h

/-- **Moving value leaves the total the same**: what one account loses the other gains,
also when they are the same. -/
theorem View.total_transfer (s : Store) (source target : Address) (amount : Wei) (v : View) :
    Meets (View.transfer s source target amount) v
      (fun _ v' => (v'.sight s).total = (v.sight s).total) fun _ _ => True := by
  refine (View.transfer_meets s source target amount v).mono ?_ fun _ _ _ => trivial
  rintro _ v' ⟨-, x, y, hx, hy, hs⟩
  have hdebit := Account.toNat_debit? hx
  have hcredit := Account.toNat_credit? hy
  have htake := Sight.total_putAccount (v.sight s) source x
  have hgive := Sight.total_putAccount ((v.sight s).putAccount source x) target y
  rw [sight_account] at htake
  rw [hs]
  omega

end MeteredLedger
