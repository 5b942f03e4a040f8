import MeteredLedger.Proofs.Ledger.Total
import MeteredLedger.Proofs.View.Snapshots

/-!
# Moving value in a view

A transfer is a debit and then a credit, and nothing is looked at beforehand. So it can end in
three ways, and what the two balances are decides which: the source has too little, and nothing is
changed (`transfer_of_lt`); the target would come to hold more than a balance can be, and the debit
has been made already (`transfer_of_overflow`); or the amount is moved (`transfer_of_fits`). In no
case does anything but balances change. To be rid of a debit that stays behind is left to the one
who asks: dropping a scope that was opened before the transfer brings everything back.
-/

namespace MeteredLedger

/-! ### Debits and credits -/

namespace Account

variable {x y : Account} {amount : Wei}

theorem debit?_eq_none (h : x.balance < amount) : x.debit? amount = none :=
  if_neg (BitVec.not_le.2 h)

theorem debit?_of_le (h : amount ≤ x.balance) : ∃ y, x.debit? amount = some y :=
  ⟨_, if_pos h⟩

theorem credit?_eq_none (h : 2 ^ 128 ≤ x.balance.toNat + amount.toNat) :
    x.credit? amount = none := by
  unfold credit? addWei?
  rw [if_neg (mt le_maxWei_sub_iff.1 (Nat.not_lt.2 h))]
  rfl

theorem credit?_of_lt (h : x.balance.toNat + amount.toNat < 2 ^ 128) :
    ∃ y, x.credit? amount = some y := by
  unfold credit? addWei?
  rw [if_pos (le_maxWei_sub_iff.2 h)]
  exact ⟨_, rfl⟩

theorem debit?_eq_some (h : x.debit? amount = some y) : ∃ balance, y = { x with balance } := by
  unfold debit? at h
  split_ifs at h
  cases h
  exact ⟨_, rfl⟩

theorem credit?_eq_some (h : x.credit? amount = some y) : ∃ balance, y = { x with balance } := by
  obtain ⟨balance, -, rfl⟩ := Option.map_eq_some_iff.1 h
  exact ⟨balance, rfl⟩

end Account

/-- **A state shows what another one does, except for balances.** -/
structure Sight.SameButBalances (σ τ : Sight) : Prop where
  nonce : ∀ a, (τ.account a).nonce = (σ.account a).nonce
  codeHash : ∀ a, (τ.account a).codeHash = (σ.account a).codeHash
  code : τ.code = σ.code
  slot : τ.slot = σ.slot
  logs : τ.logs = σ.logs

namespace Sight.SameButBalances

variable {σ τ υ : Sight}

theorem trans (h : SameButBalances σ τ) (h' : SameButBalances τ υ) : SameButBalances σ υ :=
  ⟨fun a => (h'.nonce a).trans (h.nonce a), fun a => (h'.codeHash a).trans (h.codeHash a),
    h'.code.trans h.code, h'.slot.trans h.slot, h'.logs.trans h.logs⟩

/-- The same account with another balance. -/
theorem putAccount (σ : Sight) {a : Address} {x : Account}
    (h : ∃ balance, x = { σ.account a with balance }) : SameButBalances σ (σ.putAccount a x) := by
  obtain ⟨balance, rfl⟩ := h
  refine ⟨fun b => ?_, fun b => ?_, rfl, rfl, rfl⟩ <;>
    rw [putAccount_account, Function.update_apply] <;> split_ifs with hb <;> simp [hb]

end Sight.SameButBalances

namespace View

variable {s : Store} {v : View} {source target : Address} {amount : Wei}

/-! ### The three ways -/

/-- **Too little to give**: nothing changes. -/
theorem transfer_of_lt (h : v.balance s source < amount) : ∃ w,
    transfer s source target amount v
      = .error (.error (.insufficientBalance amount (v.balance s source))) w ∧
    w.sight s = v.sight s := by
  refine ⟨(v.touch s source).2, ?_, sight_touch s v source⟩
  rw [transfer, bind_apply, debit_eq, Account.debit?_eq_none h]
  rfl

/-- Once the debit is made, the credit is all that is left. -/
theorem transfer_of_le_eq (target : Address) (h : amount ≤ v.balance s source) : ∃ x u,
    (v.account s source).debit? amount = some x ∧
    u.sight s = (v.sight s).putAccount source x ∧
    transfer s source target amount v = credit s target amount u := by
  obtain ⟨x, hx⟩ := Account.debit?_of_le h
  refine ⟨x, (v.touch s source).2.putAccount source x, hx, sight_touch_putAccount s v source x, ?_⟩
  rw [transfer, bind_apply, debit_eq, hx]
  rfl

/-- **Too much to be held**: the debit has been made, and stays. -/
theorem transfer_of_overflow (hne : source ≠ target) (h : amount ≤ v.balance s source)
    (hfull : 2 ^ 128 ≤ (v.balance s target).toNat + amount.toNat) : ∃ w,
    transfer s source target amount v = .error (.error (.balanceOverflow target)) w ∧
    (w.balance s source).toNat + amount.toNat = (v.balance s source).toNat ∧
    (∀ a, a ≠ source → w.account s a = v.account s a) ∧
    (v.sight s).SameButBalances (w.sight s) := by
  obtain ⟨x, u, hx, hu, htransfer⟩ := transfer_of_le_eq target h
  have haccount : u.account s = Function.update (v.account s) source x := congrArg Sight.account hu
  have htarget : u.account s target = v.account s target := by
    rw [haccount, Function.update_of_ne hne.symm]
  have hw : (u.touch s target).2.sight s = (v.sight s).putAccount source x :=
    (sight_touch s u target).trans hu
  have haccount' : (u.touch s target).2.account s = Function.update (v.account s) source x :=
    congrArg Sight.account hw
  refine ⟨(u.touch s target).2, ?_, ?_, fun a ha => ?_, ?_⟩
  · rw [htransfer, credit_eq, htarget, Account.credit?_eq_none hfull]
    rfl
  · rw [balance, haccount', Function.update_self]
    exact Account.toNat_debit? hx
  · rw [haccount', Function.update_of_ne ha]
  · rw [hw]
    exact .putAccount _ (Account.debit?_eq_some hx)

/-- **Enough to give, and room for it**: exactly the amount is moved. From an account to itself
nothing is. -/
theorem transfer_of_fits (h : amount ≤ v.balance s source)
    (hfits : source = target ∨ (v.balance s target).toNat + amount.toNat < 2 ^ 128) : ∃ w,
    transfer s source target amount v = .ok () w ∧
    (source = target → w.sight s = v.sight s) ∧
    (source ≠ target →
      (w.balance s source).toNat + amount.toNat = (v.balance s source).toNat ∧
      (w.balance s target).toNat = (v.balance s target).toNat + amount.toNat) ∧
    (∀ a, a ≠ source → a ≠ target → w.account s a = v.account s a) ∧
    (v.sight s).SameButBalances (w.sight s) := by
  obtain ⟨x, u, hx, hu, htransfer⟩ := transfer_of_le_eq target h
  have hdebit := Account.toNat_debit? hx
  have haccount : u.account s = Function.update (v.account s) source x := congrArg Sight.account hu
  have hroom : (u.balance s target).toNat + amount.toNat < 2 ^ 128 := by
    rw [balance, haccount, Function.update_apply]
    split_ifs with ht
    · rw [hdebit]
      exact (v.account s source).balance.isLt
    · exact hfits.resolve_left (Ne.symm ht)
  obtain ⟨y, hy⟩ := Account.credit?_of_lt hroom
  have hcredit := Account.toNat_credit? hy
  have hw : ((u.touch s target).2.putAccount target y).sight s = (u.sight s).putAccount target y :=
    sight_touch_putAccount s u target y
  have haccount' : ((u.touch s target).2.putAccount target y).account s
      = Function.update (Function.update (v.account s) source x) target y := by
    rw [← haccount]
    exact congrArg Sight.account hw
  have hsame : (v.sight s).SameButBalances (((u.touch s target).2.putAccount target y).sight s) := by
    rw [hw, hu]
    exact (Sight.SameButBalances.putAccount _ (Account.debit?_eq_some hx)).trans
      (.putAccount _ (hu ▸ Account.credit?_eq_some hy))
  refine ⟨(u.touch s target).2.putAccount target y, ?_, ?_, fun hne => ⟨?_, ?_⟩, fun a ha ha' => ?_,
    hsame⟩
  · rw [htransfer, credit_eq, hy]
    rfl
  · rintro rfl
    rw [haccount, Function.update_self] at hy hcredit
    -- the amount comes back to the account that it was taken from
    have hback : y = v.account s source := by
      obtain ⟨_, rfl⟩ := Account.debit?_eq_some hx
      obtain ⟨_, rfl⟩ := Account.credit?_eq_some hy
      rw [Account.mk.injEq]
      exact ⟨rfl, BitVec.eq_of_toNat_eq (hcredit.trans hdebit), rfl⟩
    rw [hw, hu, hback]
    refine Sight.ext ?_ rfl rfl rfl
    rw [Sight.putAccount_account, Sight.putAccount_account, Function.update_idem]
    exact Function.update_eq_self source (v.account s)
  · rw [balance, haccount', Function.update_of_ne hne, Function.update_self]
    exact hdebit
  · rw [balance, haccount', Function.update_self, hcredit, haccount,
      Function.update_of_ne hne.symm]
    rfl
  · rw [haccount', Function.update_of_ne ha', Function.update_of_ne ha]

/-- A transfer that stops in a scope just opened is undone by dropping the scope. -/
theorem sight_revertTo_transfer {stop : Stop} {w : View}
    (h : transfer s source target amount v.checkpoint.2 = .error stop w) :
    (w.revertTo v.checkpoint.1).sight s = v.sight s :=
  sight_revertTo ((transfer_meets s source target amount v.checkpoint.2).of_error h).1

/-- **How a transfer ends** is settled by the two balances. A source that holds less than the amount
keeps everything as it is. If the target, another account, cannot hold the amount beside what it
has, the transfer stops after the debit: the source has the amount less, and all other accounts
are as they were. Otherwise exactly the amount is moved, and nothing if the two are the same
account. Only balances of the two are ever changed, and whenever a transfer stops in a scope just
opened, dropping the scope brings everything back. -/
theorem transfer_moves_or_stops (s : Store) (v : View) (source target : Address) (amount : Wei) :
    (v.balance s source < amount → ∃ w,
      transfer s source target amount v
        = .error (.error (.insufficientBalance amount (v.balance s source))) w ∧
      w.sight s = v.sight s) ∧
    (amount ≤ v.balance s source → source ≠ target →
      2 ^ 128 ≤ (v.balance s target).toNat + amount.toNat → ∃ w,
      transfer s source target amount v = .error (.error (.balanceOverflow target)) w ∧
      (w.balance s source).toNat + amount.toNat = (v.balance s source).toNat ∧
      (∀ a, a ≠ source → w.account s a = v.account s a) ∧
      (v.sight s).SameButBalances (w.sight s)) ∧
    (amount ≤ v.balance s source →
      (source = target ∨ (v.balance s target).toNat + amount.toNat < 2 ^ 128) → ∃ w,
      transfer s source target amount v = .ok () w ∧
      (source = target → w.sight s = v.sight s) ∧
      (source ≠ target →
        (w.balance s source).toNat + amount.toNat = (v.balance s source).toNat ∧
        (w.balance s target).toNat = (v.balance s target).toNat + amount.toNat) ∧
      (∀ a, a ≠ source → a ≠ target → w.account s a = v.account s a) ∧
      (v.sight s).SameButBalances (w.sight s)) ∧
    ∀ stop w, transfer s source target amount v.checkpoint.2 = .error stop w →
      (w.revertTo v.checkpoint.1).sight s = v.sight s :=
  ⟨transfer_of_lt, fun h hne hfull => transfer_of_overflow hne h hfull, transfer_of_fits,
    fun _ _ => sight_revertTo_transfer⟩

/-! ### A debit that stays -/

namespace FullTarget

/-- Account 1 has a little, account 2 all that an account can hold, and account 3 has nothing. -/
def store : Store := Store.ofAccounts [(⟨1⟩, .ofBalance 5), (⟨2⟩, .ofBalance maxWei)]

theorem balance_first : fresh.balance store ⟨1⟩ = 5 := by decide +kernel

theorem balance_second : fresh.balance store ⟨2⟩ = maxWei := by decide +kernel

theorem balance_third : fresh.balance store ⟨3⟩ = 0 := by decide +kernel

end FullTarget

open FullTarget in
/-- The first account can give nothing to the second one, which cannot hold more; it can give all
it has to the third, but not more. -/
theorem transfer_moves_or_stops_full :
    (∃ w, transfer store ⟨1⟩ ⟨3⟩ 6 fresh = .error (.error (.insufficientBalance 6 5)) w ∧
      w.sight store = fresh.sight store) ∧
    (∃ w, transfer store ⟨1⟩ ⟨2⟩ 1 fresh = .error (.error (.balanceOverflow ⟨2⟩)) w ∧
      (w.balance store ⟨1⟩).toNat = 4 ∧ w.account store ⟨2⟩ = fresh.account store ⟨2⟩) ∧
    (∃ w, transfer store ⟨1⟩ ⟨3⟩ 5 fresh = .ok () w ∧ (w.balance store ⟨1⟩).toNat = 0 ∧
      (w.balance store ⟨3⟩).toNat = 5) ∧
    ∃ w, transfer store ⟨2⟩ ⟨2⟩ maxWei fresh = .ok () w ∧ w.sight store = fresh.sight store := by
  obtain ⟨short, -, -, -⟩ := transfer_moves_or_stops store fresh ⟨1⟩ ⟨3⟩ 6
  obtain ⟨-, full, -, -⟩ := transfer_moves_or_stops store fresh ⟨1⟩ ⟨2⟩ 1
  obtain ⟨-, -, fits, -⟩ := transfer_moves_or_stops store fresh ⟨1⟩ ⟨3⟩ 5
  obtain ⟨-, -, self, -⟩ := transfer_moves_or_stops store fresh ⟨2⟩ ⟨2⟩ maxWei
  rw [balance_first] at short full fits
  rw [balance_second] at full self
  rw [balance_third] at fits
  obtain ⟨w, hw, hdebit, hothers, -⟩ := full (by decide) (by decide) (by decide)
  obtain ⟨w', hw', -, hmoved, -⟩ := fits (by decide) (.inr (by decide))
  obtain ⟨hless, hmore⟩ := hmoved (by decide)
  obtain ⟨w'', hw'', hself, -⟩ := self (by decide) (.inl rfl)
  exact ⟨short (by decide), ⟨w, hw, Nat.add_right_cancel hdebit, hothers _ (by decide)⟩,
    ⟨w', hw', Nat.add_right_cancel hless, hmore⟩, w'', hw'', hself rfl⟩

open FullTarget in
/-- **A transfer that stops does not leave every balance as it was.** -/
theorem transfer_keeps_debit : ∃ w,
    transfer store ⟨1⟩ ⟨2⟩ 1 fresh = .error (.error (.balanceOverflow ⟨2⟩)) w ∧
    fresh.balance store ⟨1⟩ = 5 ∧ w.balance store ⟨1⟩ = 4 ∧
    ¬ ∀ a, w.balance store a = fresh.balance store a := by
  have hfull : 2 ^ 128 ≤ (fresh.balance store ⟨2⟩).toNat + (1 : Wei).toNat := by
    rw [balance_second]
    decide
  have hle : (1 : Wei) ≤ fresh.balance store ⟨1⟩ := by
    rw [balance_first]
    decide
  obtain ⟨w, hw, hdebit, -, -⟩ := transfer_of_overflow (by decide) hle hfull
  rw [balance_first] at hdebit
  have hafter : w.balance store ⟨1⟩ = 4 := BitVec.eq_of_toNat_eq (Nat.add_right_cancel hdebit)
  refine ⟨w, hw, balance_first, hafter, fun hall => ?_⟩
  have h := hall ⟨1⟩
  rw [hafter, balance_first] at h
  exact absurd h (by decide)

end View

end MeteredLedger
