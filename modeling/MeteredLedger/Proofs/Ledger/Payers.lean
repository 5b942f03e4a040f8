import MeteredLedger.Proofs.Effect
import MeteredLedger.Proofs.Frame.Occupation
import MeteredLedger.Proofs.Ledger.Total

/-!
# Who pays

Value is taken from the account in whose name a frame acts. That is the account that has
signed, an account whose code is running, or one that is being given its code. So an
account without code that is not given any can be paid, but pays nothing
(`Deeds.balance_le`), unless it has signed itself; and then it pays no more than the value
of the message (`Message.Done.balance_le`).
-/

namespace MeteredLedger

/-- Who gives loses at most the amount, and nobody else loses anything. -/
theorem View.Gives.balance_le {s : Store} {source target : Address} {amount : Wei} {v w : View}
    (h : View.Gives s source target amount v w) (z : Address) :
    (z ≠ source → v.balance s z ≤ w.balance s z) ∧
      (v.balance s z).toNat ≤ (w.balance s z).toNat + amount.toNat := by
  unfold Gives at h
  split_ifs at h
  · obtain ⟨-, x, y, hx, hy, hs⟩ := (transfer_meets s source target amount v).of_ok h
    have hdebit := Account.toNat_debit? hx
    have hcredit := Account.toNat_credit? hy
    have hw : w.balance s z = if z = target then y.balance else if z = source then x.balance
        else v.balance s z := by
      show ((w.sight s).account z).balance = _
      rw [hs]
      simp only [Sight.putAccount_account, Function.update_apply, sight_account]
      split_ifs <;> rfl
    rw [Sight.putAccount_account, Function.update_apply] at hcredit
    rw [hw, BitVec.le_def]
    by_cases ht : z = target
    · subst ht
      by_cases hz : z = source
      · simp only [hz, if_true] at hcredit ⊢
        exact ⟨fun h => absurd rfl h, show (v.account s source).balance.toNat ≤ _ by omega⟩
      · rw [if_neg hz, sight_account] at hcredit
        rw [if_pos rfl]
        refine ⟨fun _ => ?_, ?_⟩ <;> show (v.account s z).balance.toNat ≤ _ <;> omega
    · by_cases hz : z = source
      · subst hz
        rw [if_neg ht, if_pos rfl]
        exact ⟨fun h => absurd rfl h, hdebit.ge⟩
      · rw [if_neg ht, if_neg hz]
        exact ⟨fun _ => Nat.le_refl _, Nat.le_add_right _ _⟩
  · rw [h]
    exact ⟨fun _ => BitVec.le_refl _, Nat.le_add_right _ _⟩

/-- An account with the balance of the one before it. -/
theorem Sight.balance_putAccount {σ : Sight} {a : Address} {y : Account}
    (h : y.balance = (σ.account a).balance) (z : Address) :
    ((σ.putAccount a y).account z).balance = (σ.account z).balance := by
  rw [putAccount_account, Function.update_apply]
  split_ifs with hz
  · rw [h, hz]
  · rfl

namespace View

variable {s : Store} {v w : View}

theorem balance_eq (s : Store) (v : View) (z : Address) :
    v.balance s z = ((v.sight s).account z).balance := rfl

theorem Alike.balance (h : Alike s v w) (z : Address) : w.balance s z = v.balance s z := by
  rw [balance_eq, h.sight, balance_eq]

theorem balance_setSlot (s : Store) (v : View) (x : Slot) (value : Bytes) (z : Address) :
    (v.setSlot x value).balance s z = v.balance s z := by
  rw [balance_eq, sight_setSlot]
  rfl

theorem balance_addLog (s : Store) (v : View) (log : Log) (z : Address) :
    (v.addLog log).balance s z = v.balance s z := by
  rw [balance_eq, sight_addLog]
  rfl

theorem balance_setNonce (s : Store) (v : View) (a : Address) (nonce : Nonce) (z : Address) :
    (v.setNonce s a nonce).balance s z = v.balance s z := by
  rw [balance_eq, sight_setNonce]
  exact Sight.balance_putAccount (by rfl) z

theorem balance_setCode (s : Store) (v : View) (a : Address) (code : Bytes) (z : Address) :
    (v.setCode s a code).balance s z = v.balance s z := by
  rw [balance_eq, sight_setCode]
  exact Sight.balance_putAccount (by rfl) z

theorem balance_bumpNonce {a : Address} (h : bumpNonce s a v = .ok () w) (z : Address) :
    w.balance s z = v.balance s z := by
  rw [balance_eq, ((bumpNonce_meets s a v).of_ok h).2.2]
  exact Sight.balance_putAccount (by rfl) z

/-- An address whose code lies nowhere has none. -/
theorem codeAt_eq_nil {x : Address} (hs : s.codeAt x = []) (hv : v.given? x = none) :
    v.codeAt s x = [] := by
  rw [codeAt_eq_given, hv, hs]
  rfl

end View

/-! ### Accounts without code -/

section

variable {env : Setting} {self x : Address} {v w : View}

theorem Deeds.given?_eq_none (h : Deeds env self v w) (hw : w.given? x = none) :
    v.given? x = none := not_not.1 (mt (h.founded x).1 (not_not.2 hw))

/-- **An account without code that is given none pays for nothing** that is done in the
name of others. -/
theorem Deeds.balance_le (h : Deeds env self v w) (hx : env.store.codeAt x = [])
    (hw : w.given? x = none) (hne : x ≠ self) :
    v.balance env.store x ≤ w.balance env.store x := by
  induction h with
  | nothing h => exact BitVec.le_of_eq (h.balance x).symm
  | trans _ h' ih ih' => exact BitVec.le_trans (ih (h'.given?_eq_none hw) hne) (ih' hw hne)
  | write self v key value => exact BitVec.le_of_eq (View.balance_setSlot _ _ _ _ x).symm
  | leave self v topics data => exact BitVec.le_of_eq (View.balance_addLog _ _ _ x).symm
  | give h => exact (h.balance_le x).1 hne
  | bump h => exact BitVec.le_of_eq (View.balance_bumpNonce h x).symm
  | call code body ih =>
    -- code runs in the name of the account that has it, and this one has none
    refine ih hw ?_
    rintro rfl
    exact code (View.codeAt_eq_nil hx (body.given?_eq_none hw))
  | @create self address nonce amount code v v₁ v₂ named free endow body size ih =>
    rw [View.given?_setCode] at hw
    split_ifs at hw with ha
    calc v.balance env.store x
        = (v.setNonce env.store address 1).balance env.store x := by rw [View.balance_setNonce]
      _ ≤ v₁.balance env.store x := (endow.balance_le x).1 hne
      _ ≤ v₂.balance env.store x := ih hw ha
      _ = (v₂.setCode env.store address code).balance env.store x := by rw [View.balance_setCode]

/-- Whoever has signed pays at most the value of the message, unless its own code runs. -/
theorem Message.Done.balance_le {m : Message} {contract : Option Address}
    (h : m.Done env v contract w) (hx : env.store.codeAt m.sender = [])
    (hw : w.given? m.sender = none) :
    (v.balance env.store m.sender).toNat
      ≤ (w.balance env.store m.sender).toNat + m.value.toNat := by
  cases h with
  | @invoke sender recipient value payload gasLimit gas w done =>
    obtain ⟨v₁, hgive, ⟨-, rfl⟩ | ⟨hcode, hbody⟩⟩ := done
    · have hpaid := (hgive.balance_le sender).2
      rw [(View.checkpoint_alike env.store v).balance] at hpaid
      exact hpaid
    · have hne : sender ≠ recipient := by
        rintro rfl
        exact hcode (View.codeAt_eq_nil hx (hbody.given?_eq_none hw))
      have hpaid := (hgive.balance_le sender).2
      have hrun := BitVec.le_def.1 (hbody.balance_le hx hw hne)
      rw [(View.checkpoint_alike env.store v).balance] at hpaid
      exact hpaid.trans (Nat.add_le_add_right hrun _)
  | @create sender address value initCode code gasLimit gas v₁ w named bump done =>
    obtain ⟨hfree, -, v₂, v₃, hgive, hbody, rfl⟩ := done
    rw [View.given?_setCode] at hw
    split_ifs at hw with hne
    have hpaid := (hgive.balance_le sender).2
    have hrun := BitVec.le_def.1 (hbody.balance_le hx hw hne)
    rw [View.balance_setNonce, (View.checkpoint_alike env.store v₁).balance,
      View.balance_bumpNonce bump] at hpaid
    rw [View.balance_setCode]
    exact hpaid.trans (Nat.add_le_add_right hrun _)

end

/-! ### Transitions -/

/-- A creation that a transition keeps has given an address its code, be it empty. -/
def Processor.Deploys (p : Processor) (m : Message) (a : Ambient) (x : Address) : Prop :=
  x ∈ (p.changes m a).code

instance (p : Processor) (m : Message) (a : Ambient) (x : Address) :
    Decidable (p.Deploys m a x) := by
  unfold Processor.Deploys
  infer_instance

section

variable {p : Processor} {m : Message} {a a' : Ambient} {t : Transition} {x : Address}

/-- Contracts are made at free addresses, named by their creators, and take them. -/
theorem Processor.Deploys.founded (he : p.engine.RunsCode p.params)
    (h : p.execute m a = .ok (t, a')) (hx : p.Deploys m a x) :
    (a.store.sight []).IsFree x ∧ (a'.store.account x).nonce ≠ 0 ∧
      ∃ creator nonce, x = .ofCreation creator nonce := by
  rw [Deploys, Std.ExtTreeMap.mem_iff_isSome_getElem?, Option.isSome_iff_ne_none] at hx
  cases execute_effect he h with
  | none _ _ changes _ =>
    rw [changes] at hx
    exact absurd Std.ExtTreeMap.getElem?_empty hx
  | @some v _ done code store sight =>
    rw [code] at hx
    obtain ⟨hfree, hnonce, hname⟩ := (done.deeds.founded x).2 hx rfl
    refine ⟨hfree, ?_, hname⟩
    have hshown : a'.store.account = v.account a.store := congrArg Sight.account sight
    rw [hshown]
    exact hnonce

/-- An account without code that none is deployed to loses nothing, or as its signer at most
the value of the message. -/
theorem Processor.execute_balance_le (he : p.engine.RunsCode p.params)
    (h : p.execute m a = .ok (t, a')) (hcode : a.store.codeAt x = [])
    (hx : ¬ p.Deploys m a x) :
    (x ≠ m.sender → (a.store.account x).balance ≤ (a'.store.account x).balance) ∧
    (x = m.sender → (a.store.account x).balance.toNat
      ≤ (a'.store.account x).balance.toNat + m.value.toNat) := by
  rw [Deploys, Std.ExtTreeMap.mem_iff_isSome_getElem?, Option.isSome_iff_ne_none, not_not] at hx
  cases execute_effect he h with
  | none _ _ _ store =>
    rw [store]
    exact ⟨fun _ => BitVec.le_refl _, fun _ => Nat.le_add_right _ _⟩
  | @some v _ done code store sight =>
    rw [code] at hx
    have hshown : a'.store.account = v.account a.store := congrArg Sight.account sight
    rw [hshown]
    refine ⟨fun hne => done.deeds.balance_le hcode hx hne, ?_⟩
    rintro rfl
    exact done.balance_le hcode hx

end

/-- **Only signers and code pay.** Whatever a transition runs, and whatever becomes of it:
an account without code has afterwards no less than before, unless it has signed for the
transition or is deployed to; and if it has signed, it has paid no more than the value of
the message. It is deployed to only where nobody had been before, at an address named by a
creator and its nonce. It holds of every engine that runs code. -/
theorem only_signers_and_code_pay :
    (∀ params, (Engine.machine params).RunsCode params) ∧
    ∀ p : Processor, p.engine.RunsCode p.params → ∀ m a t a', p.execute m a = .ok (t, a') →
      a'.store = a.store.apply (p.changes m a) ∧
      (∀ x, p.Deploys m a x → (a.store.account x).nonce = 0 ∧
        (a.store.account x).isContract = false ∧ (a'.store.account x).nonce ≠ 0 ∧
        ∃ creator nonce, x = .ofCreation creator nonce) ∧
      ∀ x, a.store.codeAt x = [] → ¬ p.Deploys m a x →
        (x ≠ m.sender → (a.store.account x).balance ≤ (a'.store.account x).balance) ∧
        (x = m.sender → (a.store.account x).balance.toNat
          ≤ (a'.store.account x).balance.toNat + m.value.toNat) := by
  refine ⟨Engine.runsCode_machine, fun p he m a t a' h => ⟨?_, fun x hx => ?_, fun x hcode hx =>
    Processor.execute_balance_le he h hcode hx⟩⟩
  · cases Processor.execute_effect he h with
    | none _ _ changes store =>
      rw [changes, store]
      rfl
    | some _ _ _ store _ => exact store
  · obtain ⟨⟨hnonce, hhash⟩, htaken, hname⟩ := Processor.Deploys.founded he h hx
    exact ⟨hnonce, hhash, htaken, hname⟩

/-! ### A payment passed on -/

namespace Payment

/-- Gives 5 to account 3. -/
def code : Bytes :=
  [0x60, 0, 0x60, 0, 0x60, 0, 0x60, 0, 0x60, 5, 0x60, 3, 0x61, 0x60, 0x00, 0xf1]

/-- Accounts 1 and 2 have value to give, and account 2 has the code. -/
def store : Store :=
  (Store.ofAccounts [(⟨1⟩, .ofBalance 1000), (⟨2⟩, ⟨1, 70, ⟨7⟩⟩)]).putCode ⟨2⟩ code

/-- Account 1 gives 10 to account 2. -/
def message : Message := .invoke ⟨1⟩ ⟨2⟩ 10 [] 100000

/-- A transaction around it, before its first charge. -/
def ambient : Ambient := ⟨.bounded 100000, .genesis, [], store⟩

/-- The balances of the three accounts. -/
def balances (s : Store) : List Nat := [1, 2, 3].map fun n => (s.account ⟨n⟩).balance.toNat

end Payment

open Payment in
/-- The signer pays the value, the code passes half of it on, and account 3 is paid. -/
theorem only_signers_and_code_pay_passed_on :
    ∃ t a', (Processor.ofParams .standard).execute message ambient = .ok (t, a') ∧
      balances ambient.store = [1000, 70, 0] ∧ balances a'.store = [990, 75, 5] ∧
      (ambient.store.account ⟨3⟩).balance ≤ (a'.store.account ⟨3⟩).balance ∧
      (ambient.store.account ⟨1⟩).balance.toNat
        ≤ (a'.store.account ⟨1⟩).balance.toNat + message.value.toNat := by
  have hpaid : ((Processor.ofParams .standard).execute message ambient).toOption.bind
      (fun e => some (balances e.2.store)) = some [990, 75, 5] := by decide +kernel
  obtain ⟨⟨t, a'⟩, ht, hread⟩ := exists_of_read hpaid
  have hdeploys : ¬ (Processor.ofParams .standard).Deploys message ambient ⟨1⟩ ∧
      ¬ (Processor.ofParams .standard).Deploys message ambient ⟨3⟩ := by decide +kernel
  have hcode : ambient.store.codeAt ⟨1⟩ = [] ∧ ambient.store.codeAt ⟨3⟩ = [] := by decide +kernel
  have h := (only_signers_and_code_pay.2 (.ofParams .standard)
    (Engine.runsCode_machine .standard) message ambient t a' ht).2.2
  exact ⟨t, a', ht, by decide +kernel, Option.some.inj hread,
    (h ⟨3⟩ hcode.2 hdeploys.2).1 (by decide), (h ⟨1⟩ hcode.1 hdeploys.1).2 rfl⟩

end MeteredLedger
