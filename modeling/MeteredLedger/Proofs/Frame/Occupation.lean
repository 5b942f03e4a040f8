import MeteredLedger.Proofs.Frame.Deeds

/-!
# Addresses that are taken

An address is taken once its account has a nonce or the hash of some code. From then on it
keeps its code, and its nonce never goes back: no deed of any account respects less than
that (`Deeds.respects`). For contracts are made at free addresses only, and take them at
once, before the code that they are created with can make another one.

So the changes of a view give code to such addresses only as were free before, and named
by a creator and its nonce (`Deeds.founded`).
-/

namespace MeteredLedger

namespace Sight

/-- **Nothing is taken from those who are there**: nonces do not go back, and an address
that is taken keeps its code and its code hash. -/
structure Respects (σ τ : Sight) : Prop where
  nonce : ∀ x, (σ.account x).nonce ≤ (τ.account x).nonce
  code : ∀ x, ¬ σ.IsFree x → τ.code x = σ.code x ∧ (τ.account x).codeHash = (σ.account x).codeHash

namespace Respects

variable {ρ σ τ : Sight}

theorem of_eq (ha : τ.account = σ.account) (hc : τ.code = σ.code) : σ.Respects τ := by
  refine ⟨fun x => ?_, fun x _ => ⟨?_, ?_⟩⟩
  · rw [ha]
    exact UInt64.le_refl _
  · rw [hc]
  · rw [ha]

theorem refl (σ : Sight) : σ.Respects σ := .of_eq rfl rfl

/-- An address that is free in the end has been free all the time. -/
theorem free (h : σ.Respects τ) {x : Address} (hx : τ.IsFree x) : σ.IsFree x := by
  by_contra hn
  have hle := h.nonce x
  rw [hx.1] at hle
  refine hn ⟨UInt64.le_antisymm hle (UInt64.zero_le), ?_⟩
  have hhash := (h.code x hn).2
  have hcode := hx.2
  unfold Account.isContract at hcode ⊢
  rw [← hhash]
  exact hcode

theorem trans (h : ρ.Respects σ) (h' : σ.Respects τ) : ρ.Respects τ := by
  refine ⟨fun x => UInt64.le_trans (h.nonce x) (h'.nonce x), fun x hx => ?_⟩
  obtain ⟨hcode, hhash⟩ := h.code x hx
  obtain ⟨hcode', hhash'⟩ := h'.code x fun hfree => hx (h.free hfree)
  exact ⟨hcode'.trans hcode, hhash'.trans hhash⟩

/-- Another account, with no smaller nonce and the same code hash. -/
theorem putAccount (σ : Sight) {a : Address} {y : Account} (hn : (σ.account a).nonce ≤ y.nonce)
    (hc : y.codeHash = (σ.account a).codeHash) : σ.Respects (σ.putAccount a y) := by
  refine ⟨fun x => ?_, fun x _ => ⟨rfl, ?_⟩⟩ <;> by_cases h : x = a
  · subst h
    simpa using hn
  · simp [h]
  · subst h
    simpa using hc
  · simp [h]

/-- Other code for an address that has been free at the start. -/
theorem deployed (h : σ.Respects τ) {a : Address} (ha : σ.IsFree a) (hash : Hash) (code : Bytes) :
    σ.Respects ((τ.putAccount a { τ.account a with codeHash := hash }).putCode a code) := by
  refine ⟨fun x => ?_, fun x hx => ?_⟩
  · by_cases hxa : x = a
    · subst hxa
      simpa using h.nonce x
    · simpa [hxa] using h.nonce x
  · have hxa : x ≠ a := by
      rintro rfl
      exact hx ha
    simpa [hxa] using h.code x hx

/-- A nonce that is not zero stays so. -/
theorem nonce_ne_zero (h : σ.Respects τ) {x : Address} (hx : (σ.account x).nonce ≠ 0) :
    (τ.account x).nonce ≠ 0 := by
  intro hz
  have hle := h.nonce x
  rw [hz] at hle
  exact hx (UInt64.le_antisymm hle UInt64.zero_le)

end Respects

end Sight

/-! ### What the deeds respect -/

theorem Account.debit?_fixed {x y : Account} {amount : Wei} (h : x.debit? amount = some y) :
    y.nonce = x.nonce ∧ y.codeHash = x.codeHash := by
  unfold debit? at h
  split_ifs at h
  cases h
  exact ⟨rfl, rfl⟩

theorem Account.credit?_fixed {x y : Account} {amount : Wei} (h : x.credit? amount = some y) :
    y.nonce = x.nonce ∧ y.codeHash = x.codeHash := by
  simp only [credit?, Option.map_eq_some_iff] at h
  obtain ⟨balance, -, rfl⟩ := h
  exact ⟨rfl, rfl⟩

namespace View

variable {s : Store} {v w : View}

theorem Gives.respects {source target : Address} {amount : Wei}
    (h : Gives s source target amount v w) : (v.sight s).Respects (w.sight s) := by
  unfold Gives at h
  split_ifs at h
  · obtain ⟨-, x, y, hx, hy, hs⟩ := (transfer_meets s source target amount v).of_ok h
    obtain ⟨hnx, hcx⟩ := Account.debit?_fixed hx
    obtain ⟨hny, hcy⟩ := Account.credit?_fixed hy
    rw [hs]
    exact (Sight.Respects.putAccount _ (UInt64.le_of_eq hnx.symm) hcx).trans
      (.putAccount _ (UInt64.le_of_eq hny.symm) hcy)
  · rw [h]
    exact .refl _

theorem bumpNonce_respects {a : Address} (h : bumpNonce s a v = .ok () w) :
    (v.sight s).Respects (w.sight s) := by
  obtain ⟨-, hlt, hs⟩ := (bumpNonce_meets s a v).of_ok h
  rw [hs]
  refine .putAccount _ (UInt64.le_iff_toNat_le.2 ?_) rfl
  rw [UInt64.toNat_add, Nat.mod_eq_of_lt (by exact hlt)]
  exact Nat.le_succ _

theorem setNonce_respects {a : Address} (h : (v.sight s).IsFree a) :
    (v.sight s).Respects ((v.setNonce s a 1).sight s) := by
  rw [sight_setNonce]
  refine .putAccount _ ?_ rfl
  rw [h.1]
  exact UInt64.zero_le

theorem nonce_setCode (s : Store) (v : View) (a : Address) (code : Bytes) (x : Address) :
    ((v.setCode s a code).account s x).nonce = (v.account s x).nonce := by
  rw [← sight_account, sight_setCode]
  by_cases h : x = a
  · subst h
    simp
  · simp [h]

end View

/-- **No deed takes anything from those who are there.** -/
theorem Deeds.respects {env : Setting} {self : Address} {v w : View} (h : Deeds env self v w) :
    (v.sight env.store).Respects (w.sight env.store) := by
  induction h with
  | nothing h =>
    rw [h.sight]
    exact .refl _
  | trans _ _ ih ih' => exact ih.trans ih'
  | write self v key value =>
    rw [View.sight_setSlot]
    exact .of_eq rfl rfl
  | leave self v topics data =>
    rw [View.sight_addLog]
    exact .of_eq rfl rfl
  | give h => exact h.respects
  | bump h => exact View.bumpNonce_respects h
  | call _ _ ih => exact ih
  | create _ free endow _ _ ih =>
    rw [View.sight_setCode]
    exact (((View.setNonce_respects free).trans endow.respects).trans ih).deployed free _ _

/-- Whatever the code does that a contract is created with, its address stays taken. -/
theorem Deeds.taken {env : Setting} {self payer address : Address} {amount : Wei}
    {v v₁ v₂ : View}
    (endow : View.Gives env.store payer address amount (v.setNonce env.store address 1) v₁)
    (body : Deeds env self v₁ v₂) (code : Bytes) :
    ((v₂.setCode env.store address code).account env.store address).nonce ≠ 0 := by
  rw [View.nonce_setCode]
  refine (endow.respects.trans body.respects).nonce_ne_zero ?_
  rw [View.sight_setNonce]
  simp

/-- A creation that ends well has found its address free, and has taken it. -/
theorem Creation.Done.taken {env : Setting} {c : Creation} {address : Address} {code : Bytes}
    {v w : View} (h : c.Done env address code v w) :
    (v.sight env.store).IsFree address ∧ (w.account env.store address).nonce ≠ 0 := by
  obtain ⟨free, -, v₁, v₂, endow, body, rfl⟩ := h
  exact ⟨free, Deeds.taken endow body code⟩

/-! ### Who is given code -/

namespace View

/-- The code that the changes of a view give an address. -/
def given? (v : View) (a : Address) : Option Bytes := v.find? (·.code[a]?)

variable {s : Store} {v w : View}

theorem codeAt_eq_given (s : Store) (v : View) (a : Address) :
    v.codeAt s a = (v.given? a).getD (s.codeAt a) := codeAt_eq s v a

theorem given?_modifyTop {f : Layer → Layer} (h : (f v.top).code = v.top.code) :
    (v.modifyTop f).given? = v.given? := by
  funext a
  rw [given?, find?_modifyTop, h, given?, find?_eq_or]

theorem given?_touch (s : Store) (v : View) (a : Address) : (v.touch s a).2.given? = v.given? := by
  obtain ⟨u, hu, ht, hin⟩ := touch_snd s v a
  rw [hu, putAccount, given?_modifyTop rfl]
  funext b
  rw [given?, given?, find?_eq_or u, find?_eq_or v, ht, hin.below]

/-- Bringing an account in and changing it gives no code. -/
theorem given?_touch_putAccount (s : Store) (v : View) (a : Address) (x : Account) :
    ((v.touch s a).2.putAccount a x).given? = v.given? := by
  rw [putAccount, given?_modifyTop rfl, given?_touch]

theorem given?_setNonce (s : Store) (v : View) (a : Address) (nonce : Nonce) :
    (v.setNonce s a nonce).given? = v.given? := given?_touch_putAccount s v a _

theorem given?_setCode (s : Store) (v : View) (a : Address) (code : Bytes) (b : Address) :
    (v.setCode s a code).given? b = if b = a then some code else v.given? b := by
  have ht := congrFun (given?_touch_putAccount s v a
    { v.account s a with codeHash := codeHash code }) b
  unfold setCode
  simp only [touch_fst]
  rw [given?, find?_modifyTop, Std.ExtTreeMap.getElem?_insert]
  by_cases hb : b = a
  · simp [hb]
  · rw [given?, find?_eq_or] at ht
    simp [hb, Ne.symm hb, ht]

theorem debit_given (s : Store) (a : Address) (amount : Wei) (v : View) :
    Meets (debit s a amount) v (fun _ w => w.given? = v.given?) fun _ _ => True := by
  unfold Meets debit
  simp only [touch_fst]
  cases (v.account s a).debit? amount with
  | some x => exact given?_touch_putAccount s v a x
  | none => trivial

theorem credit_given (s : Store) (a : Address) (amount : Wei) (v : View) :
    Meets (credit s a amount) v (fun _ w => w.given? = v.given?) fun _ _ => True := by
  unfold Meets credit
  simp only [touch_fst]
  cases (v.account s a).credit? amount with
  | some x => exact given?_touch_putAccount s v a x
  | none => trivial

theorem transfer_given (s : Store) (source target : Address) (amount : Wei) (v : View) :
    Meets (transfer s source target amount) v (fun _ w => w.given? = v.given?)
      fun _ _ => True := by
  refine Meets.bind ((debit_given s source amount v).mono ?_ fun _ _ h => h)
  intro _ u hu
  exact (credit_given s target amount u).mono (fun _ _ h => h.trans hu) fun _ _ h => h

theorem bumpNonce_given (s : Store) (a : Address) (v : View) :
    Meets (bumpNonce s a) v (fun _ w => w.given? = v.given?) fun _ _ => True := by
  unfold Meets bumpNonce
  simp only [touch_fst]
  cases (v.account s a).bumpNonce with
  | ok x => exact given?_touch_putAccount s v a x
  | error f => trivial

theorem Gives.given {source target : Address} {amount : Wei}
    (h : Gives s source target amount v w) : w.given? = v.given? := by
  unfold Gives at h
  split_ifs at h
  · exact (transfer_given s source target amount v).of_ok h
  · rw [h]

end View

/-- **Code is given to contracts that are made**: to an address named by its creator and a
nonce, free before and not any more after. What is given stays given. -/
theorem Deeds.founded {env : Setting} {self : Address} {v w : View} (h : Deeds env self v w)
    (x : Address) : (v.given? x ≠ none → w.given? x ≠ none) ∧
      (w.given? x ≠ none → v.given? x = none → (v.sight env.store).IsFree x ∧
        (w.account env.store x).nonce ≠ 0 ∧ ∃ creator nonce, x = .ofCreation creator nonce) := by
  induction h with
  | @nothing self v w h =>
    have heq : w.given? x = v.given? x := h.code x
    rw [heq]
    exact ⟨id, fun hw hv => absurd hv hw⟩
  | @trans self u v w h h' ih ih' =>
    refine ⟨fun hu => ih'.1 (ih.1 hu), fun hw hu => ?_⟩
    by_cases hv : v.given? x = none
    · obtain ⟨hfree, hnonce, hname⟩ := ih'.2 hw hv
      exact ⟨h.respects.free hfree, hnonce, hname⟩
    · obtain ⟨hfree, hnonce, hname⟩ := ih.2 hv hu
      exact ⟨hfree, h'.respects.nonce_ne_zero hnonce, hname⟩
  | write self v key value =>
    rw [View.setSlot, View.given?_modifyTop rfl]
    exact ⟨id, fun hw hv => absurd hv hw⟩
  | leave self v topics data =>
    rw [View.addLog, View.given?_modifyTop rfl]
    exact ⟨id, fun hw hv => absurd hv hw⟩
  | give h =>
    rw [h.given]
    exact ⟨id, fun hw hv => absurd hv hw⟩
  | bump h =>
    rw [(View.bumpNonce_given _ _ _).of_ok h]
    exact ⟨id, fun hw hv => absurd hv hw⟩
  | call _ _ ih => exact ih
  | @create self address nonce amount code v v₁ v₂ named free endow body _ ih =>
    rw [View.given?_setCode]
    have hstart : v₁.given? = v.given? := by rw [endow.given, View.given?_setNonce]
    by_cases hx : x = address
    · subst hx
      exact ⟨by simp, fun _ _ => ⟨free, Deeds.taken endow body code, self, nonce, named⟩⟩
    · rw [if_neg hx, ← hstart]
      refine ⟨ih.1, fun hw hv => ?_⟩
      obtain ⟨hfree, hnonce, hname⟩ := ih.2 hw hv
      refine ⟨((View.setNonce_respects free).trans endow.respects).free hfree, ?_, hname⟩
      rw [View.nonce_setCode]
      exact hnonce

end MeteredLedger
