import MeteredLedger.Proofs.Block.Failures
import MeteredLedger.Proofs.Ledger.Writers

/-!
# Code and its hash

The hash of an account's code lies with the account, and the code lies elsewhere; both are
written in layers, and dropped or kept with them. They stay in step all the same. For an
account is given another hash only where it is given code, in one deed (`Deeds.recodes`), so
that a transition leaves both as they were, or leaves a hash that goes with the code
(`Store.Recodes`, `Processor.execute_recodes`).

If all accounts of a store carry the hash of their code, they do so after any number of
transitions and blocks therefore, and no code has appeared meanwhile that is longer than the
parameters allow (`code_hashed`).
-/

namespace MeteredLedger

/-! ### Deeds -/

namespace View

/-- **Code has come with its hash**: an address has been given neither, or both, and the code
is no longer than the limit. -/
def Recodes (s : Store) (limit : Nat) (x : Address) (v w : View) : Prop :=
  w.given? x = v.given? x ∧ (w.account s x).codeHash = (v.account s x).codeHash ∨
  ∃ code, w.given? x = some code ∧ (w.account s x).codeHash = codeHash code ∧ code.length ≤ limit

variable {s : Store} {limit : Nat} {x : Address} {u v w : View}

theorem Recodes.trans (h : Recodes s limit x u v) (h' : Recodes s limit x v w) :
    Recodes s limit x u w := by
  obtain ⟨hgiven', hhash'⟩ | hnew := h'
  · rw [Recodes, hgiven', hhash']
    exact h
  · exact .inr hnew

/-- Another account at an address, with the same hash. -/
theorem codeHash_putAccount (σ : Sight) (a : Address) (y : Account)
    (h : y.codeHash = (σ.account a).codeHash) (x : Address) :
    ((σ.putAccount a y).account x).codeHash = (σ.account x).codeHash := by
  rw [Sight.putAccount_account, Function.update_apply]
  split_ifs with hx
  · rw [hx, h]
  · rfl

theorem codeHash_setNonce (s : Store) (v : View) (a : Address) (nonce : Nonce) (x : Address) :
    ((v.setNonce s a nonce).account s x).codeHash = (v.account s x).codeHash := by
  rw [← sight_account, sight_setNonce]
  exact codeHash_putAccount (v.sight s) a _ (by rfl) x

theorem codeHash_bumpNonce {a : Address} (h : bumpNonce s a v = .ok () w) (x : Address) :
    (w.account s x).codeHash = (v.account s x).codeHash := by
  rw [← sight_account, ((bumpNonce_meets s a v).of_ok h).2.2]
  exact codeHash_putAccount (v.sight s) a _ (by rfl) x

theorem Gives.codeHash {source target : Address} {amount : Wei}
    (h : Gives s source target amount v w) (x : Address) :
    (w.account s x).codeHash = (v.account s x).codeHash := by
  unfold Gives at h
  split_ifs at h
  · obtain ⟨-, y, z, hy, hz, hs⟩ := (transfer_meets s source target amount v).of_ok h
    rw [← sight_account, hs, codeHash_putAccount _ _ _ (Account.credit?_fixed hz).2,
      codeHash_putAccount _ _ _ (Account.debit?_fixed hy).2, sight_account]
  · rw [h]

theorem codeHash_setCode (s : Store) (v : View) (a : Address) (code : Bytes) (x : Address) :
    ((v.setCode s a code).account s x).codeHash
      = if x = a then View.codeHash code else (v.account s x).codeHash := by
  rw [← sight_account, sight_setCode, Sight.putCode_account, Sight.putAccount_account,
    Function.update_apply]
  split_ifs <;> rfl

end View

/-- **Deeds give an address code and its hash together**, whatever else they do. -/
theorem Deeds.recodes {env : Setting} {self : Address} {v w : View} (h : Deeds env self v w)
    (x : Address) : View.Recodes env.store env.params.maxCodeSize.toNat x v w := by
  induction h with
  | @nothing self v w h =>
    refine .inl ⟨h.code x, ?_⟩
    rw [← View.sight_account, h.sight, View.sight_account]
  | trans _ _ ih ih' => exact ih.trans ih'
  | write self v key value =>
    refine .inl ⟨by rw [View.setSlot, View.given?_modifyTop rfl], ?_⟩
    rw [← View.sight_account, View.sight_setSlot]
    rfl
  | leave self v topics data =>
    refine .inl ⟨by rw [View.addLog, View.given?_modifyTop rfl], ?_⟩
    rw [← View.sight_account, View.sight_addLog]
    rfl
  | give h => exact .inl ⟨by rw [h.given], h.codeHash x⟩
  | bump h =>
    exact .inl ⟨by rw [(View.bumpNonce_given _ _ _).of_ok h], View.codeHash_bumpNonce h x⟩
  | call _ _ ih => exact ih
  | @create self address nonce amount code v v₁ v₂ _ _ endow _ size ih =>
    by_cases hx : x = address
    · refine .inr ⟨code, ?_, ?_, size⟩
      · rw [View.given?_setCode, if_pos hx]
      · rw [View.codeHash_setCode, if_pos hx]
    · have hbegun : View.Recodes env.store env.params.maxCodeSize.toNat x v v₁ := by
        refine .inl ⟨by rw [endow.given, View.given?_setNonce], ?_⟩
        rw [endow.codeHash, View.codeHash_setNonce]
      have hended : View.Recodes env.store env.params.maxCodeSize.toNat x v₂
          (v₂.setCode env.store address code) := by
        refine .inl ⟨?_, ?_⟩
        · rw [View.given?_setCode, if_neg hx]
        · rw [View.codeHash_setCode, if_neg hx]
      exact (hbegun.trans ih).trans hended

/-! ### Transitions -/

namespace Store

theorem code_putCode (s : Store) (a : Address) (code : Bytes) (b : Address) :
    (s.putCode a code).code[b]?
      = if a = b then (if code.isEmpty then none else some code) else s.code[b]? := by
  unfold putCode
  dsimp only
  split_ifs with hempty hab hab <;>
    simp [Std.ExtTreeMap.getElem?_erase, Std.ExtTreeMap.getElem?_insert, hab]

theorem code_apply (s : Store) (c : Changes) (a : Address) :
    (s.apply c).code[a]?
      = (c.code[a]?.map fun code => if code.isEmpty then none else some code).getD s.code[a]? := by
  unfold apply
  dsimp only
  rw [Maps.look_foldl putCode (fun s a => s.code[a]?) _ code_putCode,
    foldl_put_eq putSlot (·.code[a]?) fun _ _ _ => rfl,
    foldl_put_eq putAccount (·.code[a]?) fun _ _ _ => rfl]

/-- The account of an address carries the hash of its code, and a zero hash without code. -/
def HashesCodeAt (s : Store) (x : Address) : Prop :=
  (s.account x).codeHash = s.code[x]?.elim .zero Hash.digest

/-- **All accounts carry the hash of their code.** -/
def HashesCode (s : Store) : Prop := ∀ x, s.HashesCodeAt x

/-- **Code and hashes have changed together**: at every address both are as they were, or the
account carries the hash of its code, which is no longer than the limit. -/
def Recodes (limit : Nat) (s s' : Store) : Prop :=
  ∀ x, s'.code[x]? = s.code[x]? ∧ (s'.account x).codeHash = (s.account x).codeHash ∨
    s'.HashesCodeAt x ∧ ∀ code, s'.code[x]? = some code → code.length ≤ limit

namespace Recodes

variable {limit : Nat} {r s s' : Store}

theorem refl (s : Store) : Recodes limit s s := fun _ => .inl ⟨rfl, rfl⟩

theorem trans (h : Recodes limit r s) (h' : Recodes limit s s') : Recodes limit r s' := by
  intro x
  obtain ⟨hcode, hhash⟩ | hnew := h' x
  · rw [HashesCodeAt, hcode, hhash]
    exact h x
  · exact .inr hnew

theorem mono {limit' : Nat} (h : Recodes limit s s') (hle : limit ≤ limit') :
    Recodes limit' s s' := fun x =>
  (h x).imp_right fun ⟨hhash, hlength⟩ => ⟨hhash, fun code hc => (hlength code hc).trans hle⟩

theorem hashesCode (h : Recodes limit s s') (hs : s.HashesCode) : s'.HashesCode := by
  intro x
  obtain ⟨hcode, hhash⟩ | ⟨hhash, -⟩ := h x
  · rw [HashesCodeAt, hcode, hhash]
    exact hs x
  · exact hhash

theorem length_le (h : Recodes limit s s') {x : Address} {code : Bytes}
    (hc : s'.code[x]? = some code) : s.code[x]? = some code ∨ code.length ≤ limit := by
  obtain ⟨hcode, -⟩ | ⟨-, hlength⟩ := h x
  · exact .inl (hcode ▸ hc)
  · exact .inr (hlength code hc)

end Recodes

end Store

namespace Processor

variable {p : Processor} {m : Message} {a a' : Ambient} {t : Transition}

theorem given?_startView (a : Ambient) (x : Address) : (startView a).given? x = none :=
  Layer.code_empty x

/-- **A transition changes code and hashes together.** -/
theorem execute_recodes (he : p.engine.RunsCode p.params) (h : p.execute m a = .ok (t, a')) :
    Store.Recodes p.params.maxCodeSize.toNat a.store a'.store := by
  cases execute_effect he h with
  | none _ _ _ store =>
    rw [store]
    exact .refl _
  | @some v _ done code store sight =>
    intro x
    have hcode : a'.store.code[x]? = ((v.given? x).map fun code =>
        if code.isEmpty then none else some code).getD a.store.code[x]? := by
      rw [store, Store.code_apply, code]
      rfl
    have hshown : a'.store.account = v.account a.store := congrArg Sight.account sight
    have hstart : (startView a).account a.store = a.store.account :=
      congrArg Sight.account (sight_startView a)
    have hrecodes : View.Recodes a.store p.params.maxCodeSize.toNat x (startView a) v :=
      done.deeds.recodes x
    obtain ⟨hgiven, hhash⟩ | ⟨new, hgiven, hhash, hlength⟩ := hrecodes
    · left
      rw [hcode, hgiven, given?_startView, hshown, hhash]
      exact ⟨rfl, congrArg Account.codeHash (congrFun hstart x)⟩
    · right
      rw [hgiven] at hcode
      rw [Store.HashesCodeAt, hcode, hshown, hhash, View.codeHash]
      cases new with
      | nil => exact ⟨rfl, nofun⟩
      | cons b bs =>
        refine ⟨rfl, ?_⟩
        rintro _ ⟨⟩
        exact hlength

end Processor

/-! ### Transitions and blocks -/

/-- **Transitions and blocks one after another**, on the store that the one before has left,
by processors whose parameters let no contract have more code than the limit. A block need not
be executed to its end. -/
inductive History (limit : Nat) : Store → Store → Prop where
  | nil (s : Store) : History limit s s
  | transition {p : Processor} {m : Message} {a a' : Ambient} {t : Transition} {s : Store}
      (runs : p.engine.RunsCode p.params) (within : p.params.maxCodeSize.toNat ≤ limit)
      (first : p.execute m a = .ok (t, a')) (rest : History limit a'.store s) :
      History limit a.store s
  | block {p : Processor} {b : Block} {r s s' : Store} {result : Except LedgerError BlockExecution}
      (runs : p.engine.RunsCode p.params) (within : p.params.maxCodeSize.toNat ≤ limit)
      (first : BlockExecution.executeWith (.ofProcessor p) b r = .ok (result, s))
      (rest : History limit s s') : History limit r s'

/-- Code and hashes change together over any history. -/
theorem History.recodes {limit : Nat} {s s' : Store} (h : History limit s s') :
    Store.Recodes limit s s' := by
  induction h with
  | nil s => exact .refl s
  | transition runs within first _ ih =>
    exact ((Processor.execute_recodes runs first).mono within).trans ih
  | block runs within first _ ih =>
    refine .trans (.mono ?_ within) ih
    exact BlockExecution.executeWith_keeps Store.Recodes.refl (fun _ _ _ h h' => h.trans h')
      (fun _ _ _ _ hx => Processor.execute_recodes runs hx) first

/-- **Accounts carry the hash of their code.** If all of them do so in a store, zero without
code and the hash of the code with some, then they do so after any number of transitions and
blocks, whatever these run and whatever becomes of them; and all code that was not there at the
start is within the limit. It holds of every engine that runs code. -/
theorem code_hashed :
    (∀ params, (Engine.machine params).RunsCode params) ∧
    ∀ (limit : Nat) (s s' : Store), History limit s s' →
      (s.HashesCode → s'.HashesCode) ∧
      ∀ (x : Address) (code : Bytes), s'.code[x]? = some code →
        s.code[x]? = some code ∨ code.length ≤ limit :=
  ⟨Engine.runsCode_machine, fun _ _ _ h => ⟨h.recodes.hashesCode, fun _ _ => h.recodes.length_le⟩⟩

/-! ### A contract, and a block that calls it -/

/-- An account that is given code and its hash carries the hash of its code. -/
theorem Store.HashesCode.deployed {s : Store} (h : s.HashesCode) (a : Address) (nonce : Nonce)
    (balance : Wei) (code : Bytes) :
    ((s.putAccount a ⟨nonce, balance, View.codeHash code⟩).putCode a code).HashesCode := by
  intro x
  unfold HashesCodeAt
  rw [code_putCode]
  show ((s.putAccount a ⟨nonce, balance, View.codeHash code⟩).account x).codeHash = _
  rw [account_putAccount]
  by_cases hx : a = x
  · cases code <;> simp [hx, View.codeHash]
  · rw [if_neg hx, if_neg hx]
    exact h x

namespace Hashed

open BlockExecution
open BurntBlock (target)

/-- Account 1 makes a contract whose code is a single byte, in front of which its creation
writes a slot. -/
def creation : Message :=
  .create ⟨1⟩ 0 [0x60, 7, 0x60, 0, 0x55, 0x60, 1, 0x60, 0, 0xf3] 100000

/-- The contract, named by its creator and nonce 0. -/
def made : Address := ⟨0x609a181ea27783ab295141c92610456e0289a7e3⟩

/-- The called account has code, and its hash. -/
def store : Store :=
  ((Store.empty.putAccount target ⟨1, 0, View.codeHash OnceOnly.code⟩).putCode target
    OnceOnly.code)

theorem hashesCode_store : store.HashesCode := by
  refine Store.HashesCode.deployed (fun x => ?_) target 1 0 OnceOnly.code
  show ((∅ : AddressMap Account)[x]?.getD .empty).codeHash = (∅ : AddressMap Bytes)[x]?.elim _ _
  rw [Std.ExtTreeMap.getElem?_empty, Std.ExtTreeMap.getElem?_empty]
  rfl

end Hashed

open Hashed BlockExecution in
open BurntBlock (block ready prepare_block) in
/-- A contract is made, and then a block calls another one: the contract's account carries the
hash of the code that it was given. -/
theorem code_hashed_made : ∃ s', History 24576 store s' ∧ s'.HashesCode ∧
    s'.code[made]? = some [0] ∧ (s'.account made).codeHash = .digest [0] := by
  have hread : ((Processor.ofParams .standard).execute creation
      ⟨.bounded 100000, .genesis, [], store⟩).toOption.bind (fun made' =>
        (executeAll (.ofProcessor (.ofParams .standard)) (block 1).header
          (List.replicate 1 (ready OnceOnly.payer)) ⟨[], 0, [], made'.2.store⟩).toOption.bind
            fun answer => answer.1.toOption.bind fun done => done.store.code[made]?)
      = some [0] := by
    decide +kernel
  obtain ⟨⟨t, a⟩, hcreated, hrest⟩ := exists_of_read hread
  obtain ⟨⟨answer, s'⟩, hall, hanswer⟩ := exists_of_read hrest
  obtain ⟨done, rfl, hmade⟩ := exists_of_read hanswer
  have hprepared := prepare_block (.ofParams .standard) 1
  rw [OnceOnly.ofPublicKey_key] at hprepared
  obtain ⟨rfl, hblock⟩ := executeWith_of_executeAll hprepared hall
  have hruns := Engine.runsCode_machine Params.standard
  have hhistory : History 24576 store done.store :=
    .transition hruns (Nat.le_refl _) hcreated (.block hruns (Nat.le_refl _) hblock (.nil _))
  have hhashes := (code_hashed.2 24576 store _ hhistory).1 hashesCode_store
  refine ⟨done.store, hhistory, hhashes, hmade, ?_⟩
  rw [hhashes made, hmade]
  rfl

end MeteredLedger
