import MeteredLedger.Proofs.Effect
import MeteredLedger.Proofs.Frame.Occupation

/-!
# Occupied addresses stay occupied

What deeds respect in a view, transitions respect in the store (`Processor.execute_respects`),
and so does any number of them, one after another (`Chain.respects`). A contract that a
transition reports stands at an address that was free before it and is taken after it
(`Processor.execute_contract`). Since no address becomes free again, no two transitions
of a chain report the same contract (`occupied_stays`), however addresses are named: two
creators with names that collide cannot both have it.
-/

namespace MeteredLedger

/-- The contract that a message makes has found its address free, and has taken it. -/
theorem Message.Done.contract_taken {env : Setting} {v w : View} {m : Message} {x : Address}
    (h : m.Done env v (some x) w) :
    (v.sight env.store).IsFree x ∧ (w.account env.store x).nonce ≠ 0 := by
  cases h with
  | @create sender _ value initCode code gasLimit gas v₁ _ named bump done =>
    obtain ⟨free, taken⟩ := done.taken
    rw [(View.checkpoint_alike env.store v₁).sight] at free
    exact ⟨(View.bumpNonce_respects bump).free free, taken⟩

namespace Processor

variable {p : Processor} {m : Message} {a a' : Ambient} {t : Transition}

/-- A transition takes nothing from those who are there. -/
theorem execute_respects (he : p.engine.RunsCode p.params) (h : p.execute m a = .ok (t, a')) :
    (a.store.sight []).Respects (a'.store.sight []) := by
  cases execute_effect he h with
  | none _ _ _ store =>
    rw [store]
    exact .refl _
  | @some v _ done _ _ sight =>
    have hends : (v.sight a.store).Respects (a'.store.sight []) := by
      rw [← sight]
      exact .of_eq rfl rfl
    exact Sight.Respects.trans done.deeds.respects hends

/-- The contract that a transition reports has found its address free, and has taken it. -/
theorem execute_contract (he : p.engine.RunsCode p.params) (h : p.execute m a = .ok (t, a'))
    {x : Address} (hx : t.outcome.contract? = some x) :
    (a.store.sight []).IsFree x ∧ (a'.store.account x).nonce ≠ 0 := by
  cases execute_effect he h with
  | none _ contract _ _ =>
    rw [contract] at hx
    cases hx
  | @some v _ done _ _ sight =>
    rw [hx] at done
    have hshown : a'.store.account = v.account a.store := congrArg Sight.account sight
    rw [hshown]
    exact done.contract_taken

end Processor

/-! ### One transition after another -/

/-- **Transitions one after another**, by whatever processors and for whatever messages, each
on the store that the one before has left. -/
inductive Chain : Store → List Transition → Store → Prop where
  | nil (s : Store) : Chain s [] s
  | cons {p : Processor} {m : Message} {a a' : Ambient} {t : Transition} {ts : List Transition}
      {s : Store} (runs : p.engine.RunsCode p.params) (first : p.execute m a = .ok (t, a'))
      (rest : Chain a'.store ts s) : Chain a.store (t :: ts) s

namespace Chain

variable {s s' : Store} {ts : List Transition}

/-- The contracts that transitions report, in order. -/
def contracts (ts : List Transition) : List Address := ts.filterMap (·.outcome.contract?)

theorem respects (h : Chain s ts s') : (s.sight []).Respects (s'.sight []) := by
  induction h with
  | nil s => exact .refl _
  | cons runs first _ ih => exact (Processor.execute_respects runs first).trans ih

/-- A contract that is reported stands at an address that was free at the start. -/
theorem free_of_mem_contracts (h : Chain s ts s') {x : Address} (hx : x ∈ contracts ts) :
    (s.sight []).IsFree x := by
  induction h with
  | nil s => cases hx
  | @cons p m a a' t ts s runs first rest ih =>
    simp only [contracts, List.mem_filterMap, List.mem_cons, exists_eq_or_imp] at hx
    obtain hx | hx := hx
    · exact (Processor.execute_contract runs first hx).1
    · exact (Processor.execute_respects runs first).free (ih (List.mem_filterMap.2 hx))

/-- No contract is reported twice. -/
theorem nodup_contracts (h : Chain s ts s') : (contracts ts).Nodup := by
  induction h with
  | nil s => exact List.nodup_nil
  | @cons p m a a' t ts s runs first rest ih =>
    cases hx : t.outcome.contract? with
    | none => simpa [contracts, hx] using ih
    | some x =>
      simp only [contracts, List.filterMap_cons, hx, List.nodup_cons]
      refine ⟨fun hmem => ?_, ih⟩
      -- after the first report the address is taken, and before another it would be free
      exact (Processor.execute_contract runs first hx).2 (rest.free_of_mem_contracts hmem).1

end Chain

/-- **Occupied addresses stay occupied.** Over any number of transitions, whatever they run
and whatever becomes of them, no nonce goes back; an address whose account has a nonce or a
code hash keeps its code, and stays occupied; and no two successful creations report the
same contract. It holds of every engine that runs code. -/
theorem occupied_stays :
    (∀ params, (Engine.machine params).RunsCode params) ∧
    ∀ s ts s', Chain s ts s' →
      (∀ x, (s.account x).nonce ≤ (s'.account x).nonce) ∧
      (∀ x, (s.account x).nonce ≠ 0 ∨ (s.account x).codeHash ≠ .zero →
        s'.codeAt x = s.codeAt x ∧ (s'.account x).codeHash = (s.account x).codeHash) ∧
      (ts.filterMap (·.outcome.contract?)).Nodup := by
  refine ⟨Engine.runsCode_machine, fun s ts s' h =>
    ⟨h.respects.nonce, fun x hx => h.respects.code x ?_, h.nodup_contracts⟩⟩
  rintro ⟨hnonce, hhash⟩
  obtain hn | hc := hx
  · exact hn hnonce
  · exact hc (by simpa [Account.isContract, Hash.isZero, Store.sight] using hhash)

/-! ### A call and a creation -/

namespace Settlement

/-- Writes 42 to its first slot. -/
def code : Bytes := [0x60, 0x2a, 0x60, 0, 0x55]

/-- Account 1 has value to give, and account 2 has the code. -/
def store : Store :=
  (Store.ofAccounts [(⟨1⟩, ⟨4, 1000, .zero⟩), (⟨2⟩, ⟨1, 70, ⟨7⟩⟩)]).putCode ⟨2⟩ code

/-- Account 1 gives 10 to account 2. -/
def call : Message := .invoke ⟨1⟩ ⟨2⟩ 10 [] 100000

/-- Account 1 makes a contract without code, and gives it 3. -/
def creation : Message := .create ⟨1⟩ 3 [] 100000

/-- A message is carried out on a store. -/
def perform (m : Message) (s : Store) : Except Abort (Transition × Ambient) :=
  (Processor.ofParams .standard).execute m ⟨.bounded 100000, .genesis, [], s⟩

theorem chain_cons {m : Message} {s s' : Store} {t : Transition} {a : Ambient}
    {ts : List Transition} (first : perform m s = .ok (t, a)) (rest : Chain a.store ts s') :
    Chain s (t :: ts) s' :=
  Chain.cons (p := .ofParams .standard) (a := ⟨.bounded 100000, .genesis, [], s⟩)
    (Engine.runsCode_machine .standard) first rest

end Settlement

open Settlement in
/-- One contract is reported, the account that has made it is at its next nonce, and the
code of account 2 is still there. -/
theorem occupied_stays_settled : ∃ t₁ t₂ s', Chain store [t₁, t₂] s' ∧
    ([t₁, t₂].filterMap (·.outcome.contract?)).length = 1 ∧
    (s'.account ⟨1⟩).nonce = 5 ∧ (store.account ⟨1⟩).nonce ≤ (s'.account ⟨1⟩).nonce ∧
    s'.codeAt ⟨2⟩ = code := by
  have hdone : ((perform call store).toOption.bind fun e₁ =>
      (perform creation e₁.2.store).toOption.bind fun e₂ =>
        some (([e₁.1, e₂.1].filterMap (·.outcome.contract?)).length,
          (e₂.2.store.account ⟨1⟩).nonce)) = some (1, 5) := by decide +kernel
  obtain ⟨⟨t₁, a₁⟩, h₁, hrest⟩ := exists_of_read hdone
  obtain ⟨⟨t₂, a₂⟩, h₂, hread⟩ := exists_of_read hrest
  rw [Option.some.injEq, Prod.mk.injEq] at hread
  obtain ⟨hcount, hnonce⟩ := hread
  have chain : Chain store [t₁, t₂] a₂.store := chain_cons h₁ (chain_cons h₂ (.nil _))
  obtain ⟨hnonces, hcodes, -⟩ := occupied_stays.2 _ _ _ chain
  have htaken : (store.account ⟨2⟩).nonce ≠ 0 := by decide
  refine ⟨t₁, t₂, a₂.store, chain, hcount, hnonce, hnonces ⟨1⟩, ?_⟩
  rw [(hcodes ⟨2⟩ (.inl htaken)).1]
  decide

end MeteredLedger
