import MeteredLedger.Proofs.Block.Steps
import MeteredLedger.Proofs.Frame.Oblivious
import MeteredLedger.Proofs.Ledger.Writers
import MeteredLedger.Proofs.Simulation

/-!
# More gas never hurts

A transition on more gas is the same transition as long as nothing looks at the gas. The code that a
message runs may do so, and may hand gas on to other code; if it does neither (`Code.Oblivious`),
then its frame ends alike on more gas, with so much more left. What has been consumed is then the
same (`Grant.reconcile_more`), and so are the attempt (`Processor.attempt_more`) and what is made of
it. So a transition that takes effect on some gas takes the same effect on more
(`more_gas_never_hurts`).
-/

namespace MeteredLedger

namespace Message

/-- The message on another amount of gas. -/
def withGas (gas : Gas) : Message → Message
  | .create sender value initCode _ => .create sender value initCode gas
  | .invoke sender recipient value payload _ => .invoke sender recipient value payload gas

/-- The code that a message runs: the one that a contract is created with, or that of the account
that is called. -/
def code (codeAt : Address → Bytes) : Message → Bytes
  | .create _ _ initCode _ => initCode
  | .invoke _ recipient .. => codeAt recipient

theorem sender_withGas (m : Message) (gas : Gas) : (m.withGas gas).sender = m.sender := by
  cases m <;> rfl

theorem gasLimit_withGas (m : Message) (gas : Gas) : (m.withGas gas).gasLimit = gas := by
  cases m <;> rfl

end Message

/-! ### Engines -/

namespace Engine

/-- **The engine is patient**: it runs code, and on more gas in no fewer steps. -/
def Patient (params : Params) (e : Engine) : Prop :=
  ∀ context context' store m (gas more : Gas) w, gas ≤ more → ∃ few many, few ≤ many ∧
    e.run context store m gas w = (inSteps params few).run context store m gas w ∧
    e.run context' store m more w = (inSteps params many).run context' store m more w

theorem patient_inSteps (params : Params) (steps : Nat) : (inSteps params steps).Patient params :=
  fun _ _ _ _ _ _ _ _ => ⟨steps, steps, Nat.le_refl _, rfl, rfl⟩

theorem patient_machine (params : Params) : (machine params).Patient params := by
  intro context context' store m gas more w hle
  have hgas := Nat.add_le_add_right (UInt64.le_iff_toNat_le.1 hle) 2
  have hsteps : ∀ initCode, stepsFor params gas (longestCode ⟨params, context, store⟩ w initCode)
      ≤ stepsFor params more (longestCode ⟨params, context', store⟩ w initCode) := fun _ =>
    Nat.mul_le_mul_left _ (Nat.mul_le_mul_right _ hgas)
  cases m with
  | create sender value initCode _ =>
    refine ⟨_, _, hsteps initCode, ?_, ?_⟩ <;> dsimp only [run, machine, inSteps, Creation.perform]
  | invoke sender recipient value payload _ =>
    refine ⟨_, _, hsteps [], ?_, ?_⟩ <;> dsimp only [run, machine, inSteps, Call.perform]

variable {params : Params} {context : Context} {store : Store} {m : Message} {gas more : Gas}
  {w w' : World} {r : FrameResult}

theorem run_withGas (e : Engine) (given : Gas) :
    e.run context store (m.withGas given) gas w = e.run context store m gas w := by
  cases m <;> rfl

/-- In the same steps, a run that ends well ends alike on more gas. -/
theorem inSteps_more {steps : Nat} (hle : gas ≤ more)
    (hcode : Code.Oblivious (m.code (w.view.codeAt store)))
    (h : (inSteps params steps).run context store m gas w = .ok (r, w')) (hr : r.error = none) :
    (inSteps params steps).run { context with gasLimit := more } store m more w
      = .ok (r.withMore (more - gas), w') := by
  cases m with
  | create sender value initCode _ =>
    exact createIn_richer (c := ⟨sender, initCode, gas, value, 0⟩) h hr hle hcode
  | invoke sender recipient value payload _ =>
    exact callIn_richer (c := ⟨sender, recipient, payload, gas, value, 0⟩) h hr hle hcode

/-- **A run that ends well ends alike on more gas**, if its code does not look at it. -/
theorem Patient.run_more {e : Engine} (he : e.Patient params) (hle : gas ≤ more)
    (hcode : Code.Oblivious (m.code (w.view.codeAt store)))
    (h : e.run context store m gas w = .ok (r, w')) (hr : r.error = none) :
    e.run { context with gasLimit := more } store m more w = .ok (r.withMore (more - gas), w') := by
  obtain ⟨few, many, hsteps, hfew, hmany⟩ :=
    he context { context with gasLimit := more } store m gas more w hle
  have hmore := inSteps_more hle hcode (hfew.symm.trans h) hr
  rw [hmany, inSteps_of_le hsteps (by rw [hmore]; nofun), hmore]

end Engine

/-! ### Attempts -/

/-- What is left beyond makes no difference to what has been consumed. -/
theorem Grant.reconcile_more {gas more left : Gas} {inner : Meter} {figures : Reconciliation}
    (hle : gas ≤ more)
    (h : reconcile { ofMeter .untracked gas with inner } left = .ok figures) :
    reconcile { ofMeter .untracked more with inner } (left + (more - gas)) = .ok figures := by
  have hgap := UInt64.toNat_sub_of_le _ _ hle
  have hmax := toNat_le_maxGas more
  unfold reconcile at h ⊢
  dsimp only at h ⊢
  rw [show (ofMeter .untracked gas).gas = gas from rfl] at h
  rw [show (ofMeter .untracked more).gas = more from rfl]
  split_ifs at h with hmuch hdiffers
  rw [UInt64.not_lt] at hmuch
  have hconsumed := UInt64.toNat_sub_of_le _ _ hmuch
  rw [UInt64.le_iff_toNat_le] at hle hmuch
  have hsum : (left + (more - gas)).toNat = left.toNat + (more.toNat - gas.toNat) := by
    rw [toNat_add_gas (by omega), hgap]
  have hleft : left + (more - gas) ≤ more := by
    rw [UInt64.le_iff_toNat_le, hsum]
    omega
  have hsame : more - (left + (more - gas)) = gas - left := by
    rw [← UInt64.toNat_inj, UInt64.toNat_sub_of_le _ _ hleft, hconsumed, hsum]
    omega
  rw [if_neg (UInt64.not_lt.2 hleft), hsame, if_neg hdiffers]
  exact h

namespace Processor

variable {p : Processor} {m : Message} {header : Header} {store : Store} {view : View}
  {gas more : Gas}

/-- A run whose attempt ends well has ended without an error, and within the limit around it. -/
theorem classify_eq_ok {g : Grant} {result : FrameResult} {run : Finished}
    (h : classify g result view = .ok (.ok run)) :
    result.error = none ∧ ∃ figures, g.reconcile result.gasRemaining = .ok figures ∧
      figures.exceedsOuter = false ∧ run = ⟨result, figures, view⟩ := by
  unfold classify at h
  split at h
  · cases h
  · cases h
  · rename_i figures hfigures
    split at h
    · cases h
    · rename_i herror
      split_ifs at h with hexceeds
      · cases h
      · cases h
        exact ⟨herror, figures, hfigures, by simpa using hexceeds, rfl⟩

/-- **An attempt that ends well ends alike on more gas**, if its code does not look at it. -/
theorem attempt_more (he : p.engine.Patient p.params) (hle : gas ≤ more)
    (hcode : Code.Oblivious (m.code (view.resync.codeAt store))) {run : Finished}
    (h : p.attempt (m.withGas gas) header store view (.ofMeter .untracked gas) = .ok (.ok run)) :
    p.attempt (m.withGas more) header store view (.ofMeter .untracked more)
      = .ok (.ok { run with result := run.result.withMore (more - gas) }) := by
  rw [attempt_eq_bind, Message.sender_withGas, Engine.run_withGas] at h ⊢
  obtain ⟨⟨r, w⟩, hr, hclass⟩ := exists_of_bind_ok h
  obtain ⟨herror, figures, hfigures, hexceeds, rfl⟩ := classify_eq_ok hclass
  have hmore := he.run_more hle hcode hr herror
  have hsame := Grant.reconcile_more hle hfigures
  have hclass' : classify { Grant.ofMeter .untracked more with inner := w.ledger }
      (r.withMore (more - gas)) w.view = .ok (.ok ⟨r.withMore (more - gas), figures, w.view⟩) := by
    unfold classify
    rw [show (r.withMore (more - gas)).gasRemaining = r.gasRemaining + (more - gas) from rfl, hsame,
      show (r.withMore (more - gas)).error = none from herror]
    dsimp only
    rw [hexceeds]
    rfl
  exact (congrArg (· >>= _) hmore).trans hclass'

/-! ### Transitions -/

/-- **What a transition comes to**: what it tells, and the store that it leaves. -/
def ComesTo (p : Processor) (m : Message) (a : Ambient) (t : Transition) (store : Store) : Prop :=
  ∃ a', p.execute m a = .ok (t, a') ∧ a'.store = store

/-- A transition that takes effect has attempted its message, and has published the view. -/
theorem ComesTo.attempted {a : Ambient} {t : Transition} {store : Store}
    (h : p.ComesTo m a t store) (ht : t.isSuccess = true) :
    ∃ run, p.attemptOf m a = .ok (.ok run) ∧ run.view.isReadOnly = false ∧
      t = .succeeded run.outcome (.digest a.txBytes) run.view.logs ∧
      store = a.store.apply run.view.pending := by
  obtain ⟨a', hx, rfl⟩ := h
  have hcases := execute_cases p m a
  rw [hx] at hcases
  cases hcases with
  | failed ha =>
    rw [Transition.isSuccess, Transition.failed] at ht
    cases (attempt_isSuccess ha).symm.trans ht
  | uncharged _ _ => cases ht
  | unpublished _ _ _ => cases ht
  | @effective run meter logs store ha hc hp =>
    obtain ⟨hw, rfl, rfl⟩ := View.publish_eq_ok hp
    exact ⟨run, ha, hw, rfl, rfl⟩

/-- On a fresh meter with room for it, a message is attempted as on gas that nobody has to give. -/
theorem attemptOf_withGas {limit : Gas} (h : gas ≤ limit) (txBytes : Bytes) :
    p.attemptOf (m.withGas gas) ⟨.bounded limit, header, txBytes, store⟩
      = p.attempt (m.withGas gas) header store (View.fresh.tagged (.digest txBytes))
          (.ofMeter .untracked gas) := by
  unfold attemptOf
  rw [Message.gasLimit_withGas]
  exact attempt_fresh h

/-- **A transition that takes effect takes the same effect on more gas**, if the code that it runs
does not look at it. -/
theorem ComesTo.withGas (he : p.engine.Patient p.params)
    (hcode : Code.Oblivious (m.code store.codeAt)) {limit room : Gas} (hgas : gas ≤ limit)
    (hle : gas ≤ more) (hroom : more ≤ room) {txBytes : Bytes} {t : Transition} {store' : Store}
    (h : p.ComesTo (m.withGas gas) ⟨.bounded limit, header, txBytes, store⟩ t store')
    (ht : t.isSuccess = true) :
    p.ComesTo (m.withGas more) ⟨.bounded room, header, txBytes, store⟩ t store' := by
  obtain ⟨run, ha, hw, rfl, rfl⟩ := h.attempted ht
  rw [attemptOf_withGas hgas] at ha
  have hview : (startView ⟨.bounded limit, header, txBytes, store⟩).codeAt store = store.codeAt :=
    congrArg Sight.code (sight_startView ⟨.bounded limit, header, txBytes, store⟩)
  have hmore := attempt_more he hle (hview ▸ hcode) ha
  have hconsumed : run.figures.consumed ≤ gas :=
    UInt64.le_iff_toNat_le.2 ((attempt_within ha).2 run rfl).1
  obtain ⟨a', hend, hstore⟩ := conclude_of_room ⟨.bounded room, header, txBytes, store⟩
    { run with result := run.result.withMore (more - gas) } rfl
    (UInt64.le_trans hconsumed (UInt64.le_trans hle hroom)) hw
  refine ⟨a', ?_, hstore⟩
  rw [execute_eq_conclude, attemptOf_withGas hroom, hmore]
  exact hend

end Processor

/-- **More gas never hurts code that does not look at it.** Whatever the parameters, the store, the
header and the message: if the code that the message runs has no `GASLIMIT`, `GAS`, `CREATE` or
`CALL` among its instructions, and the transition takes effect on some gas and a fresh meter with
room for it, then on more gas and any fresh meter with room for that it tells the same, of outcome,
output, gas used, contract and events, and leaves the same store. So it is for the engine that runs
code, and for every one that runs it in a number of steps that does not fall with more gas. -/
theorem more_gas_never_hurts :
    (∀ params, (Engine.machine params).Patient params) ∧
    (∀ params steps, (Engine.inSteps params steps).Patient params) ∧
    ∀ p : Processor, p.engine.Patient p.params → ∀ m header txBytes store,
      Code.Oblivious (Message.code store.codeAt m) → ∀ gas limit more room : Gas,
        gas ≤ limit → gas ≤ more → more ≤ room → ∀ t store', t.isSuccess = true →
          p.ComesTo (m.withGas gas) ⟨.bounded limit, header, txBytes, store⟩ t store' →
          p.ComesTo (m.withGas more) ⟨.bounded room, header, txBytes, store⟩ t store' :=
  ⟨Engine.patient_machine, Engine.patient_inSteps, fun _ he _ _ _ _ hcode _ _ _ _ hgas hle hroom _ _
    ht h => h.withGas he hcode hgas hle hroom ht⟩

/-! ### Data that spells `GAS` and `CALL` -/

namespace SpelledGas

/-- Writes a slot with two bytes of data that spell `GAS` and `CALL`, and leaves a log. -/
def code : Bytes := [0x61, 0x5a, 0xf1, 0x60, 0, 0x55, 0x60, 1, 0x60, 0, 0xa0]

/-- Account 2 has the code. -/
def store : Store := Store.empty.putCode ⟨2⟩ code

/-- Calls it. -/
def call : Message := .invoke ⟨1⟩ ⟨2⟩ 0 [] 0

theorem oblivious_code : Code.Oblivious code := by
  intro i b hstart hb
  have hplace : i ∈ [0, 3, 5, 6, 8, 10] := hstart.mem_of_closed (by decide) (by decide +kernel)
  have hbytes : ∀ j ∈ [0, 3, 5, 6, 8, 10], ∀ c ∈ code[j]?, c ∉ Code.gasBytes := by
    decide +kernel
  exact hbytes i hplace b hb

end SpelledGas

open SpelledGas in
/-- The call takes effect on 30000 units of gas, for 21098 of them, and takes the same effect on
many more. -/
theorem more_gas_never_hurts_spelled :
    Code.Oblivious (Message.code store.codeAt call) ∧
    ∃ t store', t.isSuccess = true ∧ t.outcome.gasUsed = 21098 ∧ t.logs = [⟨⟨2⟩, [], [0]⟩] ∧
      store'.slot ⟨⟨2⟩, .zero⟩ = Bytes.bigEndian 32 0x5af1 ∧
      (Processor.ofParams .standard).ComesTo (call.withGas 30000)
        ⟨.bounded 30000, .genesis, [7], store⟩ t store' ∧
      (Processor.ofParams .standard).ComesTo (call.withGas 900000)
        ⟨.bounded 1000000, .genesis, [7], store⟩ t store' := by
  have hcode : Code.Oblivious (Message.code store.codeAt call) := by
    have hrun : Message.code store.codeAt call = code := by
      show store.codeAt ⟨2⟩ = code
      rw [store, Store.codeAt_putCode, if_pos rfl]
    exact hrun ▸ oblivious_code
  have hran : ((Processor.ofParams .standard).execute (call.withGas 30000)
      ⟨.bounded 30000, .genesis, [7], store⟩).toOption.bind (fun e => some (e.1.isSuccess,
        e.1.outcome.gasUsed, e.1.logs, e.2.store.slot ⟨⟨2⟩, .zero⟩))
      = some (true, 21098, [⟨⟨2⟩, [], [0]⟩], Bytes.bigEndian 32 0x5af1) := by decide +kernel
  obtain ⟨⟨t, a⟩, ht, hread⟩ := exists_of_read hran
  simp only [Option.some.injEq, Prod.mk.injEq] at hread
  obtain ⟨hsuccess, hgas, hlogs, hslot⟩ := hread
  have hcomes : (Processor.ofParams .standard).ComesTo (call.withGas 30000)
      ⟨.bounded 30000, .genesis, [7], store⟩ t a.store := ⟨a, ht, rfl⟩
  refine ⟨hcode, t, a.store, hsuccess, hgas, hlogs, hslot, hcomes, ?_⟩
  exact more_gas_never_hurts.2.2 (.ofParams .standard) (Engine.patient_machine .standard) call
    .genesis [7] store hcode 30000 30000 900000 1000000 (by decide) (by decide) (by decide) t a.store
    hsuccess hcomes

end MeteredLedger
