import MeteredLedger.Proofs.Engine
import MeteredLedger.Proofs.Gas.Mirror
import MeteredLedger.Proofs.Transition

/-!
# Grants are reconciled

A transition compares what its run has counted with the gas that the run hands back
(`Grant.reconcile`). As the one mirrors the other, the comparison never fails for an
engine that runs code: no transition is abandoned for a meter that disagrees, and none
ends in more gas handed back than was given (`gas_mirrored`).
-/

namespace MeteredLedger

variable {params : Params} {e : Engine}

/-- What a run on a balanced meter counts, and what it can end in. -/
theorem Engine.RunsCode.run_paid (he : e.RunsCode params) {context : Context} {store : Store}
    {m : Message} {gas : Gas} {w w' : World} {r : FrameResult} (hbal : w.ledger.Balanced)
    (hroom : w.ledger.consumed.toNat + gas.toNat ≤ maxGas.toNat)
    (h : e.run context store m gas w = .ok (r, w')) :
    w.Paid w' gas r.gasRemaining ∧ ∀ cause, r.error = some cause → cause.isOfResult = true := by
  have hb := fun steps => Exec.run_mirrors ⟨params, context, store⟩ steps
  obtain ⟨steps, c, rfl, hr⟩ | ⟨steps, c, rfl, hr⟩ := he.run_cases context store m gas w
  · rw [hr] at h
    exact ⟨callWith_paid (hb steps) h hbal hroom, fun _ => callWith_isOfResult (hb steps) h⟩
  · rw [hr] at h
    exact ⟨createWith_paid (hb steps) h hbal hroom, fun _ => createWith_isOfResult (hb steps) h⟩

/-- What a run is never abandoned for. -/
theorem Engine.RunsCode.run_abort (he : e.RunsCode params) {context : Context} {store : Store}
    {m : Message} {gas : Gas} {w : World} {a : Abort} (h : e.run context store m gas w = .error a) :
    a ≠ .fault .meterMismatch := by
  have hb := fun steps => Exec.run_mirrors ⟨params, context, store⟩ steps
  obtain ⟨steps, c, -, hr⟩ | ⟨steps, c, -, hr⟩ := he.run_cases context store m gas w
  · rw [hr] at h
    exact callWith_abort (hb steps) h
  · rw [hr] at h
    exact createWith_abort (hb steps) h

/-- A grant on which nothing was counted before is reconciled with what was. -/
theorem Grant.reconcile_of_paid {g : Grant} {left : Gas} {w w' : World}
    (hfresh : w.ledger.consumed = 0) (h : w.Paid w' g.gas left) :
    ∃ figures, Grant.reconcile { g with inner := w'.ledger } left = .ok figures ∧
      figures.consumed = g.gas - left := by
  have hle := h.left_le
  have hn : left.toNat ≤ g.gas.toNat := UInt64.le_iff_toNat_le.1 hle
  have hc : w'.ledger.consumed = g.gas - left := by
    refine UInt64.toNat_inj.1 ?_
    rw [h.consumed, hfresh, UInt64.toNat_sub_of_le _ _ hle]
    exact Nat.zero_add _
  unfold reconcile
  rw [if_neg (UInt64.not_lt.2 hle), if_neg (not_not.2 hc)]
  exact ⟨_, rfl, rfl⟩

/-- Whether an outcome blames a run for handing back more gas than it was given. -/
def Outcome.blamesRun : Outcome → Bool
  | .fatal (.gasReturned ..) _ => true
  | _ => false

theorem Outcome.blamesRun_ofError {cause : LedgerError} (h : cause.isOfResult = true)
    (output : Bytes) (gas : Gas) : (Outcome.ofError cause output gas).blamesRun = false := by
  cases cause <;> first | rfl | cases h

namespace Processor

variable {p : Processor}

/-- An attempt is not abandoned over its gas, and does not fail over it. -/
theorem attempt_reconciled (he : p.engine.RunsCode p.params) (m : Message) (header : Header)
    (store : Store) (view : View) {g : Grant} (hg : g.inner = .untracked) :
    p.attempt m header store view g ≠ .error (.fault .meterMismatch) ∧
    ∀ outcome, p.attempt m header store view g = .ok (.error outcome) →
      outcome.blamesRun = false := by
  unfold attempt
  dsimp only
  cases hr : p.engine.run (Context.ofHeader header m.sender g.gas) store m g.gas
      ⟨view.resync, g.inner⟩ with
  | error a => exact ⟨fun h => he.run_abort hr (Except.error.inj h), fun _ h => nomatch h⟩
  | ok answer =>
    obtain ⟨r, w⟩ := answer
    have hroom : g.inner.consumed.toNat + g.gas.toNat ≤ maxGas.toNat := by
      rw [hg]
      exact (Nat.zero_add _).trans_le (toNat_le_maxGas _)
    obtain ⟨hpaid, herr⟩ := he.run_paid (by rw [hg]; exact Meter.balanced_fresh _) hroom hr
    obtain ⟨figures, hf, -⟩ := Grant.reconcile_of_paid (by rw [hg]; rfl) hpaid
    unfold classify
    dsimp only
    rw [hf]
    dsimp only
    cases hc : r.error with
    | some cause =>
      refine ⟨nofun, fun outcome h => ?_⟩
      cases h
      exact Outcome.blamesRun_ofError (herr cause hc) _ _
    | none =>
      dsimp only
      split_ifs
      · refine ⟨nofun, fun outcome h => ?_⟩
        cases h
        rfl
      · exact ⟨nofun, nofun⟩

/-- A transition is not abandoned over its gas, and does not fail over it. -/
theorem execute_reconciled (he : p.engine.RunsCode p.params) (m : Message) (a : Ambient) :
    p.execute m a ≠ .error (.fault .meterMismatch) ∧
    ∀ t a', p.execute m a = .ok (t, a') → t.outcome.blamesRun = false := by
  obtain ⟨habort, hfail⟩ := attempt_reconciled he m a.header a.store
    (View.fresh.tagged (Hash.digest a.txBytes)) (g := Grant.ofMeter a.meter m.gasLimit) rfl
  have hx := execute_cases p m a
  generalize p.execute m a = answer at hx ⊢
  cases hx with
  | abandoned h =>
    constructor
    · intro hf
      cases hf
      exact habort h
    · rintro t a' ⟨⟩
  | failed h =>
    refine ⟨nofun, ?_⟩
    rintro t a' ⟨⟩
    exact hfail _ h
  | uncounted h hc =>
    constructor
    · rintro ⟨⟩
      obtain ⟨_, hs⟩ | hs := Exec.consume_error hc
      · cases hs
      · cases hs
    · rintro t a' ⟨⟩
  | uncharged h hc =>
    refine ⟨nofun, ?_⟩
    rintro t a' ⟨⟩
    obtain ⟨_, hs⟩ | hs := Exec.consume_error hc
    · cases hs
      rfl
    · cases hs
  | unpublished h hc hp =>
    refine ⟨nofun, ?_⟩
    rintro t a' ⟨⟩
    unfold View.publish at hp
    split_ifs at hp
    cases hp
    rfl
  | effective h hc hp =>
    refine ⟨nofun, ?_⟩
    rintro t a' ⟨⟩
    rfl

/-- So is a simulated one. -/
theorem simulate_reconciled (he : p.engine.RunsCode p.params) (m : Message) (header : Header)
    (store : Store) :
    p.simulate m header store ≠ .error (.fault .meterMismatch) ∧
    ∀ t, p.simulate m header store = .ok t → t.outcome.blamesRun = false := by
  obtain ⟨habort, hfail⟩ := attempt_reconciled he m header store .readOnly
    (g := Grant.ofMeter .untracked p.params.defaultGasLimit) rfl
  unfold simulate
  dsimp only
  cases hr : p.attempt m header store .readOnly
      (Grant.ofMeter .untracked p.params.defaultGasLimit) with
  | error f =>
    refine ⟨fun h => habort ?_, nofun⟩
    cases h
    exact hr
  | ok answer =>
    cases answer with
    | error outcome =>
      refine ⟨nofun, ?_⟩
      rintro t ⟨⟩
      exact hfail _ hr
    | ok run =>
      refine ⟨nofun, ?_⟩
      rintro t ⟨⟩
      rfl

end Processor

/-- **Gas is mirrored.** A frame that is called or created on a balanced meter with room
for its gas hands back no more than it was given, and adds the rest to the meter, in total
and by label, however it ends and whatever frames it enters. So in a transition of any
engine that runs code the grant is always reconciled: nothing is abandoned for a meter
that disagrees, and no run is blamed for gas that it was not given. -/
theorem gas_mirrored :
    (∀ (steps : Nat) (env : Setting) (w w' : World) (r : FrameResult), w.ledger.Balanced →
      (∀ c : Call, w.ledger.consumed.toNat + c.gas.toNat ≤ maxGas.toNat →
        callIn steps env c w = .ok (r, w') → w.Paid w' c.gas r.gasRemaining) ∧
      (∀ c : Creation, w.ledger.consumed.toNat + c.gas.toNat ≤ maxGas.toNat →
        createIn steps env c w = .ok (r, w') → w.Paid w' c.gas r.gasRemaining)) ∧
    (∀ params, (Engine.machine params).RunsCode params) ∧
    ∀ p : Processor, p.engine.RunsCode p.params →
      (∀ context store m outer asked view r w',
        p.engine.run context store m (Grant.ofMeter outer asked).gas
            ⟨view, (Grant.ofMeter outer asked).inner⟩ = .ok (r, w') →
          ∃ figures, Grant.reconcile { Grant.ofMeter outer asked with inner := w'.ledger }
              r.gasRemaining = .ok figures ∧
            figures.consumed = (Grant.ofMeter outer asked).gas - r.gasRemaining) ∧
      (∀ m a, p.execute m a ≠ .error (.fault .meterMismatch) ∧
        ∀ t a', p.execute m a = .ok (t, a') → t.outcome.blamesRun = false) ∧
      (∀ m header store, p.simulate m header store ≠ .error (.fault .meterMismatch) ∧
        ∀ t, p.simulate m header store = .ok t → t.outcome.blamesRun = false) := by
  refine ⟨fun steps env w w' r hbal => ?_, Engine.runsCode_machine, fun p he => ?_⟩
  · have hb := Exec.run_mirrors env steps
    exact ⟨fun c hroom h => callWith_paid hb h hbal hroom,
      fun c hroom h => createWith_paid hb h hbal hroom⟩
  · refine ⟨?_, fun m a => Processor.execute_reconciled he m a,
      fun m header store => Processor.simulate_reconciled he m header store⟩
    intro context store m outer asked view r w' h
    have hroom : (0 : Gas).toNat + (Grant.ofMeter outer asked).gas.toNat ≤ maxGas.toNat :=
      (Nat.zero_add _).trans_le (toNat_le_maxGas _)
    obtain ⟨hpaid, -⟩ := he.run_paid (Meter.balanced_fresh _) hroom h
    exact Grant.reconcile_of_paid rfl hpaid

/-! ### Frames within frames -/

namespace NestedFrames

/-- Calls account 3 and then account 4, and gives each some gas. -/
def code : Bytes :=
  [0x60, 0, 0x60, 0, 0x60, 0, 0x60, 0, 0x60, 0, 0x60, 3, 0x61, 0x03, 0x00, 0xf1,
    0x60, 0, 0x60, 0, 0x60, 0, 0x60, 0, 0x60, 0, 0x60, 4, 0x61, 0x10, 0x00, 0xf1]

/-- Jumps back to where it starts, for as long as it has gas. -/
def loop : Bytes := [0x5b, 0x60, 0, 0x56]

/-- Takes everything back at once. -/
def revert : Bytes := [0x60, 0, 0x60, 0, 0xfd]

/-- Account 1 has value to give, and accounts 2 to 4 have the code. -/
def store : Store :=
  (((Store.ofAccounts [(⟨1⟩, .ofBalance 1000)]).putCode ⟨2⟩ code).putCode ⟨3⟩ loop).putCode ⟨4⟩
    revert

/-- The standard parameters, on that store. -/
def setting : Setting := ⟨.standard, ⟨⟨1⟩, .zero, 0, 0, 100000, .zero, View.canTransfer⟩, store⟩

/-- A world whose meter has counted something, and may count more than its limit. -/
def world : World := ⟨.fresh, (Meter.bounded 50).record 7 "earlier"⟩

/-- Account 1 calls account 2, with value. -/
def call : Call := ⟨⟨1⟩, ⟨2⟩, [], 100000, 10, 0⟩

theorem balanced_world : world.ledger.Balanced :=
  (Meter.balanced_fresh (.bounded 50)).record (by decide)

end NestedFrames

open NestedFrames in
/-- A call that enters two frames, of which one burns its gas and the other gives its own
back; and the run of a message that makes the same call. -/
theorem gas_mirrored_of_nested :
    world.ledger.consumed.toNat + call.gas.toNat ≤ maxGas.toNat ∧
    (∃ r w', callIn 100 setting call world = .ok (r, w') ∧ r.gasRemaining = 88784 ∧
      w'.ledger.consumed.toNat = 7 + 11216 ∧ w'.ledger.breakdownTotal = 7 + 11216) ∧
    ∃ r w' figures,
      (Processor.ofParams .standard).engine.run setting.context store
        (.invoke ⟨1⟩ ⟨2⟩ 10 [] 200000) (Grant.ofMeter (.bounded 100000) 200000).gas
        ⟨.fresh, (Grant.ofMeter (.bounded 100000) 200000).inner⟩ = .ok (r, w') ∧
      Grant.reconcile { Grant.ofMeter (.bounded 100000) 200000 with inner := w'.ledger }
        r.gasRemaining = .ok figures ∧ figures.consumed = 11216 := by
  have hroom : world.ledger.consumed.toNat + call.gas.toNat ≤ maxGas.toNat := by decide
  have hcalled : (callIn 100 setting call world).toOption.bind (some ·.1.gasRemaining)
      = some 88784 := by decide +kernel
  have hrun : ((Processor.ofParams .standard).engine.run setting.context store
      (.invoke ⟨1⟩ ⟨2⟩ 10 [] 200000) (Grant.ofMeter (.bounded 100000) 200000).gas
      ⟨.fresh, (Grant.ofMeter (.bounded 100000) 200000).inner⟩).toOption.bind
        (some ·.1.gasRemaining) = some 88784 := by decide +kernel
  obtain ⟨⟨r, w⟩, hr, hleft⟩ := exists_of_read hcalled
  obtain ⟨⟨r', w'⟩, hr', hleft'⟩ := exists_of_read hrun
  rw [Option.some.injEq] at hleft hleft'
  have hpaid := (gas_mirrored.1 100 setting world w r balanced_world).1 call hroom hr
  obtain ⟨figures, hf, hc⟩ := (gas_mirrored.2.2 (.ofParams .standard)
    (Engine.runsCode_machine .standard)).1 _ _ _ _ _ _ _ _ hr'
  refine ⟨hroom, ⟨r, w, hr, hleft, ?_, ?_⟩, r', w', figures, hr', hf, ?_⟩
  · rw [hpaid.consumed, hleft]
    rfl
  · rw [hpaid.breakdown, hleft, show world.ledger.breakdownTotal = 7 from balanced_world]
    rfl
  · rw [hc, hleft']
    rfl

end MeteredLedger
