import MeteredLedger.Proofs.Failure
import MeteredLedger.Proofs.Frame.Labels
import MeteredLedger.Proofs.Gas.Tiers

/-!
# Simulated transitions

A simulated transition and one that is carried out run in the same way, but on different gas
and on different views: nobody has to give the gas of the first, and its view may never be
published. What differs is never seen. An engine does not see the label of the view, and so the
attempt comes to the same under any label (`Processor.attempt_labelled`). A grant that a fresh
meter has room for is reconciled as one that nobody has to give (`Grant.reconcile_fresh`), and
what an attempt has consumed can then be charged, and its view published
(`Processor.conclude_of_room`).

So a simulation on as much gas as the message asks for says what the transition will come to;
only the transaction that the events are attributed to is not known yet (`simulation_predicts`).
-/

namespace MeteredLedger

/-! ### Attribution -/

/-- The transaction that an event is attributed to. -/
def Event.txHash : Event → Hash
  | .log txHash _ | .contractCreated _ txHash => txHash

/-- The same event of another transaction. -/
def Event.attributed (txHash : Hash) : Event → Event
  | .log _ entry => .log txHash entry
  | .contractCreated address _ => .contractCreated address txHash

namespace Transition

/-- The same outcome and events, of another transaction. -/
def attributed (txHash : Hash) (t : Transition) : Transition :=
  { t with events := t.events.map (Event.attributed txHash) }

theorem attributed_succeeded (outcome : Outcome) (txHash other : Hash) (logs : List Log) :
    (succeeded outcome other logs).attributed txHash = succeeded outcome txHash logs := by
  unfold succeeded attributed
  cases outcome.contract? <;> simp [Event.attributed]

/-- A transition that has taken effect attributes all events to its transaction. -/
theorem txHash_of_mem_succeeded {outcome : Outcome} {txHash : Hash} {logs : List Log} {e : Event}
    (h : e ∈ (succeeded outcome txHash logs).events) : e.txHash = txHash := by
  obtain h | h := List.mem_append.1 h
  · obtain ⟨entry, -, rfl⟩ := List.mem_map.1 h
    rfl
  · cases hc : outcome.contract? with
    | none =>
      rw [hc] at h
      cases h
    | some address =>
      rw [hc] at h
      cases List.mem_singleton.1 h
      rfl

end Transition

/-! ### Grants from a fresh meter -/

namespace Grant

variable {limit asked : Gas}

/-- A fresh meter grants all that is asked for within its limit. -/
theorem gas_fresh (h : asked ≤ limit) : (ofMeter (.bounded limit) asked).gas = asked := by
  rw [UInt64.le_iff_toNat_le] at h
  rw [← UInt64.toNat_inj, toNat_gas_ofMeter rfl]
  show min asked.toNat (limit.toNat - 0) = asked.toNat
  omega

/-- **The figures are those of a grant that nobody has to give.** -/
theorem reconcile_fresh (h : asked ≤ limit) (inner : Meter) (remaining : Gas) :
    reconcile { ofMeter (.bounded limit) asked with inner } remaining
      = reconcile { ofMeter .untracked asked with inner } remaining := by
  have hwithin : ∀ consumed : Gas, consumed ≤ asked → ¬limit < addGasCapped 0 consumed := by
    intro consumed hc
    rw [UInt64.not_lt, UInt64.le_iff_toNat_le, toNat_addGasCapped]
    rw [UInt64.le_iff_toNat_le] at h hc
    show min (0 + consumed.toNat) _ ≤ _
    omega
  unfold reconcile
  dsimp only
  rw [gas_fresh h, show (ofMeter .untracked asked).gas = asked from rfl]
  split_ifs with hlt hne
  · rfl
  · rfl
  · have hc : asked - remaining ≤ asked := UInt64.sub_le (UInt64.not_lt.1 hlt)
    have hexceeds : decide (limit < addGasCapped 0 (asked - remaining)) = false :=
      decide_eq_false (hwithin _ hc)
    show Except.ok (Reconciliation.mk _ _ (decide (limit < addGasCapped 0 (asked - remaining))))
      = _
    rw [hexceeds]
    rfl

end Grant

namespace Processor

variable {p : Processor} {m : Message} {header : Header} {store : Store} {view : View} {g : Grant}

/-! ### Attempts -/

/-- A finished run whose view has another label. -/
def Finished.labelled (l : View.Label) (run : Finished) : Finished :=
  { run with view := run.view.labelled l }

theorem classify_labelled (l : View.Label) (g : Grant) (result : FrameResult) (view : View) :
    classify g result (view.labelled l)
      = (classify g result view).map (Except.map (Finished.labelled l)) := by
  unfold classify
  cases g.reconcile result.gasRemaining with
  | error stop => cases stop <;> rfl
  | ok figures =>
    cases result.error with
    | some e => rfl
    | none =>
      dsimp only
      split_ifs <;> rfl

/-- **An attempt comes to the same under any label.** -/
theorem attempt_labelled (he : p.engine.Blind) (l : View.Label) :
    p.attempt m header store (view.labelled l) g
      = (p.attempt m header store view g).map (Except.map (Finished.labelled l)) := by
  rw [attempt_eq_bind, attempt_eq_bind]
  have hrun := he header m.sender g.gas store m g.gas l ⟨view.resync, g.inner⟩
  rw [show (⟨(view.labelled l).resync, g.inner⟩ : World)
    = World.labelled l ⟨view.resync, g.inner⟩ from rfl, hrun]
  cases p.engine.run (.ofHeader header m.sender g.gas) store m g.gas ⟨view.resync, g.inner⟩ with
  | error f => rfl
  | ok ended => exact classify_labelled l _ ended.1 ended.2.view

/-- An attempt on a grant from a fresh meter is one on a grant that nobody has to give. -/
theorem attempt_fresh {limit asked : Gas} (h : asked ≤ limit) :
    p.attempt m header store view (.ofMeter (.bounded limit) asked)
      = p.attempt m header store view (.ofMeter .untracked asked) := by
  have hclassify : ∀ (inner : Meter) (result : FrameResult) (v : View),
      classify { Grant.ofMeter (.bounded limit) asked with inner } result v
        = classify { Grant.ofMeter .untracked asked with inner } result v := by
    intro inner result v
    unfold classify
    rw [Grant.reconcile_fresh h]
    simp only [Grant.totalWith, Grant.gas_fresh h]
    rfl
  rw [attempt_eq_bind, attempt_eq_bind]
  refine (bind_congr fun ended => hclassify _ _ _).trans ?_
  rw [Grant.gas_fresh h]
  rfl

/-- The run of a simulated transition. -/
def simulatedRun (p : Processor) (m : Message) (header : Header) (store : Store) :
    Except Abort (FrameResult × World) :=
  p.engine.run (.ofHeader header m.sender p.params.defaultGasLimit) store m
    p.params.defaultGasLimit ⟨.readOnly, .untracked⟩

/-- The attempt of a simulated transition. -/
def simulatedAttempt (p : Processor) (m : Message) (header : Header) (store : Store) :
    Except Abort (Except Outcome Finished) :=
  p.attempt m header store .readOnly (.ofMeter .untracked p.params.defaultGasLimit)

/-- What a simulated transition says of its attempt. -/
def report : Except Outcome Finished → Transition
  | .error outcome => .failed outcome
  | .ok run => .succeeded run.outcome run.view.txHash run.view.logs

theorem simulate_eq_report (p : Processor) (m : Message) (header : Header) (store : Store) :
    p.simulate m header store = (p.simulatedAttempt m header store).map report := by
  unfold simulate simulatedAttempt
  dsimp only
  cases p.attempt m header store .readOnly (.ofMeter .untracked p.params.defaultGasLimit) with
  | error f => rfl
  | ok answer => cases answer <;> rfl

/-- The attempt of a transition on a fresh meter is the simulated one, but for the label of its
view. -/
theorem attemptOf_eq_simulated (he : p.engine.Blind)
    (hasked : m.gasLimit = p.params.defaultGasLimit) {limit : Gas}
    (hroom : p.params.defaultGasLimit ≤ limit) (header : Header) (txBytes : Bytes)
    (store : Store) :
    p.attemptOf m ⟨.bounded limit, header, txBytes, store⟩
      = (p.simulatedAttempt m header store).map
          (Except.map (Finished.labelled ⟨.digest txBytes, false⟩)) := by
  unfold attemptOf simulatedAttempt
  rw [← attempt_labelled he, hasked]
  exact attempt_fresh hroom

/-! ### Taking effect -/

/-- What a run within the limit of a fresh meter has consumed can be charged, and its view
published if it may be. -/
theorem conclude_of_room (a : Ambient) (run : Finished) {limit : Gas}
    (hm : a.meter = .bounded limit) (hroom : run.figures.consumed ≤ limit)
    (hw : run.view.isReadOnly = false) : ∃ a', conclude a (.ok run)
      = .ok (.succeeded run.outcome (.digest a.txBytes) run.view.logs, a') ∧
        a'.store = a.store.apply run.view.pending := by
  have hadmits : a.meter.admits run.figures.consumed = true := by
    rw [UInt64.le_iff_toNat_le] at hroom
    have hmax := toNat_le_maxGas run.figures.consumed
    rw [hm, Meter.admits_iff]
    refine ⟨(Nat.zero_add _).trans_le hmax, ?_⟩
    rintro limit' ⟨⟩
    exact (Nat.zero_add _).trans_le hroom
  have hbalanced : a.meter.Balanced := hm ▸ Meter.balanced_fresh _
  obtain ⟨meter, hadd, -⟩ := hbalanced.add (Meter.admits_iff.1 hadmits).1 "vm_execution"
  have hc : a.meter.consume run.figures.consumed "vm_execution" = .ok meter := by
    unfold Meter.consume Meter.check
    rw [if_pos hadmits]
    simp only [hadd]
  refine ⟨{ a with meter, store := a.store.apply run.view.pending }, ?_, rfl⟩
  unfold conclude
  simp only [hc, View.publish_of_writable hw]

/-! ### Predictions -/

/-- **A simulation predicts the transition** on a fresh meter that has room for it. -/
theorem execute_predicted (he : p.engine.Blind) (hasked : m.gasLimit = p.params.defaultGasLimit)
    {limit : Gas} (hroom : p.params.defaultGasLimit ≤ limit) (header : Header) (txBytes : Bytes)
    (store : Store) :
    (p.execute m ⟨.bounded limit, header, txBytes, store⟩).map (·.1)
      = (p.simulate m header store).map (·.attributed (.digest txBytes)) := by
  rw [execute_eq_conclude, attemptOf_eq_simulated he hasked hroom, simulate_eq_report]
  cases hs : p.simulatedAttempt m header store with
  | error f => rfl
  | ok answer =>
    cases answer with
    | error outcome => rfl
    | ok run =>
      have hconsumed : run.figures.consumed ≤ p.params.defaultGasLimit :=
        UInt64.le_iff_toNat_le.2 ((attempt_within hs).2 run rfl).1
      obtain ⟨a', ha, -⟩ := conclude_of_room ⟨.bounded limit, header, txBytes, store⟩
        (run.labelled ⟨.digest txBytes, false⟩) rfl (UInt64.le_trans hconsumed hroom) rfl
      show (conclude ⟨.bounded limit, header, txBytes, store⟩
        (.ok (run.labelled ⟨.digest txBytes, false⟩))).map (·.1) = _
      rw [ha]
      exact congrArg Except.ok (Transition.attributed_succeeded _ _ _ _).symm

/-- The events of a simulation are attributed to no transaction. -/
theorem txHash_of_simulate (he : p.engine.Blind) {t : Transition}
    (ht : p.simulate m header store = .ok t) {e : Event} (hmem : e ∈ t.events) :
    e.txHash = .zero := by
  rw [simulate_eq_report] at ht
  cases hs : p.simulatedAttempt m header store with
  | error f =>
    rw [hs] at ht
    cases ht
  | ok answer =>
    rw [hs] at ht
    cases ht
    cases answer with
    | error outcome => cases hmem
    | ok run =>
      obtain ⟨w, hr, -, hview⟩ := attempt_eq_ok hs
      rw [Transition.txHash_of_mem_succeeded hmem, hview]
      exact (he.keepsLabel hr).1

/-- Nothing that a simulation has done reaches a store, whatever it comes to and however its view
is ended. -/
theorem publish_of_simulatedRun (he : p.engine.Blind) {r : FrameResult} {w : World}
    (hr : p.simulatedRun m header store = .ok (r, w)) {commit : Bool} {s s' : Store}
    {logs : List Log} (hp : w.view.publish commit s = .ok (logs, s')) : s' = s := by
  have hreadOnly : w.view.isReadOnly = true := (he.keepsLabel hr).2
  cases commit with
  | false =>
    cases hp
    rfl
  | true =>
    rw [View.publish_of_isReadOnly hreadOnly] at hp
    cases hp

end Processor

open Processor in
/-- **A simulation says what a transition will come to.** If a message asks for as much gas as
simulations are given, then on a fresh meter that has room for it the transition comes to the
same outcome, and to the same events but for the transaction that they are attributed to: in a
simulation this is none. What the simulation has done to its view reaches no store. It holds of
every engine that does not see labels. -/
theorem simulation_predicts :
    (∀ params, (Engine.machine params).Blind) ∧ (∀ script : Script, script.engine.Blind) ∧
    ∀ p : Processor, p.engine.Blind → ∀ (m : Message) (header : Header) (store : Store),
      (m.gasLimit = p.params.defaultGasLimit → ∀ (limit : Gas) (txBytes : Bytes),
        p.params.defaultGasLimit ≤ limit →
        (p.execute m ⟨.bounded limit, header, txBytes, store⟩).map (·.1)
          = (p.simulate m header store).map (·.attributed (.digest txBytes))) ∧
      (∀ t, p.simulate m header store = .ok t → ∀ e ∈ t.events, e.txHash = .zero) ∧
      ∀ r w, p.simulatedRun m header store = .ok (r, w) → ∀ commit s logs s',
        w.view.publish commit s = .ok (logs, s') → s' = s :=
  ⟨Engine.blind_machine, Script.blind_engine, fun _ he _ header store =>
    ⟨fun hasked _ txBytes hroom => execute_predicted he hasked hroom header txBytes store,
      fun _ ht _ hmem => txHash_of_simulate he ht hmem,
      fun _ _ hr _ _ _ _ hp => publish_of_simulatedRun he hr hp⟩⟩

/-! ### A log that is predicted -/

namespace Predicted

/-- Writes a slot, leaves a log of one byte and stops. -/
def code : Bytes := [0x60, 7, 0x60, 0, 0x55, 0x60, 1, 0x60, 0, 0xa0]

/-- Account 2 has the code. -/
def store : Store := Store.empty.putCode ⟨2⟩ code

/-- Calls it. -/
def call : Message := .invoke ⟨1⟩ ⟨2⟩ 0 [] 100000000

/-- The log. -/
def log : Log := ⟨⟨2⟩, [], [0]⟩

end Predicted

open Predicted in
/-- A simulated call leaves a log of no transaction; carried out, it leaves the log of the one that
it belongs to, for the same gas. -/
theorem simulation_predicts_log :
    call.gasLimit = Params.standard.defaultGasLimit ∧
    Params.standard.defaultGasLimit ≤ 200000000 ∧
    ∃ t t' a', (Processor.ofParams .standard).simulate call .genesis store = .ok t ∧
      t.events = [.log .zero log] ∧
      (Processor.ofParams .standard).execute call ⟨.bounded 200000000, .genesis, [7], store⟩
        = .ok (t', a') ∧
      t'.outcome = t.outcome ∧ t'.isSuccess = true ∧ t'.outcome.gasUsed = 21098 ∧
      t'.events = [.log (.digest [7]) log] := by
  have hasked : call.gasLimit = Params.standard.defaultGasLimit := rfl
  have hroom : Params.standard.defaultGasLimit ≤ 200000000 := by decide
  have hread : ((Processor.ofParams .standard).simulate call .genesis store).toOption.bind
      (fun t => some (t.isSuccess, t.outcome.gasUsed, t.events))
      = some (true, 21098, [.log .zero log]) := by decide +kernel
  obtain ⟨t, ht, hshown⟩ := exists_of_read hread
  rw [Option.some.injEq, Prod.mk.injEq, Prod.mk.injEq] at hshown
  obtain ⟨hsuccess, hgas, hevents⟩ := hshown
  obtain ⟨hpredicted, -⟩ := simulation_predicts.2.2 (.ofParams .standard)
    (Engine.blind_machine .standard) call .genesis store
  have hsame := hpredicted hasked 200000000 [7] hroom
  rw [ht] at hsame
  cases hx : (Processor.ofParams .standard).execute call
      ⟨.bounded 200000000, .genesis, [7], store⟩ with
  | error f =>
    rw [hx] at hsame
    cases hsame
  | ok ended =>
    obtain ⟨t', a'⟩ := ended
    rw [hx] at hsame
    obtain rfl : t' = t.attributed (.digest [7]) := Except.ok.inj hsame
    refine ⟨hasked, hroom, t, _, a', ht, hevents, rfl, rfl, hsuccess, hgas, ?_⟩
    show t.events.map (Event.attributed (.digest [7])) = _
    rw [hevents]
    rfl

end MeteredLedger
