import MeteredLedger.Proofs.Gas.Operations
import MeteredLedger.Proofs.Gas.Tiers

/-!
# Outcomes and their causes

Three kinds of errors have an outcome of their own: a revert, gas that is not enough, and a balance
that is too small. Everything else that can go wrong is fatal, and the outcome names the cause.

A transition fails in one of four places. What its run ends in is sorted by kind
(`Outcome.ofError`); a run that hands back too much gas is fatal; a run that takes a bounded meter
beyond its limit is out of gas, before the meter is asked; and last the meter itself may refuse the
charge, which is fatal. A bounded meter never comes to that, since what is granted fits into what it
has left (`Grant.exceedsOuter_iff`). An untracked one does if its total would leave its range, and
only then is an outcome fatal for a cause that has an outcome of its own (`classified_by_cause`,
`overrun_is_fatal`).
-/

namespace MeteredLedger

/-- Whether there is an outcome for errors of this kind. -/
def LedgerError.hasOutcome : LedgerError → Bool
  | .reverted | .outOfGas .. | .insufficientBalance .. => true
  | _ => false

/-- Whether an error is about gas that is not enough. -/
def LedgerError.isOutOfGas : LedgerError → Bool
  | .outOfGas .. => true
  | _ => false

/-! ### Errors of a run -/

/-- What a run ends in is fatal only if its kind has no outcome. -/
theorem Outcome.ofError_eq_fatal {e cause : LedgerError} {output : Bytes} {gas gas' : Gas}
    (h : ofError e output gas = .fatal cause gas') : cause.hasOutcome = false := by
  cases e <;> cases h <;> rfl

theorem Outcome.ofError_eq_outOfGas {e : LedgerError} {output : Bytes} {gas : Gas} :
    (∃ gas', ofError e output gas = .outOfGas gas') ↔ e.isOutOfGas = true := by
  cases e <;> simp [ofError, LedgerError.isOutOfGas]

/-! ### Grants -/

namespace Grant

variable {g : Grant} {remaining : Gas} {figures : Reconciliation}

/-- The one error that the figures of a run can end in. -/
theorem reconcile_error {e : LedgerError} (h : g.reconcile remaining = .error (.error e)) :
    e = .gasReturned remaining g.gas := by
  unfold reconcile at h
  dsimp only at h
  split_ifs at h
  · cases h
    rfl
  · cases h

theorem reconcile_figures (h : g.reconcile remaining = .ok figures) :
    figures.total = g.totalWith figures.consumed ∧
    figures.exceedsOuter = match g.outerLimit with
      | .bounded limit => decide (limit < figures.total)
      | .untracked => false := by
  unfold reconcile at h
  dsimp only at h
  split_ifs at h
  cases h
  exact ⟨rfl, rfl⟩

/-- **Whether a run takes a bounded meter beyond its limit**: the capped total tells, as the grant
fits into what the meter has left. -/
theorem exceedsOuter_iff {meter : Meter} {asked limit : Gas} {inner : Meter}
    (hl : meter.limit = .bounded limit)
    (h : reconcile { ofMeter meter asked with inner } remaining = .ok figures) :
    figures.exceedsOuter = true ↔
      limit.toNat < meter.consumed.toNat + figures.consumed.toNat := by
  obtain ⟨htotal, hexceeds⟩ := reconcile_figures h
  obtain ⟨hwithin, -⟩ := reconcile_within h
  have hgrant : ({ ofMeter meter asked with inner } : Grant).gas.toNat
      = min asked.toNat (limit.toNat - meter.consumed.toNat) := toNat_gas_ofMeter hl asked
  have hcapped : figures.total.toNat
      = min (meter.consumed.toNat + figures.consumed.toNat) maxGas.toNat := by
    rw [htotal]
    exact toNat_addGasCapped _ _
  have hmax := toNat_le_maxGas meter.consumed
  rw [hexceeds, show ({ ofMeter meter asked with inner } : Grant).outerLimit = .bounded limit from hl,
    decide_eq_true_iff, UInt64.lt_iff_toNat_lt]
  omega

end Grant

namespace Processor

/-! ### Where a transition fails -/

/-- **What a run is classified as**, with the grant that it ran on. -/
inductive Classified (g : Grant) (r : FrameResult) (view : View) :
    Except Abort (Except Outcome Finished) → Prop where
  /-- It cannot be reconciled with its meter. -/
  | abandoned {f : Abort} (h : g.reconcile r.gasRemaining = .error (.abort f)) :
      Classified g r view (.error f)
  /-- It has handed back more gas than it was given. -/
  | overpaid (h : g.reconcile r.gasRemaining = .error (.error (.gasReturned r.gasRemaining g.gas))) :
      Classified g r view (.ok (.error (.fatal (.gasReturned r.gasRemaining g.gas) (g.totalWith g.gas))))
  /-- It has ended in an error. -/
  | failed {figures : Reconciliation} {e : LedgerError} (h : g.reconcile r.gasRemaining = .ok figures)
      (he : r.error = some e) :
      Classified g r view (.ok (.error (.ofError e r.output figures.total)))
  /-- It has taken the outer meter beyond its limit. -/
  | exceeding {figures : Reconciliation} (h : g.reconcile r.gasRemaining = .ok figures)
      (he : r.error = none) (hx : figures.exceedsOuter = true) :
      Classified g r view (.ok (.error (.outOfGas figures.total)))
  /-- It has ended well. -/
  | finished {figures : Reconciliation} (h : g.reconcile r.gasRemaining = .ok figures)
      (he : r.error = none) (hx : figures.exceedsOuter = false) :
      Classified g r view (.ok (.ok ⟨r, figures, view⟩))

theorem classify_cases (g : Grant) (r : FrameResult) (view : View) :
    Classified g r view (classify g r view) := by
  unfold classify
  split
  · rename_i f h
    exact .abandoned h
  · rename_i e h
    obtain rfl := Grant.reconcile_error h
    exact .overpaid h
  · rename_i figures h
    split
    · rename_i e he
      exact .failed h he
    · rename_i he
      split_ifs with hx
      · exact .exceeding h he hx
      · exact .finished h he (Bool.eq_false_iff.2 hx)

variable {p : Processor} {m : Message} {a a' : Ambient} {t : Transition}

/-- The run of a transition and its figures. -/
def Ran (p : Processor) (m : Message) (a : Ambient) (r : FrameResult) (figures : Reconciliation) :
    Prop :=
  let g := Grant.ofMeter a.meter m.gasLimit
  ∃ w, p.engine.run (.ofHeader a.header m.sender g.gas) a.store m g.gas ⟨startView a, .untracked⟩
      = .ok (r, w) ∧
    Grant.reconcile { g with inner := w.ledger } r.gasRemaining = .ok figures

/-- **There is not gas enough**: the run ends for want of it, or ends well and would take the meter
beyond what it can count. -/
def LacksGas (p : Processor) (m : Message) (a : Ambient) : Prop :=
  ∃ r figures, p.Ran m a r figures ∧
    ((∃ e, r.error = some e ∧ e.isOutOfGas = true) ∨
      r.error = none ∧ a.meter.limit.capacity < a.meter.consumed.toNat + figures.consumed.toNat)

/-- **The total of an untracked meter would leave its range**: by a run that ends well. -/
def Overruns (p : Processor) (m : Message) (a : Ambient) : Prop :=
  a.meter.limit = .untracked ∧ ∃ r figures, p.Ran m a r figures ∧ r.error = none ∧
    maxGas.toNat < a.meter.consumed.toNat + figures.consumed.toNat

/-- A transition has one run. -/
theorem Ran.unique {r r' : FrameResult} {figures figures' : Reconciliation}
    (h : p.Ran m a r figures) (h' : p.Ran m a r' figures') : r' = r ∧ figures' = figures := by
  obtain ⟨w, hr, hf⟩ := h
  obtain ⟨w', hr', hf'⟩ := h'
  rw [hr] at hr'
  cases hr'
  rw [hf] at hf'
  cases hf'
  exact ⟨rfl, rfl⟩

/-- What is said of the run of a transition, as its run is known. -/
theorem Ran.lacksGas_iff {r : FrameResult} {figures : Reconciliation} (h : p.Ran m a r figures) :
    p.LacksGas m a ↔ (∃ e, r.error = some e ∧ e.isOutOfGas = true) ∨
      r.error = none ∧ a.meter.limit.capacity < a.meter.consumed.toNat + figures.consumed.toNat := by
  constructor
  · rintro ⟨r', figures', h', hlacks⟩
    obtain ⟨rfl, rfl⟩ := h.unique h'
    exact hlacks
  · exact fun hlacks => ⟨r, figures, h, hlacks⟩

theorem Ran.overruns_iff {r : FrameResult} {figures : Reconciliation} (h : p.Ran m a r figures) :
    p.Overruns m a ↔ a.meter.limit = .untracked ∧ r.error = none ∧
      maxGas.toNat < a.meter.consumed.toNat + figures.consumed.toNat := by
  constructor
  · rintro ⟨hl, r', figures', h', hover⟩
    obtain ⟨rfl, rfl⟩ := h.unique h'
    exact ⟨hl, hover⟩
  · exact fun ⟨hl, hover⟩ => ⟨hl, r, figures, h, hover⟩

/-- **What a transition that returns reports**, and of which run. -/
inductive Reports (p : Processor) (m : Message) (a : Ambient) : Outcome → Prop where
  /-- The run has handed back more gas than it was given, and there are no figures. -/
  | overpaid {remaining grant gas : Gas} (none : ∀ r figures, ¬p.Ran m a r figures) :
      Reports p m a (.fatal (.gasReturned remaining grant) gas)
  /-- The run has ended in an error. -/
  | failed {r : FrameResult} {figures : Reconciliation} {e : LedgerError}
      (ran : p.Ran m a r figures) (he : r.error = some e) :
      Reports p m a (.ofError e r.output figures.total)
  /-- The run has taken a bounded meter beyond its limit. -/
  | exceeding {r : FrameResult} {figures : Reconciliation} {limit : Gas}
      (ran : p.Ran m a r figures) (he : r.error = none) (hl : a.meter.limit = .bounded limit)
      (hx : limit.toNat < a.meter.consumed.toNat + figures.consumed.toNat) :
      Reports p m a (.outOfGas figures.total)
  /-- The run has taken an untracked meter out of its range. -/
  | overrunning {r : FrameResult} {figures : Reconciliation} {available : Gas}
      (ran : p.Ran m a r figures) (he : r.error = none) (hl : a.meter.limit = .untracked)
      (hx : maxGas.toNat < a.meter.consumed.toNat + figures.consumed.toNat) :
      Reports p m a (.fatal (.outOfGas figures.consumed available) figures.total)
  /-- The run has taken effect. -/
  | effective {r : FrameResult} {figures : Reconciliation} (ran : p.Ran m a r figures)
      (he : r.error = none)
      (hle : a.meter.consumed.toNat + figures.consumed.toNat ≤ a.meter.limit.capacity) :
      Reports p m a (.success r.output figures.consumed r.address)

/-- An attempt that fails is reported as it is classified. -/
theorem reports_of_failed {outcome : Outcome} (h : p.attemptOf m a = .ok (.error outcome)) :
    p.Reports m a outcome := by
  rw [attemptOf_eq] at h
  obtain ⟨⟨r, w⟩, hrun, hclassify⟩ := exists_of_bind_ok h
  have hc := classify_cases { Grant.ofMeter a.meter m.gasLimit with inner := w.ledger } r w.view
  rw [hclassify] at hc
  cases hc with
  | overpaid hf =>
    refine .overpaid fun r' figures hran => ?_
    obtain ⟨w', hrun', hf'⟩ := hran
    rw [hrun] at hrun'
    cases hrun'
    rw [hf] at hf'
    cases hf'
  | failed hf he => exact .failed ⟨w, hrun, hf⟩ he
  | exceeding hf he hx =>
    cases hl : a.meter.limit with
    | bounded limit => exact .exceeding ⟨w, hrun, hf⟩ he hl ((Grant.exceedsOuter_iff hl hf).1 hx)
    | untracked =>
      obtain ⟨-, hexceeds⟩ := Grant.reconcile_figures hf
      rw [hx, show (Grant.ofMeter a.meter m.gasLimit).outerLimit = .untracked from hl] at hexceeds
      cases hexceeds

/-- An attempt that ends well comes of a run that ends well, within the limit of the meter if it
has one. -/
theorem ran_of_attempt {run : Finished} (h : p.attemptOf m a = .ok (.ok run)) :
    p.Ran m a run.result run.figures ∧ run.result.error = none ∧
    ∀ limit, a.meter.limit = .bounded limit →
      a.meter.consumed.toNat + run.figures.consumed.toNat ≤ limit.toNat := by
  rw [attemptOf_eq] at h
  obtain ⟨⟨r, w⟩, hrun, hclassify⟩ := exists_of_bind_ok h
  have hc := classify_cases { Grant.ofMeter a.meter m.gasLimit with inner := w.ledger } r w.view
  rw [hclassify] at hc
  cases hc with
  | finished hf he hx =>
    refine ⟨⟨w, hrun, hf⟩, he, fun limit hl => Nat.le_of_not_lt fun hlt => ?_⟩
    rw [(Grant.exceedsOuter_iff hl hf).2 hlt] at hx
    cases hx

/-- **Every transition that returns is reported by one of these**, if its view may be published. -/
theorem execute_reports (he : p.engine.KeepsWritable) (h : p.execute m a = .ok (t, a')) :
    p.Reports m a t.outcome := by
  have hx := execute_cases p m a
  rw [h] at hx
  cases hx with
  | failed ha => exact reports_of_failed ha
  | uncharged ha hcharge =>
    obtain ⟨hran, herror, hwithin⟩ := ran_of_attempt ha
    obtain ⟨⟨available, rfl⟩, hover⟩ := Meter.consume_refused hcharge
    cases hl : a.meter.limit with
    | bounded limit =>
      rw [hl] at hover
      exact absurd (hwithin limit hl) (Nat.not_le_of_lt hover)
    | untracked =>
      rw [hl] at hover
      exact .overrunning hran herror hl hover
  | unpublished ha _ hp =>
    rw [View.publish_of_writable (isReadOnly_of_attempt he ha)] at hp
    cases hp
  | effective ha hcharge _ =>
    obtain ⟨hran, herror, -⟩ := ran_of_attempt ha
    exact .effective hran herror (Meter.consume_within hcharge)

variable {outcome : Outcome}

/-- An outcome is fatal for a cause that has an outcome of its own only if a total would leave its
range. -/
theorem Reports.misfiled_iff (h : p.Reports m a outcome) :
    (∃ cause gas, outcome = .fatal cause gas ∧ cause.hasOutcome = true) ↔ p.Overruns m a := by
  cases h with
  | overpaid none =>
    refine ⟨?_, fun ⟨_, r, figures, hran, _⟩ => absurd hran (none r figures)⟩
    rintro ⟨_, _, ⟨⟩, hkind⟩
    cases hkind
  | failed ran he =>
    rw [ran.overruns_iff, he]
    refine ⟨?_, fun ⟨_, hnone, _⟩ => nomatch hnone⟩
    rintro ⟨cause, gas, hfatal, hkind⟩
    rw [Outcome.ofError_eq_fatal hfatal] at hkind
    cases hkind
  | exceeding ran he hl hx =>
    rw [ran.overruns_iff, hl]
    exact ⟨nofun, nofun⟩
  | overrunning ran he hl hx =>
    rw [ran.overruns_iff]
    exact ⟨fun _ => ⟨hl, he, hx⟩, fun _ => ⟨_, _, rfl, rfl⟩⟩
  | effective ran he hle =>
    rw [ran.overruns_iff]
    refine ⟨nofun, fun ⟨hl, _, hx⟩ => ?_⟩
    rw [hl] at hle
    exact absurd hle (Nat.not_le_of_lt hx)

/-- A want of gas is reported as such, unless a total would leave its range. -/
theorem Reports.outOfGas_iff (h : p.Reports m a outcome) :
    (∃ gas, outcome = .outOfGas gas) ↔ p.LacksGas m a ∧ ¬p.Overruns m a := by
  cases h with
  | overpaid none => exact ⟨nofun, fun ⟨⟨r, figures, hran, _⟩, _⟩ => absurd hran (none r figures)⟩
  | failed ran he =>
    rw [ran.lacksGas_iff, ran.overruns_iff, Outcome.ofError_eq_outOfGas, he]
    simp
  | exceeding ran he hl hx =>
    rw [ran.lacksGas_iff, ran.overruns_iff, hl]
    exact ⟨fun _ => ⟨.inr ⟨he, hx⟩, nofun⟩, fun _ => ⟨_, rfl⟩⟩
  | overrunning ran he hl hx =>
    rw [ran.overruns_iff]
    exact ⟨nofun, fun ⟨_, hover⟩ => absurd ⟨hl, he, hx⟩ hover⟩
  | effective ran he hle =>
    rw [ran.lacksGas_iff, he]
    refine ⟨nofun, ?_⟩
    rintro ⟨⟨_, hsome, _⟩ | ⟨_, hlt⟩, _⟩
    · cases hsome
    · exact absurd hle (Nat.not_le_of_lt hlt)

end Processor

open Processor in
/-- **Outcomes follow their causes**, but for one. Whatever the parameters, the store, the header,
the message and the meter, a transition that returns is fatal for a revert, for want of gas or for a
balance exactly if its meter is untracked, its run ends well and the total would leave its range.
Every other transition that lacks gas, be it in its run or for its meter, is reported as out of gas,
and no transition that does not. A bounded meter never makes the exception. -/
theorem classified_by_cause (p : Processor) (m : Message) (a : Ambient) :
    (∀ params, (Engine.machine params).KeepsWritable) ∧
    (∀ script : Script, script.engine.KeepsWritable) ∧
    (p.engine.KeepsWritable → ∀ t a', p.execute m a = .ok (t, a') →
      ((∃ cause gas, t.outcome = .fatal cause gas ∧ cause.hasOutcome = true) ↔ p.Overruns m a) ∧
      ((∃ gas, t.outcome = .outOfGas gas) ↔ p.LacksGas m a ∧ ¬p.Overruns m a) ∧
      ∀ limit, a.meter.limit = .bounded limit → ¬p.Overruns m a) := by
  refine ⟨Engine.keepsWritable_machine, Script.keepsWritable_engine, fun he t a' h => ?_⟩
  have hreports := execute_reports he h
  refine ⟨hreports.misfiled_iff, hreports.outOfGas_iff, fun limit hl hover => ?_⟩
  rw [hover.1] at hl
  cases hl

/-! ### Meters that are full -/

namespace FullMeter

/-- Account 1 has value to give, and account 2 has no code. -/
def store : Store := .ofAccounts [(⟨1⟩, .ofBalance 1000)]

/-- Calls account 2, which costs something. -/
def calls : Message := .invoke ⟨1⟩ ⟨2⟩ 0 [] 100000

/-- All the gas that can be counted has been. -/
def brimful : Ambient := ⟨Meter.untracked.record maxGas "earlier", .genesis, [], store⟩

/-- More has been counted than the limit. -/
def overspent : Ambient := ⟨(Meter.bounded 500).record 600 "earlier", .genesis, [], store⟩

end FullMeter

open FullMeter in
/-- On the untracked meter the call is fatal for want of gas; on the bounded one it is out of gas. -/
theorem classified_by_cause_full :
    (∃ t a', (Processor.ofParams .standard).execute calls brimful = .ok (t, a') ∧
      (Processor.ofParams .standard).Overruns calls brimful ∧ ¬∃ gas, t.outcome = .outOfGas gas) ∧
    ∃ t a', (Processor.ofParams .standard).execute calls overspent = .ok (t, a') ∧
      t.outcome = .outOfGas 600 ∧ (Processor.ofParams .standard).LacksGas calls overspent := by
  have hfatal : ((Processor.ofParams .standard).execute calls brimful).toOption.bind
      (fun e => some e.1.outcome) = some (.fatal (.outOfGas 700 0) maxGas) := by decide +kernel
  have hout : ((Processor.ofParams .standard).execute calls overspent).toOption.bind
      (fun e => some e.1.outcome) = some (.outOfGas 600) := by decide +kernel
  obtain ⟨⟨t, a'⟩, ht, hread⟩ := exists_of_read hfatal
  obtain ⟨⟨t', a''⟩, ht', hread'⟩ := exists_of_read hout
  have hkeeps := Engine.keepsWritable_machine .standard
  obtain ⟨hmisfiled, hreported, -⟩ :=
    (classified_by_cause (.ofParams .standard) calls brimful).2.2 hkeeps t a' ht
  obtain ⟨-, hreported', -⟩ :=
    (classified_by_cause (.ofParams .standard) calls overspent).2.2 hkeeps t' a'' ht'
  have hover := hmisfiled.1 ⟨_, _, Option.some.inj hread, rfl⟩
  exact ⟨⟨t, a', ht, hover, fun hgas => (hreported.1 hgas).2 hover⟩, t', a'', ht',
    Option.some.inj hread', (hreported'.1 ⟨_, Option.some.inj hread'⟩).1⟩

open FullMeter in
/-- **A refused charge can be fatal.** The call ends well, and the charge for it is refused for want
of gas, which has an outcome of its own. -/
theorem overrun_is_fatal : ∃ t a' cause gas,
    (Processor.ofParams .standard).execute calls brimful = .ok (t, a') ∧
      t.outcome = .fatal cause gas ∧ cause = .outOfGas 700 0 ∧ cause.hasOutcome = true := by
  have hread : ((Processor.ofParams .standard).execute calls brimful).toOption.bind
      (fun e => some e.1.outcome) = some (.fatal (.outOfGas 700 0) maxGas) := by decide +kernel
  obtain ⟨⟨t, a'⟩, ht, hread⟩ := exists_of_read hread
  exact ⟨t, a', _, _, ht, Option.some.inj hread, rfl, rfl⟩

end MeteredLedger
