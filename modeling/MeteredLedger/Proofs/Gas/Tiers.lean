import MeteredLedger.Proofs.Failure
import MeteredLedger.Proofs.Gas.BlockLimit
import MeteredLedger.Proofs.Gas.Reconciliation

/-!
# The two tiers of gas

A transition is given gas twice over: its message asks for some, and the meter of its
transaction has some left. The smaller of the two is granted (`Grant.toNat_gas_ofMeter`), and
is all that the engine is asked to run on (`Processor.execute_eq_run`).

What is reported counts from different points. A transition that takes effect reports what
its run has consumed, and the meter goes up by that. One that fails reports what the meter
would have come to, and the meter stays where it was. Either way nothing goes beyond the
limit of the meter (`gas_within_tiers`).
-/

namespace MeteredLedger

/-! ### What the engine is asked for -/

/-- The engine that gives one answer, whatever it is asked for. -/
def Engine.answering (ended : FrameResult × World) : Engine where
  call _ _ _ _ := .ok ended
  create _ _ _ _ := .ok ended

namespace Processor

/-- An attempt is one run, and what comes of it. -/
theorem attempt_eq_bind (p : Processor) (m : Message) (header : Header) (store : Store)
    (view : View) (g : Grant) :
    p.attempt m header store view g
      = p.engine.run (.ofHeader header m.sender g.gas) store m g.gas ⟨view.resync, g.inner⟩
        >>= fun ended => classify { g with inner := ended.2.ledger } ended.1 ended.2.view := by
  unfold attempt
  dsimp only
  cases p.engine.run (.ofHeader header m.sender g.gas) store m g.gas ⟨view.resync, g.inner⟩ <;>
    rfl

/-- The attempt of a transition is one run, on what is granted. -/
theorem attemptOf_eq (p : Processor) (m : Message) (a : Ambient) :
    let g := Grant.ofMeter a.meter m.gasLimit
    p.attemptOf m a
      = p.engine.run (.ofHeader a.header m.sender g.gas) a.store m g.gas ⟨startView a, .untracked⟩
        >>= fun ended => classify { g with inner := ended.2.ledger } ended.1 ended.2.view :=
  attempt_eq_bind p m a.header a.store _ _

/-- A transition is abandoned for what its run is abandoned for. -/
theorem execute_of_run_error {p : Processor} {m : Message} {a : Ambient} {f : Abort}
    (h : p.engine.run (.ofHeader a.header m.sender (Grant.ofMeter a.meter m.gasLimit).gas) a.store m
      (Grant.ofMeter a.meter m.gasLimit).gas ⟨startView a, .untracked⟩ = .error f) :
    p.execute m a = .error f := by
  rw [execute_eq_conclude, attemptOf_eq, h]
  rfl

/-- **A transition asks its engine for one run**, on what is granted, and goes on from the
answer as it would with an engine that knows no other. -/
theorem execute_eq_run (p : Processor) (m : Message) (a : Ambient) :
    let gas := (Grant.ofMeter a.meter m.gasLimit).gas
    p.execute m a
      = p.engine.run (.ofHeader a.header m.sender gas) a.store m gas ⟨startView a, .untracked⟩
        >>= fun ended => { p with engine := .answering ended }.execute m a := by
  intro gas
  rw [execute_eq_conclude, attemptOf_eq]
  cases p.engine.run (.ofHeader a.header m.sender gas) a.store m gas
      ⟨startView a, .untracked⟩ with
  | error f => rfl
  | ok ended =>
    show _ = { p with engine := Engine.answering ended }.execute m a
    rw [execute_eq_conclude, attemptOf_eq]
    cases m <;> rfl

end Processor

open Processor in
/-- **What is granted bounds what is used.** A transition on a bounded meter that is within its
limit asks its engine for one run, on the smaller of what its message asks for and what the
meter has left. If it takes effect, it reports no more than that, and the meter goes up by
what it reports; if it fails, the meter stays as it is, and what it reports is what the meter
had consumed and at most the grant with it. Nothing that it reports, and nothing on the meter,
is beyond the limit. -/
theorem gas_within_tiers :
    (∀ params, (Engine.machine params).KeepsWritable) ∧
    (∀ script : Script, script.engine.KeepsWritable) ∧
    ∀ p : Processor, p.engine.KeepsWritable → ∀ (m : Message) (a : Ambient) (limit : Gas),
      a.meter.limit = .bounded limit → a.meter.consumed ≤ limit →
      ∃ grant : Gas,
        grant.toNat = min m.gasLimit.toNat (limit.toNat - a.meter.consumed.toNat) ∧
        p.execute m a = p.engine.run (.ofHeader a.header m.sender grant) a.store m grant
          ⟨startView a, .untracked⟩
          >>= (fun ended => { p with engine := .answering ended }.execute m a) ∧
        ∀ t a', p.execute m a = .ok (t, a') →
          (t.isSuccess = true → t.outcome.gasUsed ≤ grant ∧
            a'.meter.consumed.toNat = a.meter.consumed.toNat + t.outcome.gasUsed.toNat) ∧
          (t.isSuccess = false → a'.meter = a.meter ∧ a.meter.consumed ≤ t.outcome.gasUsed ∧
            t.outcome.gasUsed.toNat ≤ a.meter.consumed.toNat + grant.toNat) ∧
          t.outcome.gasUsed ≤ limit ∧ a'.meter.consumed ≤ limit := by
  refine ⟨Engine.keepsWritable_machine, Script.keepsWritable_engine,
    fun p he m a limit hl hc => ?_⟩
  have hgrant := Grant.toNat_gas_ofMeter hl m.gasLimit
  refine ⟨(Grant.ofMeter a.meter m.gasLimit).gas, hgrant, execute_eq_run p m a, fun t a' h => ?_⟩
  have houter : (Grant.ofMeter a.meter m.gasLimit).outerConsumed = a.meter.consumed := rfl
  simp only [UInt64.le_iff_toNat_le] at hc ⊢
  have hx := execute_cases p m a
  rw [h] at hx
  cases hx with
  | @failed outcome ha =>
    obtain ⟨hge, hle⟩ := (attempt_within ha).1 outcome rfl
    rw [houter] at hle hge
    have hno : (Transition.failed outcome).isSuccess = false := attempt_isSuccess ha
    refine ⟨fun hs => ?_, fun _ => ⟨rfl, hge, hle⟩, ?_, hc⟩
    · rw [hno] at hs
      cases hs
    · show outcome.gasUsed.toNat ≤ _
      omega
  | @uncharged run e ha _ =>
    obtain ⟨-, hge, hle⟩ := (attempt_within ha).2 run rfl
    rw [houter] at hle hge
    refine ⟨nofun, fun _ => ⟨rfl, hge, hle⟩, ?_, hc⟩
    show run.figures.total.toNat ≤ _
    omega
  | unpublished ha _ hp =>
    rw [View.publish_of_writable (isReadOnly_of_attempt he ha)] at hp
    cases hp
  | @effective run meter _ _ ha hcharge _ =>
    obtain ⟨hle, -⟩ := (attempt_within ha).2 run rfl
    obtain ⟨-, hmeter, hfit⟩ := Meter.consume_eq_ok hcharge
    have hfit := hfit limit hl
    refine ⟨fun _ => ⟨hle, hmeter⟩, nofun, ?_, ?_⟩
    · show run.figures.consumed.toNat ≤ _
      omega
    · show meter.consumed.toNat ≤ _
      omega

/-! ### A meter with less left than is asked for -/

namespace SharedMeter

/-- Two thirds of the limit are consumed, and 20000 are left. -/
def ambient : Ambient :=
  ⟨(Meter.bounded 60000).record 40000 "earlier", .genesis, [], NestedFrames.store⟩

/-- Calls the account that enters two frames, and asks for more than is left. -/
def pays : Message := .invoke ⟨1⟩ ⟨2⟩ 10 [] 100000

/-- Calls the account that goes on for as long as it has gas, and asks for less than is left. -/
def burns : Message := .invoke ⟨1⟩ ⟨3⟩ 0 [] 1000

end SharedMeter

open SharedMeter in
/-- One message leaves some of what is granted, and the meter goes up by the rest; another one
takes all of it and fails, and the meter stays where it is. -/
theorem gas_within_tiers_shared :
    ambient.meter.limit = .bounded 60000 ∧ ambient.meter.consumed ≤ 60000 ∧
    (∃ t a', (Processor.ofParams .standard).execute pays ambient = .ok (t, a') ∧
      t.isSuccess = true ∧ t.outcome.gasUsed = 11216 ∧
      a'.meter.consumed.toNat = 40000 + 11216) ∧
    ∃ t a', (Processor.ofParams .standard).execute burns ambient = .ok (t, a') ∧
      t.isSuccess = false ∧ t.outcome.gasUsed = 41000 ∧ a'.meter = ambient.meter := by
  have hlimit : ambient.meter.limit = .bounded 60000 := rfl
  have hwithin : ambient.meter.consumed ≤ 60000 := by decide
  have hpaid : ((Processor.ofParams .standard).execute pays ambient).toOption.bind
      (fun e => some (e.1.isSuccess, e.1.outcome.gasUsed)) = some (true, 11216) := by
    decide +kernel
  have hburnt : ((Processor.ofParams .standard).execute burns ambient).toOption.bind
      (fun e => some (e.1.isSuccess, e.1.outcome.gasUsed)) = some (false, 41000) := by
    decide +kernel
  obtain ⟨⟨t, a'⟩, ht, hread⟩ := exists_of_read hpaid
  obtain ⟨⟨t', a''⟩, ht', hread'⟩ := exists_of_read hburnt
  rw [Option.some.injEq, Prod.mk.injEq] at hread hread'
  dsimp only at hread hread'
  obtain ⟨hs, hgas⟩ := hread
  obtain ⟨hs', hgas'⟩ := hread'
  have hlaw := gas_within_tiers.2.2 (.ofParams .standard) (Engine.keepsWritable_machine .standard)
  obtain ⟨_, -, -, hend⟩ := hlaw pays ambient 60000 hlimit hwithin
  obtain ⟨_, -, -, hend'⟩ := hlaw burns ambient 60000 hlimit hwithin
  have hmeter := ((hend t a' ht).1 hs).2
  rw [hgas, show ambient.meter.consumed.toNat = 40000 by decide] at hmeter
  exact ⟨hlimit, hwithin, ⟨t, a', ht, hs, hgas, hmeter⟩, t', a'', ht', hs', hgas',
    ((hend' t' a'' ht').2.1 hs').1⟩

end MeteredLedger
