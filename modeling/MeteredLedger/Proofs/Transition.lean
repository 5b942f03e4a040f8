import Mathlib.Tactic.SplitIfs
import MeteredLedger.Transition

/-!
# What a transition comes to

A transition attempts its message, charges its meter for the run and publishes the
view. It can stop at each of the three, and takes effect if it stops at none
(`execute_cases`); an attempt that ends well comes of a run without an error
(`attempt_eq_ok`).
-/

namespace MeteredLedger

namespace Processor

variable {p : Processor} {m : Message} {a : Ambient}

/-- The attempt of a transition. -/
def attemptOf (p : Processor) (m : Message) (a : Ambient) : Except Abort (Except Outcome Finished) :=
  p.attempt m a.header a.store (View.fresh.tagged (Hash.digest a.txBytes))
    (Grant.ofMeter a.meter m.gasLimit)

/-- **What becomes of a transition.** -/
inductive Executed (p : Processor) (m : Message) (a : Ambient) :
    Except Abort (Transition × Ambient) → Prop where
  /-- Its attempt is abandoned. -/
  | abandoned {f : Abort} (h : p.attemptOf m a = .error f) : Executed p m a (.error f)
  /-- Its attempt fails. -/
  | failed {outcome : Outcome} (h : p.attemptOf m a = .ok (.error outcome)) :
      Executed p m a (.ok (.failed outcome, a))
  /-- The meter cannot count what it is charged. -/
  | uncounted {run : Finished} {f : Abort} (h : p.attemptOf m a = .ok (.ok run))
      (hc : a.meter.consume run.figures.consumed "vm_execution" = .error (.abort f)) :
      Executed p m a (.error f)
  /-- The meter does not let through what it is charged. -/
  | uncharged {run : Finished} {e : LedgerError} (h : p.attemptOf m a = .ok (.ok run))
      (hc : a.meter.consume run.figures.consumed "vm_execution" = .error (.error e)) :
      Executed p m a (.ok (.failed (.fatal e run.figures.total), a))
  /-- The view is not published. -/
  | unpublished {run : Finished} {meter : Meter} {e : LedgerError}
      (h : p.attemptOf m a = .ok (.ok run))
      (hc : a.meter.consume run.figures.consumed "vm_execution" = .ok meter)
      (hp : run.view.publish true a.store = .error e) :
      Executed p m a (.ok (.failed (.fatal e run.figures.total), { a with meter }))
  /-- It takes effect. -/
  | effective {run : Finished} {meter : Meter} {logs : List Log} {store : Store}
      (h : p.attemptOf m a = .ok (.ok run))
      (hc : a.meter.consume run.figures.consumed "vm_execution" = .ok meter)
      (hp : run.view.publish true a.store = .ok (logs, store)) :
      Executed p m a
        (.ok (.succeeded run.outcome (Hash.digest a.txBytes) logs, { a with meter, store }))

/-- What becomes of a transition once its attempt is over: it has failed, or its meter is charged
and its view published. -/
def conclude (a : Ambient) : Except Outcome Finished → Except Abort (Transition × Ambient)
  | .error outcome => .ok (.failed outcome, a)
  | .ok run =>
    match a.meter.consume run.figures.consumed "vm_execution" with
    | .error (.abort f) => .error f
    | .error (.error e) => .ok (.failed (.fatal e run.figures.total), a)
    | .ok meter =>
      match run.view.publish true a.store with
      | .error e => .ok (.failed (.fatal e run.figures.total), { a with meter })
      | .ok (logs, store) =>
        .ok (.succeeded run.outcome (Hash.digest a.txBytes) logs, { a with meter, store })

/-- All that a transition wants of its processor is the attempt. -/
theorem execute_eq_conclude (p : Processor) (m : Message) (a : Ambient) :
    p.execute m a = p.attemptOf m a >>= conclude a := by
  unfold execute attemptOf
  refine bind_congr fun answer => ?_
  cases answer <;> rfl

theorem execute_cases (p : Processor) (m : Message) (a : Ambient) :
    Executed p m a (p.execute m a) := by
  rw [execute_eq_conclude]
  cases h : p.attemptOf m a with
  | error f => exact .abandoned h
  | ok answer =>
    show Executed p m a (conclude a answer)
    cases answer with
    | error outcome => exact .failed h
    | ok run =>
      unfold conclude
      dsimp only
      split
      · rename_i f hc
        exact .uncounted h hc
      · rename_i e hc
        exact .uncharged h hc
      · rename_i meter hc
        split
        · rename_i e hp
          exact .unpublished h hc hp
        · rename_i logs store hp
          exact .effective h hc hp

/-- An attempt that ends well comes of a run without an error, and hands on the view
that the run has left. -/
theorem attempt_eq_ok {header : Header} {store : Store} {view : View} {g : Grant} {run : Finished}
    (h : p.attempt m header store view g = .ok (.ok run)) :
    ∃ w, p.engine.run (Context.ofHeader header m.sender g.gas) store m g.gas ⟨view.resync, g.inner⟩
        = .ok (run.result, w) ∧ run.result.error = none ∧ run.view = w.view := by
  unfold attempt at h
  dsimp only at h
  split at h
  · cases h
  · rename_i result w hr
    unfold classify at h
    split at h
    · cases h
    · cases h
    · split at h
      · cases h
      · rename_i hn
        split_ifs at h
        · cases h
        · cases h
          exact ⟨w, hr, hn, rfl⟩

end Processor

end MeteredLedger
