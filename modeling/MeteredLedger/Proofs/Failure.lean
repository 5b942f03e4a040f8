import MeteredLedger.Proofs.Effect
import MeteredLedger.Proofs.View.Ending

/-!
# Failed transitions

A transition runs on a view that may be published. No engine makes it one that may not
(`Engine.KeepsWritable`), be it one that runs code or one that answers as it is told. So a
transition that fails has failed before its meter was charged, and leaves everything as it was
(`Processor.execute_of_failure`).
-/

namespace MeteredLedger

/-- **The engine does not decide whether its changes may be published**: a view that may be before
a run may be after it, and one that may not may not. -/
def Engine.KeepsWritable (e : Engine) : Prop :=
  ∀ context store m gas w r w', e.run context store m gas w = .ok (r, w') →
    w'.view.isReadOnly = w.view.isReadOnly

theorem Engine.RunsCode.keepsWritable {params : Params} {e : Engine} (he : e.RunsCode params) :
    e.KeepsWritable := by
  intro context store m gas w r w' h
  have hb := fun steps =>
    Exec.Acts.staysInside (Exec.run_acts ⟨params, context, store⟩ steps)
  obtain ⟨steps, c, -, heq⟩ | ⟨steps, c, -, heq⟩ := he.run_cases context store m gas w
  · exact (callWith_atomic (hb steps) (heq.symm.trans h)).1.isReadOnly
  · exact (createWith_atomic (hb steps) (heq.symm.trans h)).1.isReadOnly

theorem Engine.keepsWritable_machine (params : Params) : (machine params).KeepsWritable :=
  (runsCode_machine params).keepsWritable

theorem Script.keepsWritable_engine (s : Script) : s.engine.KeepsWritable := by
  intro context store m gas w r w' h
  cases m with
  | create sender value initCode gasLimit =>
    cases h
    exact ((View.touch_putAccount_inside store w.view Script.contract _).trans
      (View.modifyTop_inside store _ _)).isReadOnly
  | invoke sender recipient value payload gasLimit =>
    have ht := View.transfer_meets store sender recipient value w.view
    unfold Meets at ht
    simp only [Engine.run, engine] at h
    split at h
    · rename_i he
      rw [show (s.count gas w).view = w.view from rfl] at he
      rw [he] at ht
      cases h
      exact ht.1.isReadOnly
    · rename_i he
      rw [show (s.count gas w).view = w.view from rfl] at he
      rw [he] at ht
      cases h
      exact ht.1.isReadOnly
    · cases h

namespace Processor

variable {p : Processor} {m : Message} {a a' : Ambient} {t : Transition}

/-- The view that a run leaves may be published. -/
theorem isReadOnly_of_attempt (he : p.engine.KeepsWritable) {run : Finished}
    (h : p.attemptOf m a = .ok (.ok run)) : run.view.isReadOnly = false := by
  obtain ⟨w, hr, -, hview⟩ := attempt_eq_ok h
  rw [hview, he _ _ _ _ _ _ _ hr]
  rfl

/-- **A transition that fails leaves the meter and the store as they were**, and no events. -/
theorem execute_of_failure (he : p.engine.KeepsWritable) (h : p.execute m a = .ok (t, a'))
    (ht : t.isSuccess = false) : a' = a ∧ t.events = [] := by
  have hx := execute_cases p m a
  rw [h] at hx
  cases hx with
  | failed _ => exact ⟨rfl, rfl⟩
  | uncharged _ _ => exact ⟨rfl, rfl⟩
  | unpublished ha _ hp =>
    rw [View.publish_of_writable (isReadOnly_of_attempt he ha)] at hp
    cases hp
  | effective _ _ _ => cases ht

end Processor

end MeteredLedger
