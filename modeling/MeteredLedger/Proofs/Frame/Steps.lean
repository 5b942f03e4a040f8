import MeteredLedger.Proofs.Frame.Faults

/-!
# More steps make no difference

A run that comes to an end before its steps are counted down comes to the same end if there
are more of them. An action extends another one if it does the same wherever that one is not
cut off (`Exec.Extends`); putting actions together keeps to that, and so do frames around
them. So runs extend each other by their steps (`Exec.run_extends`), and so do whole calls
and creations (`callIn_of_le`, `createIn_of_le`).
-/

namespace MeteredLedger

namespace Exec

variable {α β : Type} {x x' : Exec α}

/-- **The action `x'` does what `x` does**, unless `x` is cut off. -/
def Extends (x x' : Exec α) : Prop :=
  ∀ m, (∀ m', x m ≠ .error (.abort .unfinished) m') → x' m = x m

theorem Extends.refl (x : Exec α) : Extends x x := fun _ _ => rfl

theorem Extends.trans {x'' : Exec α} (h : Extends x x') (h' : Extends x' x'') : Extends x x'' := by
  intro m hm
  have heq := h m hm
  rw [← heq] at hm ⊢
  exact h' m hm

theorem Extends.bind {f f' : α → Exec β} (hx : Extends x x') (hf : ∀ a, Extends (f a) (f' a)) :
    Extends (x >>= f) (x' >>= f') := by
  intro m hm
  rw [bind_apply] at hm ⊢
  rw [bind_apply]
  cases hxm : x m with
  | ok a m₁ =>
    rw [hxm] at hm
    rw [hx m (by rw [hxm]; exact fun _ => nofun), hxm]
    exact hf a m₁ hm
  | error stop m₁ =>
    have hends : ∀ m', x m ≠ .error (.abort .unfinished) m' := by
      intro m' hcut
      rw [hcut] at hm
      exact hm m' rfl
    rw [hx m hends, hxm]

/-- What is done after the same action. -/
theorem Extends.after (x : Exec α) {f f' : α → Exec β} (hf : ∀ a, Extends (f a) (f' a)) :
    Extends (x >>= f) (x >>= f') := (refl x).bind hf

end Exec

/-! ### Frames -/

section

variable {env : Setting} {body body' : Exec Exit}

/-- A frame that is left was not cut off. -/
theorem settle_extends {x x' : Exec Exit} (hx : Exec.Extends x x') {mark : View.Mark}
    {m : Machine} (h : settle mark (x m) ≠ .error .unfinished) :
    settle mark (x' m) = settle mark (x m) := by
  rw [hx m]
  rintro m' hm
  rw [hm] at h
  exact h rfl

theorem Exec.enterCall_extends (hb : Exec.Extends body body') (c : Call) :
    Exec.Extends (Exec.enterCall env body c) (Exec.enterCall env body' c) := by
  rw [Exec.enterCall_eq_open, Exec.enterCall_eq_open]
  refine .after _ fun hasCode => ?_
  cases hasCode with
  | true => exact hb
  | false => exact .refl _

theorem Exec.enterCreation_extends (hb : Exec.Extends body body') (address : Address)
    (c : Creation) : Exec.Extends (Exec.enterCreation env body address c)
      (Exec.enterCreation env body' address c) := by
  rw [Exec.enterCreation_eq_open, Exec.enterCreation_eq_open]
  exact .after _ fun _ => hb.bind fun _ => .refl _

/-- A call is the same with code that runs no shorter. -/
theorem callWith_extends (hb : Exec.Extends body body') {c : Call} {w : World}
    (h : callWith env body c w ≠ .error .unfinished) :
    callWith env body' c w = callWith env body c w := by
  unfold callWith at h ⊢
  cases hr : refusal? env w c.caller c.value c.depth with
  | some e => rfl
  | none =>
    simp only [hr] at h
    exact settle_extends (Exec.enterCall_extends hb c) h

theorem createWith_extends (hb : Exec.Extends body body') {c : Creation} {w : World}
    (h : createWith env body c w ≠ .error .unfinished) :
    createWith env body' c w = createWith env body c w := by
  unfold createWith at h ⊢
  cases hr : refusal? env w c.creator c.value c.depth with
  | some e => rfl
  | none =>
    simp only [hr] at h ⊢
    cases hv : View.bumpNonce env.store c.creator w.view with
    | error stop view => cases stop <;> rfl
    | ok _ view =>
      simp only [hv] at h ⊢
      rw [settle_extends (Exec.enterCreation_extends hb _ c)]
      intro hs
      rw [hs] at h
      exact h rfl

end

/-! ### Runs -/

namespace Exec

variable {env : Setting} {body body' : Exec Exit}

theorem descend_extends {enter enter' : World → Except Abort (FrameResult × World)}
    (h : ∀ w, enter w ≠ .error .unfinished → enter' w = enter w) :
    Extends (descend enter) (descend enter') := by
  intro m hm
  unfold descend at hm ⊢
  rw [h m.world]
  intro hw
  rw [hw] at hm
  exact hm m rfl

theorem turn_extends (hb : Extends body body') (byte : UInt8) :
    Extends (turn env body byte) (turn env body' byte) := by
  refine .after _ fun ctl => ?_
  cases ctl with
  | next => exact .refl _
  | jumped => exact .refl _
  | exit how => exact .refl _
  | call c offset size =>
    exact (descend_extends fun w h => callWith_extends hb h).bind fun _ => .refl _
  | create c => exact (descend_extends fun w h => createWith_extends hb h).bind fun _ => .refl _

theorem run_extends_succ (env : Setting) (steps : Nat) :
    Extends (run env steps) (run env (steps + 1)) := by
  induction steps with
  | zero => exact fun m hm => absurd rfl (hm m)
  | succ steps ih =>
    rw [run_succ, run_succ env (steps + 1)]
    refine .after _ fun next => ?_
    cases next with
    | none => exact .refl _
    | some byte =>
      refine (turn_extends ih byte).bind fun exit => ?_
      cases exit with
      | some how => exact .refl _
      | none => exact ih

/-- **A run of more steps extends one of fewer.** -/
theorem run_extends (env : Setting) {few many : Nat} (h : few ≤ many) :
    Extends (run env few) (run env many) := by
  induction many, h using Nat.le_induction with
  | base => exact .refl _
  | succ many _ ih => exact ih.trans (run_extends_succ env many)

end Exec

/-- **A call that is not cut off is the same in more steps.** -/
theorem callIn_of_le {env : Setting} {few many : Nat} (h : few ≤ many) {c : Call} {w : World}
    (hc : callIn few env c w ≠ .error .unfinished) : callIn many env c w = callIn few env c w :=
  callWith_extends (Exec.run_extends env h) hc

theorem createIn_of_le {env : Setting} {few many : Nat} (h : few ≤ many) {c : Creation} {w : World}
    (hc : createIn few env c w ≠ .error .unfinished) :
    createIn many env c w = createIn few env c w :=
  createWith_extends (Exec.run_extends env h) hc

/-- A creation that ends in some number of steps ends alike in any other in which it ends. -/
theorem createIn_unique {env : Setting} {steps steps' : Nat} {c : Creation} {w : World}
    (h : createIn steps env c w ≠ .error .unfinished)
    (h' : createIn steps' env c w ≠ .error .unfinished) :
    createIn steps env c w = createIn steps' env c w := by
  obtain hle | hle := Nat.le_total steps steps'
  · exact (createIn_of_le hle h).symm
  · exact createIn_of_le hle h'

end MeteredLedger
