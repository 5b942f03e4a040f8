import MeteredLedger.Proofs.Frame.Faults
import MeteredLedger.Proofs.Machine.Likeness

/-!
# Frames that code cannot tell apart

Around code, value is moved, addresses are taken, and contracts are given their code. If this is
done alike on machines that are alike for code (`FrameLikeness`), then frames are made ready alike,
and creations are ended alike; what is between is for the code to do.
-/

namespace MeteredLedger

/-- **A likeness of machines that frames do not lead out of**, for code and for what is done around
it. -/
structure FrameLikeness (env : Setting) (S : Stop → Prop) (R : Machine → Machine → Prop) : Prop
    extends Likeness env S R where
  /-- Code is loaded alike. -/
  load : ∀ {m m'}, R m m' → ∀ code,
    R { m with frame := m.frame.load code } { m' with frame := m'.frame.load code }
  /-- Value is moved alike. -/
  transfer : ∀ source target amount, Exec.Follows S R
    (Exec.onView (View.transfer env.store source target amount))
    (Exec.onView (View.transfer env.store source target amount))
  /-- Addresses are taken alike. -/
  take : ∀ {m m'}, R m m' → ∀ address,
    R (m.withView (m.world.view.setNonce env.store address 1))
      (m'.withView (m'.world.view.setNonce env.store address 1))
  /-- Contracts are given their code alike. -/
  deposit : ∀ {m m'}, R m m' → ∀ address code,
    R (m.withView (m.world.view.setCode env.store address code))
      (m'.withView (m'.world.view.setCode env.store address code))

namespace FrameLikeness

open Exec

variable {env : Setting} {S : Stop → Prop} {R : Machine → Machine → Prop}

/-- **A creation is ended alike** where its code is paid for and deposited alike. -/
theorem closeCreation_of (address : Address) (exit : Exit)
    (pay : ∀ amount label, Follows S R (charge amount label) (charge amount label))
    (deposit : ∀ {m m'}, R m m' → ∀ code,
      R (m.withView (m.world.view.setCode env.store address code))
        (m'.withView (m'.world.view.setCode env.store address code))) :
    Follows S R (closeCreation env address exit) (closeCreation env address exit) := by
  cases exit with
  | reverted output => exact follows_pure _
  | returned code =>
    have pay : Follows S R (do
        charge (mulGasCapped (gasOfNat code.length) env.params.effects.createData) "code_deposit"
        modifyView fun v => v.setCode env.store address code) (do
        charge (mulGasCapped (gasOfNat code.length) env.params.effects.createData) "code_deposit"
        modifyView fun v => v.setCode env.store address code) :=
      (pay _ _).bind fun _ _ _ hm => ⟨_, rfl, deposit hm code⟩
    refine Follows.bind ?_ fun _ => follows_pure _
    unfold deploy
    dsimp only
    split_ifs
    · exact (follows_fail _).bind fun _ => pay
    · exact pay

section

variable (h : FrameLikeness env S R)

include h

/-- **The frame of a call is made ready alike.** -/
theorem openCall (c : Call) : Follows S R (openCall env c) (openCall env c) := by
  have bring : Follows S R (bring env c) (bring env c) := by
    unfold Exec.bring
    split_ifs
    · exact (h.pay _ _).bind fun _ => h.transfer _ _ _
    · exact follows_pure _
  have codeAt : ∀ m m', R m m' → m'.world.view.codeAt env.store c.address
      = m.world.view.codeAt env.store c.address := fun _ _ hm =>
    congrFun (congrArg Sight.code (h.sight hm)) _
  refine (h.pay _ _).bind fun _ => bring.bind fun _ => (follows_inspect codeAt).bind fun code => ?_
  split_ifs
  · exact follows_pure _
  · exact Follows.bind (fun _ _ hm => ⟨_, rfl, h.load hm code⟩) fun _ => follows_pure _

theorem claim (address : Address) : Follows S R (claim env address) (claim env address) := by
  have account : ∀ m m', R m m' → m'.world.view.account env.store address
      = m.world.view.account env.store address := fun _ _ hm =>
    congrFun (congrArg Sight.account (h.sight hm)) _
  refine (follows_inspect account).bind fun existing => ?_
  split_ifs
  · exact follows_fail _
  · exact fun _ _ hm => ⟨_, rfl, h.take hm address⟩

theorem endow (address : Address) (c : Creation) :
    Follows S R (endow env address c) (endow env address c) := by
  unfold Exec.endow
  split_ifs
  · exact h.transfer _ _ _
  · exact follows_pure _

/-- **The frame of a creation is made ready alike.** -/
theorem openCreation (address : Address) (c : Creation) :
    Follows S R (openCreation env address c) (openCreation env address c) :=
  (h.pay _ _).bind fun _ => (h.claim address).bind fun _ => (h.endow address c).bind
    fun _ _ _ hm => ⟨_, rfl, h.load hm _⟩

/-- **The frame of a creation is ended alike.** -/
theorem closeCreation (address : Address) (exit : Exit) :
    Follows S R (closeCreation env address exit) (closeCreation env address exit) :=
  closeCreation_of address exit h.pay fun hm => h.deposit hm address

end

end FrameLikeness

end MeteredLedger
