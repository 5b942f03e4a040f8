import MeteredLedger.Proofs.Frame.Deeds
import MeteredLedger.Proofs.Frame.Faults
import MeteredLedger.Proofs.Machine.Places

/-!
# Frames within bounds

A frame is within bounds if it was given no more than some amount of gas and sees no code
of more than some number of bytes (`Machine.Within`). What a frame does keeps to that
(`Machine.Onward`): its gas only gets less, it stays in its code, and the codes that the
view shows change only where a contract is given what its creation has returned, which is
no longer than a region of memory can be.

So if the code that a frame runs ends on all machines within bounds (`Exec.EndsAt`), then
the frame is not cut off either, and the codes around it are within the bound still
(`callWith_ends`, `createWith_ends`).
-/

namespace MeteredLedger

/-- No account that the view shows has code of more than `L` bytes. -/
def World.CodesWithin (env : Setting) (L : Nat) (w : World) : Prop :=
  ∀ a, (w.view.codeAt env.store a).length ≤ L

theorem World.CodesWithin.of_eq {env : Setting} {L : Nat} {w w' : World}
    (h : w.CodesWithin env L) (hc : w'.view.codeAt env.store = w.view.codeAt env.store) :
    w'.CodesWithin env L := by
  intro a
  rw [hc]
  exact h a

/-! ### What a frame keeps to

Its gas grows less, under the same limit, and codes stay within their bound. -/

/-- **A machine goes on from another one**: in the same frame and with no more gas. -/
structure Machine.Onward (env : Setting) (L : Nat) (m m' : Machine) : Prop where
  limit : m'.gas.limit = m.gas.limit
  spent : m.gas.consumed.toNat ≤ m'.gas.consumed.toNat
  fixed : m'.frame.fixed = m.frame.fixed
  codes : m.world.CodesWithin env L → m'.world.CodesWithin env L

namespace Machine.Onward

variable {env : Setting} {L : Nat}

theorem refl (m : Machine) : m.Onward env L m := ⟨rfl, Nat.le_refl _, rfl, id⟩

theorem trans {a b c : Machine} (h : a.Onward env L b) (h' : b.Onward env L c) :
    a.Onward env L c :=
  ⟨h'.limit.trans h.limit, h.spent.trans h'.spent, h'.fixed.trans h.fixed,
    fun hc => h'.codes (h.codes hc)⟩

theorem move {m m' : Machine} (h : Move m m') : m.Onward env L m' := by
  have hfixed := h.fixed
  cases h with
  | goOn f h => exact ⟨rfl, Nat.le_refl _, hfixed, id⟩
  | pay h =>
    obtain ⟨hlimit, hconsumed, -⟩ := Meter.consume_eq_ok h
    exact ⟨hlimit, (Nat.le_add_right _ _).trans_eq hconsumed.symm, hfixed, id⟩
  | write key value =>
    exact ⟨rfl, Nat.le_refl _, hfixed,
      fun hc => hc.of_eq (congrArg Sight.code (View.sight_setSlot _ _ _ _))⟩
  | leave topics data =>
    exact ⟨rfl, Nat.le_refl _, hfixed,
      fun hc => hc.of_eq (congrArg Sight.code (View.sight_addLog _ _ _))⟩

theorem lasting (env : Setting) (L : Nat) : Lasting (Machine.Onward env L) :=
  ⟨refl, fun _ _ _ => trans, fun _ _ => move⟩

theorem code {m m' : Machine} (h : m.Onward env L m') : m'.frame.code = m.frame.code := by
  show m'.frame.fixed.code = m.frame.fixed.code
  rw [h.fixed]

theorem depth {m m' : Machine} (h : m.Onward env L m') : m'.frame.depth = m.frame.depth := by
  show m'.frame.fixed.depth = m.frame.fixed.depth
  rw [h.fixed]

/-- No more is left of the gas. -/
theorem remaining_le {m m' : Machine} (h : m.Onward env L m') {limit : Gas}
    (hl : m.gas.limit = .bounded limit) : m'.gas.remaining.toNat ≤ m.gas.remaining.toNat := by
  rw [Meter.toNat_remaining hl, Meter.toNat_remaining (h.limit.trans hl)]
  have := h.spent
  omega

/-- The frame has another view, with codes within the same bound. -/
theorem withView {m : Machine} {v : View}
    (h : v.codeAt env.store = m.world.view.codeAt env.store) : m.Onward env L (m.withView v) :=
  ⟨rfl, Nat.le_refl _, rfl, fun hc => hc.of_eq h⟩

end Machine.Onward

namespace Exec

variable {α β : Type} {env : Setting} {L : Nat} {x : Exec α}

/-- **The action takes its machine onward**, and is not cut off. -/
def Passes (env : Setting) (L : Nat) (x : Exec α) : Prop :=
  ∀ m, Meets x m (fun _ m' => m.Onward env L m') fun stop _ => stop.Decided

theorem Passes.bind {f : α → Exec β} (hx : Passes env L x) (hf : ∀ a, Passes env L (f a)) :
    Passes env L (x >>= f) := by
  intro m
  refine Meets.bind ((hx m).mono (fun a m₁ h => ?_) fun _ _ h => h)
  exact (hf a m₁).mono (fun _ _ h' => h.trans h') fun _ _ h' => h'

/-- What comes after an action starts on a machine further on. -/
theorem Passes.before {f : α → Exec β} {m : Machine} {Q : β → Machine → Prop}
    (hx : Passes env L x) (hf : ∀ a m₁, m.Onward env L m₁ →
      Meets (f a) m₁ Q fun stop _ => stop.Decided) :
    Meets (x >>= f) m Q fun stop _ => stop.Decided :=
  Meets.bind ((hx m).mono (fun a m₁ h => hf a m₁ h) fun _ _ h => h)

theorem Makes.passes (hx : Makes x) (hs : Stays x) : Passes env L x := fun m =>
  ((hx m).and (hs m)).mono (fun _ _ h => (Machine.Onward.lasting env L).moves h.1)
    fun _ _ h => h.2

theorem passes_pure (a : α) : Passes env L (pure a) := fun m => Meets.pure (.refl m)

variable (env L)

theorem passes_charge (amount : Gas) (label : String) : Passes env L (charge amount label) :=
  (charge_makes amount label).passes (stays_charge amount label)

theorem passes_transfer (source target : Address) (amount : Wei) :
    Passes env L (onView (View.transfer env.store source target amount)) := by
  intro m
  have ht := View.transfer_meets env.store source target amount m.world.view
  unfold Meets at ht ⊢
  unfold onView
  split at ht
  · rename_i h
    simp only [h]
    obtain ⟨-, x, y, -, -, hs⟩ := ht
    exact .withView (congrArg Sight.code hs)
  · rename_i h
    simp only [h]
    obtain ⟨-, rfl | rfl⟩ := ht <;> exact Stop.decided_error _

theorem passes_bring (c : Call) : Passes env L (bring env c) := by
  unfold bring
  split_ifs
  · exact (passes_charge env L _ _).bind fun _ => passes_transfer env L _ _ _
  · exact passes_pure _

theorem passes_claim (address : Address) : Passes env L (claim env address) := by
  intro m
  refine meets_inspect ?_
  split_ifs
  · exact Meets.throw (Stop.decided_error _)
  · exact Machine.Onward.withView (congrArg Sight.code (View.sight_setNonce _ _ _ _))

theorem passes_endow (address : Address) (c : Creation) : Passes env L (endow env address c) := by
  unfold endow
  split_ifs
  · exact passes_transfer env L _ _ _
  · exact passes_pure _

end Exec

/-! ### Frames within bounds -/

/-- **The machine is within bounds**: its frame was given at most `G` gas and knows the
targets of its code, and no code that it sees has more than `L` bytes. -/
structure Machine.Within (env : Setting) (G L : Nat) (m : Machine) : Prop where
  gas : ∃ limit : Gas, m.gas.limit = .bounded limit ∧ limit.toNat ≤ G
  size : m.frame.code.size ≤ L
  targets : m.frame.targets = (Code.jumpTargets m.frame.code.toList).toArray
  codes : m.world.CodesWithin env L

namespace Machine.Within

variable {env : Setting} {G L : Nat} {m m' : Machine}

theorem onward (h : m.Within env G L) (ho : m.Onward env L m') : m'.Within env G L := by
  have hcode : m'.frame.code = m.frame.code := ho.code
  have htargets : m'.frame.targets = m.frame.targets := by
    show m'.frame.fixed.targets = m.frame.fixed.targets
    rw [ho.fixed]
  obtain ⟨limit, hlimit, hG⟩ := h.gas
  refine ⟨⟨limit, ho.limit.trans hlimit, hG⟩, ?_, ?_, ho.codes h.codes⟩
  · rw [hcode]
    exact h.size
  · rw [htargets, hcode]
    exact h.targets

/-- The frame is given its code. -/
theorem load {limit : Gas} (hl : m.gas.limit = .bounded limit) (hG : limit.toNat ≤ G)
    (hw : m.world.CodesWithin env L) {code : Bytes} (hc : code.length ≤ L) :
    Within env G L { m with frame := m.frame.load code } :=
  ⟨⟨limit, hl, hG⟩, hc, rfl, hw⟩

end Machine.Within

namespace Exec

variable {env : Setting} {G L : Nat} {body : Exec Exit}

/-- **The code ends**, on every machine within bounds at a depth: it is not cut off, and
leaves nothing behind that is too long. -/
def EndsAt (env : Setting) (G L depth : Nat) (body : Exec Exit) : Prop :=
  ∀ m, m.Within env G L → m.frame.depth = depth →
    Meets body m (fun exit m' => exit.output.length ≤ regionBound ∧ m'.world.CodesWithin env L)
      fun stop _ => stop.Decided

/-- A call that is entered ends if its code does. -/
theorem enterCall_ends {c : Call} {m : Machine} (hb : EndsAt env G L m.frame.depth body)
    {limit : Gas} (hl : m.gas.limit = .bounded limit) (hG : limit.toNat ≤ G)
    (hw : m.world.CodesWithin env L) :
    Meets (enterCall env body c) m (fun _ m' => m'.world.CodesWithin env L)
      fun stop _ => stop.Decided := by
  rw [enterCall_eq]
  refine (passes_charge env L _ _).before fun _ m₁ ho => ?_
  refine (passes_bring env L c).before fun _ m₂ ho' => ?_
  have ho := ho.trans ho'
  have hw := ho.codes hw
  refine meets_inspect ?_
  split_ifs
  · exact Meets.pure hw
  · have hin := Machine.Within.load (ho.limit.trans hl) hG hw (hw c.address)
    exact (hb _ hin ho.depth).mono (fun _ _ h => h.2) fun _ _ h => h

/-- A contract is given its code, if the code is not too long. -/
theorem deploy_ends {address : Address} {code : Bytes} {m : Machine} (hc : code.length ≤ L)
    (hw : m.world.CodesWithin env L) :
    Meets (deploy env address code) m (fun _ m' => m'.world.CodesWithin env L)
      fun stop _ => stop.Decided := by
  unfold deploy
  dsimp only
  split_ifs
  · exact Meets.bind (Meets.throw (Stop.decided_error _))
  · refine (passes_charge env L _ _).before fun _ m₁ ho => ?_
    intro a
    have hcode : (m₁.world.view.setCode env.store address code).codeAt env.store
        = Function.update (m₁.world.view.codeAt env.store) address code :=
      congrArg Sight.code (View.sight_setCode _ _ _ _)
    show ((m₁.world.view.setCode env.store address code).codeAt env.store a).length ≤ L
    rw [hcode, Function.update_apply]
    split_ifs
    · exact hc
    · exact ho.codes hw a

/-- A creation that is entered ends if its code does. -/
theorem enterCreation_ends {c : Creation} (address : Address) {m : Machine}
    (hb : EndsAt env G L m.frame.depth body) (hL : regionBound ≤ L) {limit : Gas}
    (hl : m.gas.limit = .bounded limit) (hG : limit.toNat ≤ G) (hc : c.initCode.length ≤ L)
    (hw : m.world.CodesWithin env L) :
    Meets (enterCreation env body address c) m (fun _ m' => m'.world.CodesWithin env L)
      fun stop _ => stop.Decided := by
  rw [enterCreation_eq]
  refine (passes_charge env L _ _).before fun _ m₁ ho₁ => ?_
  refine (passes_claim env L address).before fun _ m₂ ho₂ => ?_
  refine (passes_endow env L address c).before fun _ m₃ ho₃ => ?_
  have ho := ho₁.trans (ho₂.trans ho₃)
  have hin := Machine.Within.load (ho.limit.trans hl) hG (ho.codes hw) hc
  refine Meets.bind (Meets.bind ((hb _ hin ho.depth).mono ?_ fun _ _ h => h))
  rintro exit m₄ ⟨hshort, hw⟩
  cases exit with
  | reverted output => exact Meets.pure hw
  | returned code =>
    refine Meets.bind ((deploy_ends (hshort.trans hL) hw).mono ?_ fun _ _ h => h)
    exact fun _ _ h => Meets.pure h

end Exec

/-! ### Whole frames -/

section Frames

variable {env : Setting} {G L : Nat} {body : Exec Exit} {w : World}

/-- A frame that is left was not cut off, and codes stay within their bound. -/
theorem settle_ends {x : Exec Exit} {m : Machine} {v : View}
    (hx : Meets x m (fun _ m' => m'.world.CodesWithin env L) fun stop _ => stop.Decided)
    (hk : Meets x m (fun _ m' => View.Inside env.store v.checkpoint.2 m'.world.view)
      fun stop m' => Stop.OfFrame stop ∧
        ∀ e, stop = .error e → View.Inside env.store v.checkpoint.2 m'.world.view)
    (hw : ∀ a, (v.codeAt env.store a).length ≤ L) :
    settle v.checkpoint.1 (x m) ≠ .error .unfinished ∧
      ∀ r w', settle v.checkpoint.1 (x m) = .ok (r, w') → w'.CodesWithin env L := by
  refine ⟨fun hs => ?_, fun r w' hs => ?_⟩
  · obtain ⟨m', hm⟩ | hover := settle_abort hs
    · exact hx.of_error hm rfl
    · cases hover
  · obtain ⟨hfail, hend⟩ := (settle_cases hs).alike (fun exit m' hm => hk.of_ok hm)
      fun e m' hm => (hk.of_error hm).2 e rfl
    by_cases hr : r.error = none
    · obtain ⟨m', hm, halike⟩ := hend hr
      exact (hx.of_ok hm).of_eq (congrArg Sight.code halike.sight)
    · exact World.CodesWithin.of_eq (w := ⟨v, w'.ledger⟩) hw (congrArg Sight.code (hfail hr).sight)

theorem callWith_ends {c : Call} (hin : Exec.StaysInside env body)
    (hb : c.depth ≤ env.params.maxCallDepth.toNat → Exec.EndsAt env G L c.depth body)
    (hG : c.gas.toNat ≤ G) (hw : w.CodesWithin env L) :
    callWith env body c w ≠ .error .unfinished ∧
      ∀ r w', callWith env body c w = .ok (r, w') → w'.CodesWithin env L := by
  unfold callWith
  cases hr : refusal? env w c.caller c.value c.depth with
  | some e =>
    refine ⟨nofun, ?_⟩
    rintro r w' ⟨⟩
    exact hw
  | none =>
    have hcodes : (c.machine w).world.CodesWithin env L :=
      hw.of_eq (congrArg Sight.code (View.sight_checkpoint _ _))
    have hends := Exec.enterCall_ends (c := c) (m := c.machine w) (hb (refusal?_depth hr)) rfl hG
      hcodes
    exact settle_ends hends (Exec.enterCall_keeps (Steady.inside env) hin c (c.machine w)) hw

theorem createWith_ends {c : Creation} (hin : Exec.StaysInside env body)
    (hb : c.depth ≤ env.params.maxCallDepth.toNat → Exec.EndsAt env G L c.depth body)
    (hL : Exec.regionBound ≤ L) (hG : c.gas.toNat ≤ G) (hc : c.initCode.length ≤ L)
    (hw : w.CodesWithin env L) :
    createWith env body c w ≠ .error .unfinished ∧
      ∀ r w', createWith env body c w = .ok (r, w') → w'.CodesWithin env L := by
  unfold createWith
  cases hr : refusal? env w c.creator c.value c.depth with
  | some e =>
    refine ⟨nofun, ?_⟩
    rintro r w' ⟨⟩
    exact hw
  | none =>
    dsimp only
    cases hv : View.bumpNonce env.store c.creator w.view with
    | error stop view =>
      obtain ⟨rfl, -⟩ := View.bumpNonce_eq_error hv
      exact ⟨nofun, nofun⟩
    | ok _ view =>
      have hview : ∀ a, (view.codeAt env.store a).length ≤ L := by
        have hsame : view.codeAt env.store = w.view.codeAt env.store :=
          congrArg Sight.code (View.sight_bumpNonce hv)
        rw [hsame]
        exact hw
      have hcodes : (c.machine env w view).world.CodesWithin env L :=
        World.CodesWithin.of_eq (w := ⟨view, w.ledger⟩) hview
          (congrArg Sight.code (View.sight_checkpoint _ _))
      have hends := Exec.enterCreation_ends (c := c) (c.address env w) (m := c.machine env w view)
        (hb (refusal?_depth hr)) hL rfl hG hc hcodes
      obtain ⟨hcut, hok⟩ := settle_ends hends
        (Exec.enterCreation_keeps (Steady.inside env) hin (c.address env w) c
          (c.machine env w view)) hview
      dsimp only
      split
      · rename_i a hs
        refine ⟨fun h => hcut (hs.trans ?_), nofun⟩
        cases h
        rfl
      · rename_i r w' hs
        refine ⟨nofun, ?_⟩
        rintro _ _ ⟨⟩
        exact hok r w' hs

end Frames

end MeteredLedger
