import MeteredLedger.Proofs.Block.Admission
import MeteredLedger.Proofs.Gas.Tiers

/-!
# Creations and nonces

A creation that is admitted takes its creator to the next nonce, and does so outside of the scope
that its frame is left by. As long as there is a next nonce, the frame is entered on a view in which
nothing else has changed. An account at the largest nonce has none, and then the creation does not
hand back an error: it is abandoned (`createWith_of_overflows`), and so is every frame around it and
the transition. `Exec.Asks` follows the code as it runs, so that what it comes to ask for is met by
the run in enough steps (`Exec.Asks.run_faults`), and a transition returns exactly if its message
does not come to ask for such a creation (`aborts_iff_last_nonce`).
-/

namespace MeteredLedger

/-! ### Nonces -/

namespace View

variable {s : Store} {a : Address} {v : View}

/-- An account at the largest nonce has no next one. -/
theorem bumpNonce_of_last (h : (v.account s a).nonce.toNat + 1 = UInt64.size) :
    ∃ v', bumpNonce s a v = .error (.fault .nonceOverflow) v' := by
  have hlast : (v.account s a).bumpNonce = .error .nonceOverflow :=
    if_neg (Nat.not_lt_of_le h.ge)
  unfold bumpNonce
  simp only [touch_fst, hlast]
  exact ⟨_, rfl⟩

/-- Any other account has one, and nothing else changes. -/
theorem bumpNonce_of_lt (h : (v.account s a).nonce.toNat + 1 < UInt64.size) :
    ∃ v', bumpNonce s a v = .ok () v' ∧ v'.sight s = (v.sight s).putAccount a
      { v.account s a with nonce := (v.account s a).nonce + 1 } := by
  have hmeets := bumpNonce_meets s a v
  cases hv : bumpNonce s a v with
  | ok _ v' => exact ⟨v', rfl, (hmeets.of_ok hv).2.2⟩
  | error stop v' => exact absurd (bumpNonce_eq_error hv).2 h.ne

end View

/-! ### Frames that are abandoned -/

section

variable {env : Setting} {body : Exec Exit} {w : World}

/-- **An admitted creation by an account at the largest nonce is abandoned.** -/
theorem createWith_of_overflows {c : Creation} (h : c.Overflows env w) :
    createWith env body c w = .error (.fault .nonceOverflow) := by
  obtain ⟨hn, hlast⟩ := h
  obtain ⟨view, hv⟩ := View.bumpNonce_of_last hlast
  unfold createWith
  rw [hn]
  dsimp only
  rw [hv]
  rfl

end

/-! ### Runs that are abandoned -/

namespace Exec

variable {env : Setting} {body : Exec Exit} {m m₁ : Machine} {byte : UInt8} {a : Abort}

/-- A turn is abandoned with the frame that it calls. -/
theorem turn_of_call_abort {c : Call} {offset size : Nat}
    (asks : step env byte m = .ok (.call c offset size) m₁)
    (h : callWith env body c m₁.world = .error a) :
    turn env body byte m = .error (.abort a) m₁ := by
  unfold turn
  rw [bind_apply, asks]
  dsimp only
  rw [bind_apply, descend, h]

/-- A turn is abandoned with the creation that it asks for. -/
theorem turn_of_create_abort {c : Creation} (asks : step env byte m = .ok (.create c) m₁)
    (h : createWith env body c m₁.world = .error a) :
    turn env body byte m = .error (.abort a) m₁ := by
  unfold turn
  rw [bind_apply, asks]
  dsimp only
  rw [bind_apply, descend, h]

/-- The run is abandoned for a fault in so many steps, and in any more. -/
def FaultsIn (env : Setting) (f : Fault) (m : Machine) (enough : Nat) : Prop :=
  ∀ steps, enough ≤ steps → ∃ m', run env steps m = .error (.fault f) m'

/-- A run is abandoned in one step more than the turn that it begins with. -/
theorem faultsIn_succ {f : Fault} {enough : Nat} (next : m.frame.code[m.frame.pc]? = some byte)
    (h : ∀ steps, enough ≤ steps → ∃ m', turn env (run env steps) byte m = .error (.fault f) m') :
    FaultsIn env f m (enough + 1) := by
  intro steps hsteps
  obtain ⟨rest, rfl⟩ := Nat.exists_eq_add_of_le' hsteps
  obtain ⟨m', hturn⟩ := h (rest + enough) (Nat.le_add_left _ _)
  exact ⟨m', run_of_turn_error next hturn⟩

/-- **What code comes to ask for is met by its run**, in enough steps: if it is a creation by an
account at the largest nonce, the run is abandoned. -/
theorem Asks.run_faults {w : World} {c : Creation} (h : Asks env m w c) (hc : c.Overflows env w) :
    ∃ enough, FaultsIn env .nonceOverflow m enough := by
  induction h with
  | here next asks =>
    exact ⟨0 + 1, faultsIn_succ next fun steps _ =>
      ⟨_, turn_of_create_abort asks (createWith_of_overflows hc)⟩⟩
  | @later m m₁ byte steps w c next hturn rest ih =>
    obtain ⟨enough, hfaults⟩ := ih hc
    refine ⟨max enough steps + 1, fun more hmore => ?_⟩
    obtain ⟨rest, rfl⟩ := Nat.exists_eq_add_of_le' hmore
    -- the turn is the same with more steps for the frames below it
    have hsame : turn env (run env (rest + max enough steps)) byte m = .ok none m₁ := by
      have hle : steps ≤ rest + max enough steps := by omega
      have hends : ∀ m', turn env (run env steps) byte m ≠ .error (.abort .unfinished) m' := by
        rw [hturn]
        exact fun _ => nofun
      rw [turn_extends (run_extends env hle) byte m hends, hturn]
    obtain ⟨m', hm'⟩ := hfaults (rest + max enough steps) (by omega)
    exact ⟨m', (run_of_turn next hsame).trans hm'⟩
  | inCall next asks starts rest ih =>
    obtain ⟨enough, hfaults⟩ := ih hc
    refine ⟨enough + 1, faultsIn_succ next fun steps hsteps => ?_⟩
    obtain ⟨m', hm'⟩ := hfaults steps hsteps
    exact ⟨_, turn_of_call_abort asks (starts.abandons hm')⟩
  | inCreation next asks starts rest ih =>
    obtain ⟨enough, hfaults⟩ := ih hc
    refine ⟨enough + 1, faultsIn_succ next fun steps hsteps => ?_⟩
    obtain ⟨m', hm'⟩ := hfaults steps hsteps
    exact ⟨_, turn_of_create_abort asks (starts.abandons hm')⟩

end Exec

/-! ### Transitions that are abandoned -/

/-- **A message that comes to ask for a creation by an account at the largest nonce is
abandoned**, or cut off before. -/
theorem Engine.RunsCode.run_of_overflows {params : Params} {e : Engine} (he : e.RunsCode params)
    {context : Context} {store : Store} {m : Message} {gas : Gas} {w : World}
    (h : m.Overflows ⟨params, context, store⟩ gas w .nonceOverflow) :
    e.run context store m gas w = .error .unfinished ∨
      e.run context store m gas w = .error (.fault .nonceOverflow) := by
  obtain ⟨-, w', c, hasks, hover⟩ := h
  cases hasks with
  | @itself sender value initCode _ =>
    obtain ⟨steps, heq⟩ := he.create context store ⟨sender, initCode, gas, value, 0⟩ w
    exact .inr (heq.trans (createWith_of_overflows hover))
  | @inCall sender recipient value payload _ _ _ _ starts rest =>
    obtain ⟨enough, hfaults⟩ := rest.run_faults hover
    obtain ⟨steps, heq⟩ := he.call context store ⟨sender, recipient, payload, gas, value, 0⟩ w
    obtain ⟨m', hm'⟩ := hfaults (max steps enough) (le_max_right _ _)
    refine Or.imp heq.trans heq.trans (or_iff_not_imp_left.2 fun hcut => ?_)
    rw [← callIn_of_le (le_max_left steps enough) hcut]
    exact starts.abandons hm'
  | @inCreation sender value initCode _ _ _ _ starts rest =>
    obtain ⟨enough, hfaults⟩ := rest.run_faults hover
    obtain ⟨steps, heq⟩ := he.create context store ⟨sender, initCode, gas, value, 0⟩ w
    obtain ⟨m', hm'⟩ := hfaults (max steps enough) (le_max_right _ _)
    refine Or.imp heq.trans heq.trans (or_iff_not_imp_left.2 fun hcut => ?_)
    rw [← createIn_of_le (le_max_left steps enough) hcut]
    exact starts.abandons hm'

namespace Processor

variable {p : Processor} {m : Message} {a : Ambient}

/-- The message comes to ask for a creation by an account at the largest nonce, as a transition. -/
def AsksBeyond (p : Processor) (m : Message) (a : Ambient) : Prop :=
  m.Overflows (p.settingOf m a) (Grant.ofMeter a.meter m.gasLimit).gas
    ⟨startView a, .untracked⟩ .nonceOverflow

theorem execute_of_asksBeyond (he : p.engine.RunsCode p.params) (h : p.AsksBeyond m a) :
    p.execute m a = .error .unfinished ∨ p.execute m a = .error (.fault .nonceOverflow) :=
  (he.run_of_overflows h).imp execute_of_run_error execute_of_run_error

end Processor

open Processor in
/-- **A transition is abandoned for its nonces exactly if it asks for one beyond the largest.** A
creation that is refused hands back an error and changes nothing. One that is admitted is entered,
in whatever number of steps, on a view in which the creator is at the next nonce and all else is as
it was, unless the creator is at the largest nonce: then it is abandoned. A transition whose message
comes to ask for such a creation, at any depth, never returns; where every jump costs gas, every
other one does. -/
theorem aborts_iff_last_nonce (params : Params) :
    (Engine.machine params).RunsCode params ∧
    (∀ env : Setting, env.params = params → ∀ steps c w,
      (∀ e, refusal? env w c.creator c.value c.depth = some e →
        createIn steps env c w = .ok (.refused c.gas e, w)) ∧
      (refusal? env w c.creator c.value c.depth = none →
        ((w.view.account env.store c.creator).nonce.toNat + 1 < UInt64.size → ∃ view,
          view.sight env.store = (w.view.sight env.store).putAccount c.creator
            { w.view.account env.store c.creator with
              nonce := (w.view.account env.store c.creator).nonce + 1 } ∧
          createIn steps env c w = (settle view.checkpoint.1
              (Exec.enterCreation env (Exec.run env steps) (c.address env w) c
                (c.machine env w view))).map
            (Prod.map (FrameResult.named (c.address env w)) id)) ∧
        ((w.view.account env.store c.creator).nonce.toNat + 1 = UInt64.size →
          createIn steps env c w = .error (.fault .nonceOverflow)))) ∧
    (∀ e : Engine, e.RunsCode params → ∀ m a, AsksBeyond ⟨params, e⟩ m a →
      ∀ t a', execute ⟨params, e⟩ m a ≠ .ok (t, a')) ∧
    (params.maxCallDepth.toNat + 1 < UInt64.size → params.JumpsCost →
      ∀ m a, a.meter.Balanced →
        ((ofParams params).execute m a = .error (.fault .nonceOverflow) ↔
          (ofParams params).AsksBeyond m a) ∧
        ((∃ t a', (ofParams params).execute m a = .ok (t, a')) ↔
          ¬(ofParams params).AsksBeyond m a)) := by
  refine ⟨Engine.runsCode_machine params, fun env _ steps c w => ⟨fun e => createWith_of_refused,
    fun hn => ⟨fun hlt => ?_, fun hlast => createWith_of_overflows ⟨hn, hlast⟩⟩⟩,
    fun e he m a h t a' hok => ?_, fun hd hj m a hbalanced => ?_⟩
  · obtain ⟨view, hv, hsight⟩ := View.bumpNonce_of_lt hlt
    exact ⟨view, hsight, createWith_of_bumped hn hv⟩
  · obtain hcut | hfault := execute_of_asksBeyond (p := ⟨params, e⟩) he h
    · cases hcut.symm.trans hok
    · cases hfault.symm.trans hok
  · have habort : ∀ f, (ofParams params).execute m a = .error f →
        f = .fault .nonceOverflow ∧ (ofParams params).AsksBeyond m a := by
      intro f hf
      cases f with
      | fault f =>
        have hover := (execute_fault (Engine.runsCode_machine params) hbalanced hf).resolve_right
          fun hdeep => hd.ne hdeep.2
        obtain rfl := hover.1
        exact ⟨rfl, hover⟩
      | unfinished => exact absurd hf (execute_ends hj hbalanced)
    have hfaults : (ofParams params).AsksBeyond m a →
        (ofParams params).execute m a = .error (.fault .nonceOverflow) := by
      intro h
      obtain hcut | hfault := execute_of_asksBeyond (Engine.runsCode_machine params) h
      · cases (habort _ hcut).1
      · exact hfault
    refine ⟨⟨fun hf => (habort _ hf).2, hfaults⟩, ⟨?_, fun hn => ?_⟩⟩
    · rintro ⟨t, a', hok⟩ h
      cases (hfaults h).symm.trans hok
    · cases hx : (ofParams params).execute m a with
      | ok answer => exact ⟨answer.1, answer.2, rfl⟩
      | error f => exact absurd (habort f hx).2 hn

/-! ### Creators at their first and at their last nonce -/

namespace LastNonce

/-- Moves value, and asks for no contract. -/
def pays : Message := .invoke ⟨1⟩ ⟨3⟩ 10 [] 100000

/-- Makes a contract for an account that has a next nonce. -/
def first : Creation := ⟨⟨1⟩, [], 100000, 10, 0⟩

/-- Makes a contract for the account that has none. -/
def last : Creation := ⟨⟨2⟩, [], 100000, 0, 0⟩

/-- The world that the transition starts in. -/
def world : World := ⟨Processor.startView ambient, .untracked⟩

end LastNonce

open LastNonce in
/-- A creation by an account at nonce 0 takes it to nonce 1. A message that makes no contract
returns, and a call of code that asks for one by an account at the largest nonce does not. -/
theorem aborts_iff_last_nonce_both :
    let env := (Processor.ofParams .standard).settingOf pays ambient
    Params.standard.maxCallDepth.toNat + 1 < UInt64.size ∧ Params.standard.JumpsCost ∧
    ambient.meter.Balanced ∧
    refusal? env world first.creator first.value first.depth = none ∧
    (∃ view, (view.account env.store ⟨1⟩).nonce = 1 ∧
      createIn 10 env first world = (settle view.checkpoint.1
        (Exec.enterCreation env (Exec.run env 10) (first.address env world) first
          (first.machine env world view))).map
        (Prod.map (FrameResult.named (first.address env world)) id)) ∧
    (∃ t a', (Processor.ofParams .standard).execute pays ambient = .ok (t, a')) ∧
    ¬(Processor.ofParams .standard).AsksBeyond pays ambient ∧
    (Processor.ofParams .standard).AsksBeyond calls ambient ∧
    ¬∃ t a', (Processor.ofParams .standard).execute calls ambient = .ok (t, a') := by
  intro env
  have hdepth : Params.standard.maxCallDepth.toNat + 1 < UInt64.size := by decide
  have hjumps : Params.standard.JumpsCost := by decide
  have hbalanced : ambient.meter.Balanced := Meter.balanced_fresh _
  have hadmitted : refusal? env world first.creator first.value first.depth = none := by
    decide +kernel
  have hnonce : (world.view.account env.store first.creator).nonce = 0 := by decide +kernel
  have hpaid : ((Processor.ofParams .standard).execute pays ambient).toOption.bind
      (fun e => some e.1.isSuccess) = some true := by decide +kernel
  have hcalled : (Processor.ofParams .standard).execute calls ambient
      = .error (.fault .nonceOverflow) := eq_of_faultOf (by decide +kernel)
  obtain ⟨⟨t, a'⟩, ht, -⟩ := exists_of_read hpaid
  obtain ⟨-, hcreations, hnever, hlaw⟩ := aborts_iff_last_nonce .standard
  obtain ⟨view, hsight, hentered⟩ := ((hcreations env rfl 10 first world).2 hadmitted).1
    (by rw [hnonce]; decide)
  have hview : (view.account env.store ⟨1⟩).nonce = 1 := by
    have haccount := congrFun (congrArg Sight.account hsight) ⟨1⟩
    rw [View.sight_account] at haccount
    rw [haccount, Sight.putAccount_account, show first.creator = ⟨1⟩ from rfl,
      Function.update_self, show (world.view.account env.store ⟨1⟩).nonce = 0 from hnonce]
    rfl
  have hreturns := (hlaw hdepth hjumps pays ambient hbalanced).2
  have hbeyond := ((hlaw hdepth hjumps calls ambient hbalanced).1).1 hcalled
  refine ⟨hdepth, hjumps, hbalanced, hadmitted, ⟨view, hview, hentered⟩, ⟨t, a', ht⟩,
    hreturns.1 ⟨t, a', ht⟩, hbeyond, ?_⟩
  rintro ⟨t', a'', hok⟩
  exact hnever (.machine .standard) (Engine.runsCode_machine .standard) calls ambient hbeyond t' a''
    hok

open LastNonce in
/-- **Not every creation hands back a result**: one by an account at the largest nonce, which holds
the value and does not nest too deep, is abandoned in whatever number of steps, and a transition
that makes one does not return. -/
theorem creation_not_total :
    let env := (Processor.ofParams .standard).settingOf creates ambient
    (world.view.account env.store ⟨2⟩).nonce = 0xffffffffffffffff ∧
    refusal? env world last.creator last.value last.depth = none ∧
    (¬∃ steps r w, createIn steps env last world = .ok (r, w)) ∧
    ¬∃ t a', (Processor.ofParams .standard).execute creates ambient = .ok (t, a') := by
  have hover : last.Overflows ((Processor.ofParams .standard).settingOf creates ambient) world :=
    ⟨by decide +kernel, by decide +kernel⟩
  have hcreated : (Processor.ofParams .standard).execute creates ambient
      = .error (.fault .nonceOverflow) := eq_of_faultOf (by decide +kernel)
  refine ⟨by decide +kernel, hover.1, ?_, ?_⟩
  · rintro ⟨steps, r, w, hok⟩
    cases (createWith_of_overflows hover).symm.trans hok
  · rintro ⟨t, a', hok⟩
    cases hcreated.symm.trans hok

end MeteredLedger
