import MeteredLedger.Proofs.Machine.Runs
import MeteredLedger.Proofs.Machine.Safety

/-!
# What a frame can be abandoned for

No instruction meets a fault, and neither does entering or leaving a frame, but for two things:
the creator of a contract goes to its next nonce, and may have none; and where frames may nest to
the largest number (`Params.Bottomless`), the frame below may have none for its depth. So where they
may not, a run that meets a fault has come to ask for a creation by an account at the largest nonce.
`Exec.Asks` says exactly when code comes to ask for a creation: with its next instruction, after a
turn of its own, or in a frame that it enters.
-/

namespace MeteredLedger

namespace Exec

/-! ### Turns

A run takes turns, and a frame is entered in two parts: it is made ready, and then its code
runs. -/

/-- A turn of a run: one instruction, and what it asks for. How the frame ends, if it does. -/
def turn (env : Setting) (body : Exec Exit) (byte : UInt8) : Exec (Option Exit) := do
  match ← step env byte with
  | .exit how => return some how
  | .jumped => return none
  | .next => do
    advance
    return none
  | .call c offset size => do
    resumeCall offset size (← descend (callWith env body c))
    advance
    return none
  | .create c => do
    resumeCreation (← descend (createWith env body c))
    advance
    return none

theorem run_succ (env : Setting) (steps : Nat) : run env (steps + 1) = (do
    match ← inspect fun m => m.frame.code[m.frame.pc]? with
    | none => return .returned []
    | some byte =>
      match ← turn env (run env steps) byte with
      | some how => return how
      | none => run env steps) := by
  rw [run]
  refine bind_congr fun next => ?_
  cases next with
  | none => rfl
  | some byte =>
    simp only [turn, bind_assoc]
    refine bind_congr fun ctl => ?_
    cases ctl <;> simp only [bind_assoc, pure_bind]

section

variable {env : Setting} {body : Exec Exit} {steps : Nat} {m m₁ : Machine} {byte : UInt8}

/-- A run stops where its turn does. -/
theorem run_of_turn_error {stop : Stop} (next : m.frame.code[m.frame.pc]? = some byte)
    (h : turn env (run env steps) byte m = .error stop m₁) :
    run env (steps + 1) m = .error stop m₁ := by
  rw [run_succ, bind_apply, inspect, next]
  dsimp only
  rw [bind_apply, h]

/-- A run goes on where its turn has led. -/
theorem run_of_turn (next : m.frame.code[m.frame.pc]? = some byte)
    (h : turn env (run env steps) byte m = .ok none m₁) :
    run env (steps + 1) m = run env steps m₁ := by
  rw [run_succ, bind_apply, inspect, next]
  dsimp only
  rw [bind_apply, h]

/-- A turn goes on to the next instruction. -/
theorem turn_of_next (h : step env byte m = .ok .next m₁) : turn env body byte m
    = .ok none { m₁ with frame := { m₁.frame with pc := m₁.frame.pc + 1 } } := by
  unfold turn
  rw [bind_apply, h]
  rfl

/-- A turn goes on where the instruction has jumped to. -/
theorem turn_of_jumped (h : step env byte m = .ok .jumped m₁) :
    turn env body byte m = .ok none m₁ := by
  unfold turn
  rw [bind_apply, h]
  rfl

end

/-- Makes the frame of a call ready, and tells whether there is code to run. -/
def openCall (env : Setting) (c : Call) : Exec Bool := do
  charge env.params.effects.call "call"
  bring env c
  let code ← inspect fun m => m.world.view.codeAt env.store c.address
  if code.isEmpty then return false else do
    modifyFrame (·.load code)
    return true

theorem enterCall_eq_open (env : Setting) (body : Exec Exit) (c : Call) :
    enterCall env body c = (do
      match ← openCall env c with
      | true => body
      | false => return .returned []) := by
  rw [enterCall_eq]
  simp only [openCall, runCode, bind_assoc]
  refine bind_congr fun _ => bind_congr fun _ => bind_congr fun code => ?_
  split_ifs <;> simp only [bind_assoc, pure_bind]

/-- A call without value comes to the code of its account once it has been paid for. -/
theorem openCall_of_paid {env : Setting} {c : Call} {m : Machine} {gas : Meter} {code : Bytes}
    (paid : m.gas.consume env.params.effects.call "call" = .ok gas) (hvalue : c.value = 0)
    (hcode : m.world.view.codeAt env.store c.address = code) (hne : code.isEmpty = false) :
    openCall env c m = .ok true
      { m.charged gas env.params.effects.call "call" with frame := m.frame.load code } := by
  have hcharge : charge env.params.effects.call "call" m
      = .ok () (m.charged gas env.params.effects.call "call") := by
    rw [charge, paid]
    rfl
  have hnothing : ¬ 0 < c.value := by
    rw [hvalue]
    decide
  have hshown : (m.charged gas env.params.effects.call "call").world.view.codeAt env.store c.address
      = code := hcode
  unfold openCall
  rw [bind_apply, hcharge]
  simp only [bind_apply, bring, inspect]
  rw [if_neg hnothing]
  dsimp only [pure, EStateM.pure]
  rw [hshown, hne]
  rfl

/-- Makes the frame of a creation ready. -/
def openCreation (env : Setting) (address : Address) (c : Creation) : Exec Unit := do
  charge env.params.effects.create "create"
  claim env address
  endow env address c
  modifyFrame (·.load c.initCode)

/-- Ends the frame of a creation: what it has returned is the code of the contract. -/
def closeCreation (env : Setting) (address : Address) : Exit → Exec Exit
  | .returned code => do
    deploy env address code
    return .returned code
  | .reverted output => return .reverted output

theorem enterCreation_eq_open (env : Setting) (body : Exec Exit) (address : Address)
    (c : Creation) : enterCreation env body address c = (do
      openCreation env address c
      closeCreation env address (← body)) := by
  rw [enterCreation_eq]
  simp only [openCreation, construct, bind_assoc]
  refine bind_congr fun _ => bind_congr fun _ => bind_congr fun _ => bind_congr fun _ =>
    bind_congr fun exit => ?_
  cases exit <;> rfl

end Exec

/-! ### Creations that are asked for -/

/-- **Frames may nest to the largest number**, below which a depth has none. -/
def Params.Bottomless (params : Params) : Prop := params.maxCallDepth.toNat + 1 = UInt64.size

theorem Params.bottomless_of_le {params : Params}
    (h : UInt64.size ≤ params.maxCallDepth.toNat + 1) : params.Bottomless :=
  Nat.le_antisymm params.maxCallDepth.toNat_lt h

/-- A call starts its code on a machine. -/
def Call.Starts (env : Setting) (c : Call) (w : World) (m : Machine) : Prop :=
  refusal? env w c.caller c.value c.depth = none ∧
    Exec.openCall env c (c.machine w) = .ok true m

/-- A creation starts its code on a machine. -/
def Creation.Starts (env : Setting) (c : Creation) (w : World) (m : Machine) : Prop :=
  refusal? env w c.creator c.value c.depth = none ∧
    ∃ view, View.bumpNonce env.store c.creator w.view = .ok () view ∧
      Exec.openCreation env (c.address env w) c (c.machine env w view) = .ok () m

section

variable {env : Setting} {body : Exec Exit} {w : World} {m : Machine} {a : Abort}

/-- A call is abandoned with the code that it starts. -/
theorem Call.Starts.abandons {c : Call} (h : c.Starts env w m) {m' : Machine}
    (hb : body m = .error (.abort a) m') : callWith env body c w = .error a := by
  obtain ⟨hn, hopen⟩ := h
  have henter : Exec.enterCall env body c (c.machine w) = .error (.abort a) m' := by
    rw [Exec.enterCall_eq_open, bind_apply, hopen]
    exact hb
  unfold callWith
  rw [hn]
  exact congrArg (settle _) henter

/-- A creation is abandoned with the code that it starts. -/
theorem Creation.Starts.abandons {c : Creation} (h : c.Starts env w m) {m' : Machine}
    (hb : body m = .error (.abort a) m') : createWith env body c w = .error a := by
  obtain ⟨hn, view, hv, hopen⟩ := h
  have henter : Exec.enterCreation env body (c.address env w) c (c.machine env w view)
      = .error (.abort a) m' := by
    rw [Exec.enterCreation_eq_open, bind_apply, hopen]
    dsimp only
    rw [bind_apply, hb]
  rw [createWith_of_bumped hn hv, henter]
  rfl

end

/-- **The code on a machine comes to ask for a creation in a world.** -/
inductive Exec.Asks (env : Setting) : Machine → World → Creation → Prop where
  /-- Its next instruction does. -/
  | here {m m₁ : Machine} {byte : UInt8} {c : Creation}
      (next : m.frame.code[m.frame.pc]? = some byte)
      (asks : Exec.step env byte m = .ok (.create c) m₁) : Asks env m m₁.world c
  /-- It does after a turn. -/
  | later {m m₁ : Machine} {byte : UInt8} {steps : Nat} {w : World} {c : Creation}
      (next : m.frame.code[m.frame.pc]? = some byte)
      (turn : Exec.turn env (Exec.run env steps) byte m = .ok none m₁)
      (rest : Asks env m₁ w c) : Asks env m w c
  /-- Code that it calls does. -/
  | inCall {m m₁ m₂ : Machine} {byte : UInt8} {c₁ : Call} {offset size : Nat} {w : World}
      {c : Creation} (next : m.frame.code[m.frame.pc]? = some byte)
      (asks : Exec.step env byte m = .ok (.call c₁ offset size) m₁)
      (starts : c₁.Starts env m₁.world m₂) (rest : Asks env m₂ w c) : Asks env m w c
  /-- Code that makes a contract for it does. -/
  | inCreation {m m₁ m₂ : Machine} {byte : UInt8} {c₁ : Creation} {w : World} {c : Creation}
      (next : m.frame.code[m.frame.pc]? = some byte)
      (asks : Exec.step env byte m = .ok (.create c₁) m₁)
      (starts : c₁.Starts env m₁.world m₂) (rest : Asks env m₂ w c) : Asks env m w c

/-- The creation is admitted, and its creator is at the largest nonce. -/
def Creation.Overflows (env : Setting) (c : Creation) (w : World) : Prop :=
  refusal? env w c.creator c.value c.depth = none ∧
    (w.view.account env.store c.creator).nonce.toNat + 1 = UInt64.size

namespace Exec

/-- **The fault is a nonce that overflows**, in a creation that the code comes to ask for. -/
def Overflows (env : Setting) (m : Machine) (f : Fault) : Prop :=
  f = .nonceOverflow ∧ ∃ w c, Asks env m w c ∧ c.Overflows env w

/-- How an action stops that meets only faults of a kind, but for a depth without a number below
it, its gas still adding up. -/
structure HaltsFor (env : Setting) (P : Fault → Prop) (stop : Stop) (m : Machine) : Prop where
  balanced : m.gas.Balanced
  cause : ∀ f, stop = .fault f → P f ∨ f = .depthOverflow ∧ env.params.Bottomless

/-- The machine is sound in a setting: no deeper than the setting lets frames nest. -/
abbrev SoundIn (env : Setting) (m : Machine) : Prop := m.Sound env.params.maxCallDepth.toNat

/-- The action is safe in a setting. -/
abbrev SafeIn {α : Type} (env : Setting) (n : Nat) (x : Exec α) : Prop :=
  Safe env.params.maxCallDepth.toNat n x

/-- **The code withstands everything but nonces that overflow**, and a depth without a number
below it, on a sound machine. -/
def Withstands (env : Setting) (body : Exec Exit) : Prop :=
  ∀ m, SoundIn env m → Meets body m (fun _ m' => SoundIn env m') (HaltsFor env (Overflows env m))

variable {env : Setting} {body : Exec Exit}

/-- An action that stops as it may on a sound machine meets no fault of a kind. -/
theorem HaltsFor.of_fails {P : Fault → Prop} {stop : Stop} {m : Machine}
    (h : FailsSound env.params.maxCallDepth.toNat stop m) : HaltsFor env P stop m := by
  refine ⟨h.sound.balanced, ?_⟩
  rintro f rfl
  obtain ⟨e, he⟩ | ⟨hf, hdeep⟩ := h.cause
  · cases he
  · cases hf
    exact .inr ⟨rfl, Params.bottomless_of_le hdeep⟩

theorem HaltsFor.imp {P P' : Fault → Prop} {stop : Stop} {m : Machine} (h : HaltsFor env P stop m)
    (hP : ∀ f, P f → P' f) : HaltsFor env P' stop m :=
  ⟨h.balanced, fun f hf => (h.cause f hf).imp_left (hP f)⟩

/-! ### Entering a frame

No part of it meets a fault but the code that it runs. -/

section

variable {n : Nat}

theorem safe_transfer (source target : Address) (amount : Wei) :
    SafeIn env n (onView (View.transfer env.store source target amount)) := by
  intro m hm hn
  have ht := View.transfer_meets env.store source target amount m.world.view
  unfold Meets at ht ⊢
  unfold onView
  split at ht
  · rename_i h
    simp only [h]
    exact ⟨⟨hm.balanced, hm.depth⟩, hn, trivial⟩
  · rename_i h
    simp only [h]
    obtain ⟨-, rfl | rfl⟩ := ht
    · exact ⟨.inl ⟨_, rfl⟩, hm.balanced, hm.depth⟩
    · exact ⟨.inl ⟨_, rfl⟩, hm.balanced, hm.depth⟩

theorem safe_bring (c : Call) : SafeIn env n (bring env c) := by
  unfold bring
  split_ifs
  · exact (safe_charge _ _).bind fun _ => safe_transfer _ _ _
  · exact safe_pure _

theorem safe_openCall (c : Call) : SafeIn env n (openCall env c) := by
  refine (safe_charge _ _).bind fun _ => (safe_bring c).bind fun _ =>
    (safe_inspect _).bind fun code => ?_
  split_ifs
  · exact safe_pure _
  · intro m hm hn
    exact ⟨hm.withFrame rfl, hn, trivial⟩

theorem safe_claim (address : Address) : SafeIn env n (claim env address) := by
  refine (safe_inspect _).bind fun existing => ?_
  split_ifs
  · exact safe_fail _
  · exact safe_modifyView _

theorem safe_openCreation (address : Address) (c : Creation) :
    SafeIn env n (openCreation env address c) := by
  refine (safe_charge _ _).bind fun _ => (safe_claim address).bind fun _ => Safe.bind ?_ fun _ => ?_
  · unfold endow
    split_ifs
    · exact safe_transfer _ _ _
    · exact safe_pure _
  · intro m hm hn
    exact ⟨hm.withFrame rfl, hn, trivial⟩

theorem safe_closeCreation (address : Address) (exit : Exit) :
    SafeIn env n (closeCreation env address exit) := by
  cases exit with
  | reverted output => exact safe_pure _
  | returned code =>
    refine Safe.bind ?_ fun _ => safe_pure _
    unfold deploy
    dsimp only
    split_ifs
    · exact Safe.bind (safe_fail _) fun _ => (safe_charge _ _).bind fun _ => safe_modifyView _
    · exact (safe_charge _ _).bind fun _ => safe_modifyView _

end

/-- A call that is entered is abandoned only if the code is that it starts. -/
theorem enterCall_withstands (hb : Withstands env body) (c : Call) {m : Machine}
    (hm : SoundIn env m) :
    Meets (enterCall env body c) m (fun _ m' => SoundIn env m')
      (HaltsFor env fun f => ∃ m₁, openCall env c m = .ok true m₁ ∧ Overflows env m₁ f) := by
  rw [enterCall_eq_open]
  refine Meets.bind ((safe_openCall c m hm (Nat.zero_le _)).remember.mono ?_ ?_)
  · rintro hasCode m₁ ⟨hopen, hm₁, -⟩
    cases hasCode with
    | false => exact Meets.pure hm₁
    | true =>
      exact (hb m₁ hm₁).mono (fun _ _ h => h) fun _ _ h => h.imp fun _ hf => ⟨m₁, hopen, hf⟩
  · rintro stop m' ⟨-, h⟩
    exact .of_fails h

/-- A creation that is entered is abandoned only if the code is that it starts. -/
theorem enterCreation_withstands (hb : Withstands env body) (address : Address) (c : Creation)
    {m : Machine} (hm : SoundIn env m) :
    Meets (enterCreation env body address c) m (fun _ m' => SoundIn env m')
      (HaltsFor env fun f => ∃ m₁, openCreation env address c m = .ok () m₁ ∧
        Overflows env m₁ f) := by
  rw [enterCreation_eq_open]
  refine Meets.bind ((safe_openCreation address c m hm (Nat.zero_le _)).remember.mono ?_ ?_)
  · rintro _ m₁ ⟨hopen, hm₁, -⟩
    refine Meets.bind ((hb m₁ hm₁).mono ?_ ?_)
    · intro exit m₂ hm₂
      exact (safe_closeCreation address exit m₂ hm₂ (Nat.zero_le _)).mono (fun _ _ h => h.1)
        fun _ _ h => .of_fails h
    · exact fun _ _ h => h.imp fun _ hf => ⟨m₁, hopen, hf⟩
  · rintro stop m' ⟨-, h⟩
    exact .of_fails h

end Exec

/-- An account has no next nonce only at the largest one. -/
theorem View.bumpNonce_eq_error {s : Store} {a : Address} {v v' : View} {stop : Stop}
    (h : bumpNonce s a v = .error stop v') :
    stop = .fault .nonceOverflow ∧ (v.account s a).nonce.toNat + 1 = UInt64.size := by
  have hlt := (v.account s a).nonce.toNat_lt
  unfold bumpNonce Account.bumpNonce at h
  simp only [touch_fst] at h
  split_ifs at h with hroom
  cases h
  exact ⟨rfl, Nat.le_antisymm hlt (Nat.le_of_not_lt hroom)⟩

/-! ### What a frame hands back -/

/-- The gas of the frame has the same limit. -/
def Machine.SameLimit (m m' : Machine) : Prop := m'.gas.limit = m.gas.limit

theorem Machine.SameLimit.steady (env : Setting) : Steady env Machine.SameLimit where
  refl _ := rfl
  trans _ _ _ h h' := Eq.trans h' h
  frame _ _ := rfl
  pay h := (Meter.consume_eq_ok h).1
  view _ := rfl

/-- No frame hands back more gas than it was given. -/
theorem Settled.left_le {gas : Gas} {mark : View.Mark} {r : FrameResult} {w : World}
    {result : EStateM.Result Stop Machine Exit} (h : Settled mark result r w)
    (ok : ∀ exit m, result = .ok exit m → m.gas.limit = .bounded gas)
    (error : ∀ e m, result = .error (.error e) m → m.gas.limit = .bounded gas) :
    r.gasRemaining ≤ gas := by
  have left : ∀ m : Machine, m.gas.limit = .bounded gas → m.gas.remaining ≤ gas := by
    intro m hl
    rw [UInt64.le_iff_toNat_le, Meter.toNat_remaining hl]
    exact Nat.sub_le _ _
  cases h with
  | returned output m => exact left m (ok _ m rfl)
  | reverted output m => exact left m (ok _ m rfl)
  | burnt he hg =>
    rw [UInt64.le_iff_toNat_le]
    exact (Meter.toNat_remaining_burn hg (error _ _ rfl)).trans_le (Nat.zero_le _)
  | kept he => exact left _ (error _ _ rfl)

section Frames

variable {env : Setting} {body : Exec Exit} {w w' : World} {r : FrameResult}

theorem callWith_left_le (hb : Exec.Keeps Stop.OfCode Machine.SameLimit body) {c : Call}
    (h : callWith env body c w = .ok (r, w')) : r.gasRemaining ≤ c.gas := by
  obtain ⟨e, -, rfl, -⟩ | ⟨-, hs⟩ := callWith_cases h
  · exact UInt64.le_refl _
  · have hk := Exec.enterCall_keeps (Machine.SameLimit.steady env) hb c (c.machine w)
    exact hs.left_le (fun exit m hm => hk.of_ok hm) fun e m hm => (hk.of_error hm).2 e rfl

theorem createWith_left_le (hb : Exec.Keeps Stop.OfCode Machine.SameLimit body) {c : Creation}
    (h : createWith env body c w = .ok (r, w')) : r.gasRemaining ≤ c.gas := by
  obtain ⟨e, -, rfl, -⟩ | ⟨-, view, r', -, hs, rfl⟩ := createWith_cases h
  · exact UInt64.le_refl _
  · have hk := Exec.enterCreation_keeps (Machine.SameLimit.steady env) hb (c.address env w) c
      (c.machine env w view)
    exact hs.left_le (fun exit m hm => hk.of_ok hm) fun e m hm => (hk.of_error hm).2 e rfl

/-- Leaving a frame whose gas adds up meets no fault of its own. -/
theorem settle_of_balanced {mark : View.Mark} {result : EStateM.Result Stop Machine Exit}
    {f : Fault} (hg : ∀ e m, result = .error (.error e) m → m.gas.Balanced)
    (h : settle mark result = .error (.fault f)) : ∃ m, result = .error (.fault f) m := by
  unfold settle at h
  split at h
  · cases h
  · cases h
  · rename_i e m
    dsimp only at h
    split_ifs at h
    obtain ⟨gas, hburn⟩ := (hg e m rfl).burn "exhausted"
    rw [hburn] at h
    cases h
  · rename_i m
    cases h
    exact ⟨m, rfl⟩

/-- A frame that is admitted does not nest too deep. -/
theorem refusal?_depth {payer : Address} {value : Wei} {depth : Nat}
    (h : refusal? env w payer value depth = none) : depth ≤ env.params.maxCallDepth.toNat := by
  unfold refusal? at h
  split_ifs at h with hdeep
  exact Nat.le_of_not_lt hdeep

/-- **A call meets a fault** only if its code does, or a depth has no number below it. -/
theorem callWith_faults (hb : Exec.Withstands env body) {c : Call} {f : Fault}
    (h : callWith env body c w = .error (.fault f)) :
    (∃ m, c.Starts env w m ∧ Exec.Overflows env m f) ∨
      f = .depthOverflow ∧ env.params.Bottomless := by
  unfold callWith at h
  split at h
  · cases h
  · rename_i hn
    have hm : Exec.SoundIn env (c.machine w) := ⟨Meter.balanced_fresh _, refusal?_depth hn⟩
    have henter := Exec.enterCall_withstands hb c hm
    obtain ⟨m', hm'⟩ := settle_of_balanced (fun e m he => (henter.of_error he).balanced) h
    refine ((henter.of_error hm').cause f rfl).imp_left ?_
    rintro ⟨m, hopen, hover⟩
    exact ⟨m, ⟨hn, hopen⟩, hover⟩

/-- **A creation meets a fault** only if the nonce of its creator overflows, or its code
does, or a depth has no number below it. -/
theorem createWith_faults (hb : Exec.Withstands env body) {c : Creation} {f : Fault}
    (h : createWith env body c w = .error (.fault f)) :
    ((f = .nonceOverflow ∧ c.Overflows env w) ∨
        ∃ m, c.Starts env w m ∧ Exec.Overflows env m f) ∨
      f = .depthOverflow ∧ env.params.Bottomless := by
  unfold createWith at h
  split at h
  · cases h
  · rename_i hn
    dsimp only at h
    split at h
    · rename_i a view hv
      obtain ⟨hstop, hnonce⟩ := View.bumpNonce_eq_error hv
      cases h
      cases hstop
      exact .inl (.inl ⟨rfl, hn, hnonce⟩)
    · cases h
    · rename_i view hv
      have hm : Exec.SoundIn env (c.machine env w view) :=
        ⟨Meter.balanced_fresh _, refusal?_depth hn⟩
      have henter := Exec.enterCreation_withstands hb (c.address env w) c hm
      split at h
      · rename_i a hs
        cases h
        obtain ⟨m', hm'⟩ := settle_of_balanced (fun e m he => (henter.of_error he).balanced) hs
        refine ((henter.of_error hm').cause f rfl).imp_left ?_
        rintro ⟨m, hopen, hover⟩
        exact .inr ⟨m, ⟨hn, view, hv, hopen⟩, hover⟩
      · cases h

end Frames

/-! ### Runs -/

namespace Exec

variable {env : Setting} {body : Exec Exit}

theorem run_sameLimit (env : Setting) (steps : Nat) :
    Keeps Stop.OfCode Machine.SameLimit (run env steps) := by
  refine run_keeps (Machine.SameLimit.steady env).lasting ?_ ?_ steps
  · intro body _ m c gas r w _ _ hc _
    exact (Meter.consume_eq_ok hc).1
  · intro body _ m c gas r w _ _ hc _
    exact (Meter.consume_eq_ok hc).1

/-- A machine with the gas back that a frame below has left of what was set aside for it. -/
theorem sound_refund {m : Machine} (hm : SoundIn env m) {gas : Meter} {given left : Gas}
    {label : String} (paid : gas.consume given label = .ok m.gas) (hle : left ≤ given) (w : World) :
    SoundIn env { m with world := w, gas := m.gas.refund left label } :=
  ⟨hm.balanced.refund (UInt64.le_trans hle (Meter.le_labelled_of_consume paid)), hm.depth⟩

/-- What a call hands back is written where there is memory for it. -/
theorem safe_takeCall {n offset size : Nat} (h : offset + size ≤ n) (r : FrameResult) :
    SafeIn env n (do
      writeMemory offset (r.output.take size)
      modifyFrame fun f => { f with returned := r.output }
      push (boolWord r.error.isNone)) :=
  (safe_writeMemory (by rw [List.length_take]; omega)).bind fun _ =>
    (safe_modifyFrame fun _ => ⟨by rfl, by rfl⟩).bind fun _ => safe_push _

theorem safe_takeCreation {n : Nat} (r : FrameResult) : SafeIn env n (do
    modifyFrame fun f => { f with returned := if r.error.isSome then r.output else [] }
    push (r.address.elim 0 addressWord)) :=
  (safe_modifyFrame fun _ => ⟨by rfl, by rfl⟩).bind fun _ => safe_push _

/-- **A turn meets a fault** only if it asks for a creation by an account at the largest
nonce, or enters a frame whose code comes to do so, or has no number for the depth of one. -/
theorem turn_withstands (hb : Withstands env body)
    (hl : Keeps Stop.OfCode Machine.SameLimit body) {m : Machine} (hm : SoundIn env m)
    {byte : UInt8} (next : m.frame.code[m.frame.pc]? = some byte) :
    Meets (turn env body byte) m (fun _ m' => SoundIn env m')
      (HaltsFor env (Overflows env m)) := by
  -- once no frame below runs any more, the turn ends like an instruction
  have goOn : ∀ {n : Nat} {x : Exec Unit} {m' : Machine}, SafeIn env n x → SoundIn env m' →
      n ≤ m'.frame.memory.size → Meets (do x; advance; return none) m'
        (fun (_ : Option Exit) m'' => SoundIn env m'') (HaltsFor env (Overflows env m)) := by
    intro n x m' hx hm' hn
    have hall : SafeIn env n (do x; advance; return (none : Option Exit)) :=
      hx.bind fun _ => (safe_modifyFrame fun _ => ⟨by rfl, by rfl⟩).bind fun _ => safe_pure _
    exact (hall m' hm' hn).mono (fun _ _ h => h.1) fun _ _ h => .of_fails h
  have hstep := ((step_performs env byte m).and (step_safe env byte m hm (Nat.zero_le _))).remember
  refine Meets.bind (hstep.mono ?_ ?_)
  · rintro ctl m' ⟨hs, ⟨mid, -, hends⟩, hm', -, hfits⟩
    cases hends with
    | next => exact goOn (x := pure ()) (safe_pure _) hm' (Nat.le_refl _)
    | jumped => exact Meets.pure hm'
    | exit how => exact Meets.pure hm'
    | @call c gas offset size caller depth paid =>
      refine Meets.bind (descend_meets (fun r w h => ?_) fun a h => ⟨hm'.balanced, ?_⟩)
      · have hback := sound_refund hm' paid (callWith_left_le hl h) w
        -- once the gas is given back, what is left to do is to take the output
        have taken := goOn (safe_takeCall hfits r) hback (Nat.le_refl _)
        exact taken
      · rintro f hf
        cases hf
        refine (callWith_faults hb h).imp_left ?_
        rintro ⟨m₁, hstarts, rfl, w, c', hasks, hover⟩
        exact ⟨rfl, w, c', .inCall next hs hstarts hasks, hover⟩
    | @create c gas creator depth paid =>
      refine Meets.bind (descend_meets (fun r w h => ?_) fun a h => ⟨hm'.balanced, ?_⟩)
      · have hback := sound_refund hm' paid (createWith_left_le hl h) w
        have taken := goOn (safe_takeCreation r) hback (Nat.le_refl _)
        exact taken
      · rintro f hf
        cases hf
        refine (createWith_faults hb h).imp_left ?_
        rintro (⟨rfl, hover⟩ | ⟨m₁, hstarts, rfl, w, c', hasks, hover⟩)
        · exact ⟨rfl, _, c, .here next hs, hover⟩
        · exact ⟨rfl, w, c', .inCreation next hs hstarts hasks, hover⟩
  · rintro stop m' ⟨-, -, h⟩
    exact .of_fails h

/-- **A run meets a fault** only if its code comes to ask for a creation by an account at the
largest nonce, or to a depth without a number below it. -/
theorem run_withstands (steps : Nat) : Withstands env (run env steps) := by
  induction steps with
  | zero => exact fun m hm => Meets.throw ⟨hm.balanced, nofun⟩
  | succ steps ih =>
    intro m hm
    rw [run_succ]
    refine meets_inspect ?_
    cases next : m.frame.code[m.frame.pc]? with
    | none => exact Meets.pure hm
    | some byte =>
      have hturn := turn_withstands ih (run_sameLimit env steps) hm next
      refine Meets.bind (hturn.remember.mono ?_ fun _ _ h => h.2)
      rintro exit m₁ ⟨ht, hm₁⟩
      cases exit with
      | some how => exact Meets.pure hm₁
      | none =>
        -- what the code asks for after the turn, it asks for later
        refine (ih m₁ hm₁).mono (fun _ _ h => h) fun _ _ h => h.imp ?_
        rintro f ⟨hnonce, w, c, hasks, hover⟩
        exact ⟨hnonce, w, c, .later next ht hasks, hover⟩

end Exec

end MeteredLedger
