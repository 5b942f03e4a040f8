import MeteredLedger.Proofs.Frame.Likeness
import MeteredLedger.Proofs.Frame.Trail
import MeteredLedger.Proofs.Gas.Meters

/-!
# Code that does not look at its gas

Of its gas, code sees what `GAS` and `GASLIMIT` show, and what can be handed on to the frames that
`CREATE` and `CALL` ask for. Code without these instructions (`Code.Oblivious`) only ever learns
that a charge was let through. So it is run on two machines side by side that are the same but for
the limit of their gas (`Machine.Richer`): as long as the lower limit is not exceeded, both do the
same (`Exec.run_richer`), and a frame that ends well on the lower one ends alike on the higher one,
with as much more gas left as it was given more (`callIn_richer`, `createIn_richer`).
-/

namespace MeteredLedger

/-! ### Instructions -/

/-- The bytes of the instructions that look at gas, or hand it on: `GASLIMIT`, `GAS`, `CREATE` and
`CALL`. -/
def Code.gasBytes : List UInt8 := [0x45, 0x5a, 0xf0, 0xf1]

/-- **The code does not look at its gas**: no instruction of it does, whatever its data spells. -/
def Code.Oblivious (code : Bytes) : Prop :=
  ∀ i b, Starts code i → code[i]? = some b → b ∉ gasBytes

/-- What the other bytes are not. -/
theorem Opcode.ofByte_of_not_mem {b : UInt8} (h : b ∉ Code.gasBytes) :
    ofByte b ≠ .reading .gasLimit ∧ ofByte b ≠ .reading .gas ∧ ofByte b ≠ .create ∧
      ofByte b ≠ .call :=
  Bytes.forall_byte (P := fun b => b ∉ Code.gasBytes → ofByte b ≠ .reading .gasLimit ∧
    ofByte b ≠ .reading .gas ∧ ofByte b ≠ .create ∧ ofByte b ≠ .call) (by decide +kernel) b h

/-- The instruction at which a frame on track is. -/
theorem Code.Oblivious.not_mem {f : Frame} {b : UInt8} (h : Oblivious f.code.toList)
    (track : f.OnTrack) (next : f.code[f.pc]? = some b) : b ∉ gasBytes := by
  have hlt : f.pc < f.code.size := (Array.getElem?_eq_some_iff.1 next).1
  exact h f.pc b (track.place.resolve_left (Nat.not_le_of_lt hlt)) (by rwa [Array.getElem?_toList])

/-! ### Machines -/

/-- The same setting, but for the gas that the first frame was given. -/
def Setting.withGasLimit (env : Setting) (gas : Gas) : Setting :=
  { env with context := { env.context with gasLimit := gas } }

/-- **The second machine is the first one with a higher limit** to its gas, of which no more has
been consumed than the lower one lets through. -/
structure Machine.Richer (limit more : Gas) (m m' : Machine) : Prop where
  bounded : m.gas.limit = .bounded limit
  within : m.gas.consumed ≤ limit
  same : m' = { m with gas := m.gas.withLimit more }

/-- The machines that two frames start on. -/
theorem Machine.richer_bounded (w : World) (limit more : Gas) (frame : Frame) :
    Richer limit more ⟨w, .bounded limit, frame⟩ ⟨w, .bounded more, frame⟩ :=
  ⟨rfl, UInt64.le_iff_toNat_le.2 (Nat.zero_le _), rfl⟩

section

variable {limit more gas : Gas} (hle : limit ≤ more) (env : Setting)

include hle

/-- **Code cannot tell a higher limit**, as long as the lower one is not exceeded. -/
theorem frameLikeness_richer :
    FrameLikeness env (fun _ => False) (Machine.Richer limit more) where
  frame := by
    rintro m _ ⟨-, -, rfl⟩
    rfl
  code := by
    rintro m _ ⟨-, -, rfl⟩
    rfl
  goOn := by
    rintro m _ ⟨hl, hc, rfl⟩ g -
    exact ⟨hl, hc, rfl⟩
  load := by
    rintro m _ ⟨hl, hc, rfl⟩ code
    exact ⟨hl, hc, rfl⟩
  sight := by
    rintro m _ ⟨-, -, rfl⟩
    rfl
  write := by
    rintro m _ ⟨hl, hc, rfl⟩ slot value
    exact ⟨hl, hc, rfl⟩
  leave := by
    rintro m _ ⟨hl, hc, rfl⟩ log
    exact ⟨hl, hc, rfl⟩
  pay amount label := by
    rintro m _ ⟨hl, hc, rfl⟩
    unfold Exec.FollowsAt Meets Exec.charge
    cases hpaid : m.gas.consume amount label with
    | error stop => exact False.elim
    | ok gas =>
      obtain ⟨hlimit, hconsumed, hroom⟩ := Meter.consume_eq_ok hpaid
      rw [Meter.consume_withLimit hl hle hpaid]
      refine ⟨_, rfl, hlimit.trans hl, ?_, rfl⟩
      rw [UInt64.le_iff_toNat_le]
      exact hconsumed.trans_le (hroom limit hl)
  left := fun _ h => h.elim
  transfer source target amount := by
    rintro m _ ⟨hl, hc, rfl⟩
    unfold Exec.FollowsAt Meets Exec.onView
    dsimp only
    cases View.transfer env.store source target amount m.world.view with
    | ok _ view => exact ⟨_, rfl, hl, hc, rfl⟩
    | error stop view => exact False.elim
  take := by
    rintro m _ ⟨hl, hc, rfl⟩ address
    exact ⟨hl, hc, rfl⟩
  deposit := by
    rintro m _ ⟨hl, hc, rfl⟩ address code
    exact ⟨hl, hc, rfl⟩

namespace Exec

variable {env} {byte : UInt8} {m m' : Machine}

/-- **What an instruction does that does not look at gas, it does on a higher limit.** -/
theorem step_richer (hb : byte ∉ Code.gasBytes) :
    Follows (fun _ => False) (Machine.Richer limit more) (step env byte)
      (step (env.withGasLimit gas) byte) := by
  obtain ⟨hlimit, hgas, hcreate, hcall⟩ := Opcode.ofByte_of_not_mem hb
  refine (frameLikeness_richer hle env).step (fun _ => rfl) ?_ ?_ (fun h => absurd h hcreate)
    fun h => absurd h hcall
  · rintro r hr m _ ⟨-, -, rfl⟩
    cases r with
    | gasLimit => exact absurd hr hlimit
    | gas => exact absurd hr hgas
    | _ => rfl
  · rintro - m _ ⟨-, -, rfl⟩ dest
    rfl

/-- So does a turn; it enters no frame. -/
theorem turn_richer (body body' : Exec Exit) (hb : byte ∉ Code.gasBytes) :
    Follows (fun _ => False) (Machine.Richer limit more) (turn env body byte)
      (turn (env.withGasLimit gas) body' byte) := by
  obtain ⟨-, -, hcreate, hcall⟩ := Opcode.ofByte_of_not_mem hb
  intro m m' hm
  have hleads := (step_leads env byte m).mono (fun _ _ h => h) fun _ _ _ => trivial
  refine (step_richer hle hb m m' hm).bind hleads ?_
  intro ctl m₁ m₁' hctl h₁
  cases hctl with
  | next pc =>
    have advances := (frameLikeness_richer hle env).modifyFrame
      (fun f => { f with pc := f.pc + 1 }) fun _ _ _ => rfl
    exact (advances.bind fun _ => follows_pure none) m₁ m₁' h₁
  | jumped jumps target => exact follows_pure none m₁ m₁' h₁
  | exit short => exact follows_pure (some _) m₁ m₁' h₁
  | call asks stays => exact absurd asks hcall
  | create asks stays short => exact absurd asks hcreate

/-- **A run of code that does not look at its gas goes on alike on a higher limit**, step by step.
-/
theorem run_richer {steps : Nat} (hm : m.Richer limit more m') (htrack : m.frame.OnTrack)
    (hcode : Code.Oblivious m.frame.code.toList) :
    FollowsAt (fun _ => False) (Machine.Richer limit more) (run env steps)
      (run (env.withGasLimit gas) steps) m m' := by
  induction steps generalizing m m' with
  | zero => exact Meets.throw False.elim
  | succ steps ih =>
    rw [run_succ, run_succ]
    have hnext : Follows (fun _ => False) (Machine.Richer limit more)
        (inspect fun m => m.frame.code[m.frame.pc]?)
        (inspect fun m => m.frame.code[m.frame.pc]?) := follows_inspect fun m m' h => by rw [h.same]
    refine (hnext m m' hm).bind (P := fun byte? m₁ => m₁ = m ∧ m.frame.code[m.frame.pc]? = byte?)
      ⟨rfl, rfl⟩ ?_
    rintro byte? m₁ m₁' ⟨rfl, next⟩ h₁
    cases byte? with
    | none => exact follows_pure _ m₁ m₁' h₁
    | some byte =>
      refine (turn_richer hle _ _ (hcode.not_mem htrack next) m₁ m₁' h₁).bind
        (turn_place env (run env steps) byte m₁) ?_
      intro exit m₂ m₂' hplace h₂
      cases exit with
      | some how => exact follows_pure how m₂ m₂' h₂
      | none =>
        have hto := hplace rfl
        refine ih h₂ (htrack.goesTo next hto) ?_
        rw [Frame.code_of_fixed hto.1]
        exact hcode

end Exec

end

/-! ### Frames -/

namespace Exec

variable {env : Setting} {m m' : Machine}

/-- No code changes while the frame of a call is made ready. -/
theorem openCall_codeAt (c : Call) (m : Machine) :
    Meets (openCall env c) m
      (fun _ m' => m'.world.view.codeAt env.store = m.world.view.codeAt env.store)
      fun _ _ => True := by
  refine Meets.bind ((charge_view _ _ m).mono ?_ fun _ _ h => h)
  rintro _ m₁ ⟨hv, -⟩
  refine Meets.bind ((bring_gives c m₁).mono ?_ fun _ _ h => h)
  rintro _ m₂ ⟨hgive, -⟩
  have hcode : m₂.world.view.codeAt env.store = m.world.view.codeAt env.store := by
    rw [← hv]
    exact congrArg Sight.code hgive.sight
  refine meets_inspect ?_
  split_ifs
  · exact hcode
  · exact hcode

/-- What runs in a call is the code that the account had before, from its front. -/
theorem openCall_runs {c : Call} (h : openCall env c m = .ok true m') :
    m'.frame.OnTrack ∧ m'.frame.code.toList = m.world.view.codeAt env.store c.address := by
  obtain ⟨f, hf⟩ := openCall_loads h
  rw [(openCall_codeAt c m).of_ok h] at hf
  rw [hf]
  exact ⟨Frame.onTrack_load f _, rfl⟩

variable {limit more : Gas} (hle : limit ≤ more) {steps : Nat}

include hle

theorem enterCall_richer {c : Call} (hm : m.Richer limit more m')
    (hcode : Code.Oblivious (m.world.view.codeAt env.store c.address)) (gas given : Gas) :
    FollowsAt (fun _ => False) (Machine.Richer limit more) (enterCall env (run env steps) c)
      (enterCall (env.withGasLimit gas) (run (env.withGasLimit gas) steps) { c with gas := given })
      m m' := by
  rw [enterCall_eq_open, enterCall_eq_open]
  have hruns : Meets (openCall env c) m (fun hasCode m₁ => hasCode = true →
      m₁.frame.OnTrack ∧ Code.Oblivious m₁.frame.code.toList) fun _ _ => True := by
    refine (Meets.always (openCall env c) m).remember.mono ?_ fun _ _ _ => trivial
    rintro hasCode m₁ ⟨hopen, -⟩ rfl
    obtain ⟨htrack, hsame⟩ := openCall_runs hopen
    exact ⟨htrack, hsame ▸ hcode⟩
  refine ((frameLikeness_richer hle env).openCall c m m' hm).bind hruns ?_
  intro hasCode m₁ m₁' hstarts h₁
  cases hasCode with
  | false => exact follows_pure _ m₁ m₁' h₁
  | true =>
    obtain ⟨htrack, hcode⟩ := hstarts rfl
    exact run_richer hle h₁ htrack hcode

theorem enterCreation_richer {c : Creation} (hm : m.Richer limit more m')
    (hcode : Code.Oblivious c.initCode) (address : Address) (gas given : Gas) :
    FollowsAt (fun _ => False) (Machine.Richer limit more)
      (enterCreation env (run env steps) address c)
      (enterCreation (env.withGasLimit gas) (run (env.withGasLimit gas) steps) address
        { c with gas := given }) m m' := by
  rw [enterCreation_eq_open, enterCreation_eq_open]
  have hruns : Meets (openCreation env address c) m (fun _ m₁ =>
      m₁.frame.OnTrack ∧ Code.Oblivious m₁.frame.code.toList) fun _ _ => True := by
    refine (Meets.always (openCreation env address c) m).remember.mono ?_ fun _ _ _ => trivial
    rintro _ m₁ ⟨hopen, -⟩
    obtain ⟨f, hf⟩ := openCreation_loads hopen
    rw [hf]
    exact ⟨Frame.onTrack_load f _, hcode⟩
  have hlike := frameLikeness_richer hle env
  refine (hlike.openCreation address c m m' hm).bind hruns ?_
  rintro _ m₁ m₁' ⟨htrack, hcode⟩ h₁
  refine (run_richer hle h₁ htrack hcode).bind (Meets.always _ m₁) ?_
  exact fun exit m₂ m₂' _ h₂ => hlike.closeCreation address exit m₂ m₂' h₂

end Exec

/-- The same result, with more gas left. -/
def FrameResult.withMore (extra : Gas) (r : FrameResult) : FrameResult :=
  { r with gasRemaining := r.gasRemaining + extra }

section

variable {limit more gas : Gas} {env : Setting} {steps : Nat} {w w' : World} {r : FrameResult}

/-- A frame that ends well ends alike on a higher limit. -/
theorem Settled.richer {mark : View.Mark} {x x' : Exec Exit} {m m' : Machine}
    (h : Settled mark (x m) r w) (hr : r.error = none) (hle : limit ≤ more)
    (hx : Exec.FollowsAt (fun _ => False) (Machine.Richer limit more) x x' m m') :
    settle mark (x' m') = .ok (r.withMore (more - limit), w) := by
  generalize hxm : x m = result at h
  cases h with
  | returned output m₁ =>
    obtain ⟨m₁', hxm', hl, hc, rfl⟩ := hx.of_ok hxm
    rw [hxm']
    show Except.ok (FrameResult.mk output (m₁.gas.withLimit more).remaining none none, _) = _
    rw [Meter.remaining_withLimit hl hle hc]
    rfl
  | reverted output m₁ => cases hr
  | burnt he hg => cases hr
  | kept he => cases hr

/-- **A call that ends well ends alike on more gas**, if the code that it runs does not look at it.
-/
theorem callIn_richer {c : Call} (h : callIn steps env c w = .ok (r, w')) (hr : r.error = none)
    (hle : c.gas ≤ more) (hcode : Code.Oblivious (w.view.codeAt env.store c.address)) :
    callIn steps (env.withGasLimit gas) { c with gas := more } w
      = .ok (r.withMore (more - c.gas), w') := by
  obtain ⟨e, -, rfl, -⟩ | ⟨hn, hs⟩ := callWith_cases h
  · cases hr
  · have hstart : (c.machine w).Richer c.gas more (Call.machine { c with gas := more } w) :=
      Machine.richer_bounded _ _ _ _
    have hsame : (c.machine w).world.view.codeAt env.store = w.view.codeAt env.store :=
      congrArg Sight.code (View.sight_checkpoint env.store w.view)
    have hadmitted : refusal? (env.withGasLimit gas) w c.caller c.value c.depth = none := hn
    unfold callIn callWith
    rw [hadmitted]
    exact hs.richer hr hle (Exec.enterCall_richer hle hstart (hsame ▸ hcode) gas more)

/-- **A creation that ends well ends alike on more gas**, if the code that it runs does not look at
it. -/
theorem createIn_richer {c : Creation} (h : createIn steps env c w = .ok (r, w'))
    (hr : r.error = none) (hle : c.gas ≤ more) (hcode : Code.Oblivious c.initCode) :
    createIn steps (env.withGasLimit gas) { c with gas := more } w
      = .ok (r.withMore (more - c.gas), w') := by
  obtain ⟨e, -, rfl, -⟩ | ⟨hn, view, r', hv, hs, rfl⟩ := createWith_cases h
  · cases hr
  · have hstart : (c.machine env w view).Richer c.gas more
        (Creation.machine (env.withGasLimit gas) { c with gas := more } w view) :=
      Machine.richer_bounded _ _ _ _
    have hsettled := hs.richer hr hle
      (Exec.enterCreation_richer hle hstart hcode (c.address env w) gas more)
    have hadmitted : refusal? (env.withGasLimit gas) w c.creator c.value c.depth = none := hn
    have hbumped : View.bumpNonce (env.withGasLimit gas).store c.creator w.view = .ok () view := hv
    refine (createWith_of_bumped (c := { c with gas := more }) hadmitted hbumped).trans ?_
    exact congrArg (Except.map (Prod.map (FrameResult.named (c.address env w)) id)) hsettled

end

end MeteredLedger
