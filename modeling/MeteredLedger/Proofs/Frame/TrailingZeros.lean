import MeteredLedger.Proofs.Frame.Likeness
import MeteredLedger.Proofs.Frame.Termination
import MeteredLedger.Proofs.Frame.Trail
import MeteredLedger.Proofs.Machine.TrailingZeros

/-!
# Creations with zeros behind their code

A creation runs its code, and the same code with zeros behind it, side by side: turn by turn the
machines are the same but for the zeros (`Exec.turn_recoded`), until both are behind the code that
they share. There the one ends at the end of its code and the other at a zero, which is `STOP`.
If that costs nothing, the machines that are left tell the same (`Machine.Tallies`), though the
charge of nothing is in the breakdown of one of them only. The other one may need a step more.

`trailing_zeros_unseen` says so of whole creations, for any number of zeros and both ways.
-/

namespace MeteredLedger

/-! ### What is told of machines -/

/-- What a machine tells: the view, what the run has cost so far, and its own meter. -/
def Machine.tally (m : Machine) : View × Gas × GasLimit × Gas × (String → Gas) :=
  (m.world.view, m.world.ledger.consumed, m.gas.tally)

/-- **The machines tell the same.** -/
def Machine.Tallies (m m' : Machine) : Prop := m'.tally = m.tally

namespace Machine.Tallies

variable {m m' : Machine}

theorem view (h : m.Tallies m') : m'.world.view = m.world.view := congrArg (·.1) h

theorem ledger (h : m.Tallies m') : m'.world.ledger.consumed = m.world.ledger.consumed :=
  congrArg (·.2.1) h

theorem gas (h : m.Tallies m') : m'.gas.tally = m.gas.tally := congrArg (·.2.2) h

theorem remaining (h : m.Tallies m') : m'.gas.remaining = m.gas.remaining :=
  Meter.remaining_tally h.gas

theorem of_recoded (h : m.Recoded m') : m.Tallies m' := by
  unfold Tallies tally
  rw [h.world, h.gas]

end Machine.Tallies

/-! ### Turns -/

/-- Machines that are given the same code, with zeros behind it. -/
theorem Machine.Recoded.loaded {m m' : Machine} (h : m.Recoded m') (code : Bytes)
    (zeros zeros' : Nat) :
    Recoded { m with frame := m.frame.load (Code.padded code zeros) }
      { m' with frame := m'.frame.load (Code.padded code zeros') } where
  world := h.world
  gas := h.gas
  bare := congrArg (fun f : Frame => { f with pc := 0 }) h.bare
  runs := ⟨code, Frame.runs_load _ code zeros, Frame.runs_load _ code zeros'⟩
  within := h.within

theorem frameLikeness_recoded (env : Setting) :
    FrameLikeness env Stop.IsFinal Machine.Recoded where
  toLikeness := likeness_recoded env
  load h code := by simpa using h.loaded code 0 0
  transfer source target amount := by
    intro m m' hm
    unfold Exec.FollowsAt Meets Exec.onView
    rw [hm.world]
    cases View.transfer env.store source target amount m.world.view with
    | ok _ view => exact ⟨_, rfl, hm.onWorld { m.world with view }⟩
    | error stop view => exact fun _ => ⟨_, rfl, hm.onWorld { m.world with view }⟩
  take h address := h.onView (·.setNonce env.store address 1)
  deposit h address code := h.onView (·.setCode env.store address code)

namespace Exec

variable {env : Setting} {body body' : Exec Exit} {m m' : Machine}

/-- What is entered from the same world ends alike, if it ends. -/
theorem descend_recoded {enter enter' : World → Except Abort (FrameResult × World)}
    (h : ∀ w, enter w ≠ .error .unfinished → enter' w = enter w) :
    Follows Stop.IsFinal Machine.Recoded (descend enter) (descend enter') := by
  intro m m' hm
  unfold FollowsAt Meets descend
  rw [hm.world]
  cases hw : enter m.world with
  | ok answer =>
    have hw' := h m.world (by rw [hw]; nofun)
    rw [hw', hw]
    exact ⟨_, rfl, hm.onWorld answer.2⟩
  | error a =>
    intro final
    have hw' := h m.world fun hcut =>
      final (congrArg Stop.abort (Except.error.inj (hw.symm.trans hcut)))
    rw [hw', hw]
    exact ⟨m', rfl, hm⟩

/-- **A turn does the same**, whatever zeros are behind the code, if it does not ask for the size of
the code. -/
theorem turn_recoded (env : Setting) (hb : Extends body body') {byte : UInt8}
    (hsize : byte ≠ 0x38) : Follows Stop.IsFinal Machine.Recoded
      (unplaced (turn env body byte)) (unplaced (turn env body' byte)) := by
  have hlike := likeness_recoded env
  have advances : Follows Stop.IsFinal Machine.Recoded (do advance; return (none : Option Exit))
      (do advance; return (none : Option Exit)) :=
    (hlike.modifyFrame (fun f => { f with pc := f.pc + 1 }) fun _ _ _ => rfl).bind fun _ =>
      follows_pure _
  unfold turn
  rw [unplaced_bind, unplaced_bind]
  refine (step_recoded env hsize).bind fun ctl => Follows.unplaced ?_
  cases ctl with
  | exit how => exact follows_pure _
  | jumped => exact follows_pure _
  | next => exact advances
  | call c offset size =>
    refine (descend_recoded fun w => callWith_extends hb).bind fun result => ?_
    refine Follows.bind ?_ fun _ => advances
    exact (giveBack_recoded _ _).bind fun _ => (hlike.writeMemory _ _).bind fun _ =>
      (hlike.modifyFrame _ fun _ _ _ => rfl).bind fun _ => hlike.push _
  | create c =>
    refine (descend_recoded fun w => createWith_extends hb).bind fun result => ?_
    refine Follows.bind ?_ fun _ => advances
    exact (giveBack_recoded _ _).bind fun _ =>
      (hlike.modifyFrame _ fun _ _ _ => rfl).bind fun _ => hlike.push _

/-! ### Runs -/

/-- **A run that is behind the code ends**, at the end of its code or at a zero. -/
theorem run_behind (hzero : env.params.instructions.zero = 0) (steps : Nat)
    (within : ∀ limit, m.gas.limit = .bounded limit → m.gas.consumed ≤ limit)
    (behind : m.frame.code[m.frame.pc]? = none ∨ m.frame.code[m.frame.pc]? = some 0) :
    ∃ m₁, run env (steps + 1) m = .ok (.returned []) m₁ ∧ m₁.tally = m.tally := by
  rw [run_succ, bind_apply, inspect]
  obtain h | h := behind
  · rw [h]
    exact ⟨m, rfl, rfl⟩
  · obtain ⟨gas, hpaid, htally⟩ := Meter.consume_zero within "STOP"
    have hstep : step env 0 = (do
        charge env.params.instructions.zero "STOP"
        return .exit (.returned [])) := rfl
    have hstop : turn env (run env steps) 0 m = .ok (some (.returned [])) { m with
        gas, world := { m.world with ledger := m.world.ledger.record 0 "STOP" } } := by
      unfold turn
      rw [hstep, hzero, bind_apply, bind_apply, charge, hpaid]
      rfl
    have hledger : (m.world.ledger.record 0 "STOP").consumed = m.world.ledger.consumed :=
      addGasCapped_zero m.world.ledger.consumed
    rw [h]
    dsimp only
    rw [bind_apply, hstop]
    refine ⟨_, rfl, ?_⟩
    unfold Machine.tally
    dsimp only
    rw [htally, hledger]

/-- What is told of the turn of an instruction and of what comes after it. -/
theorem unplaced_run_succ {byte : UInt8} (steps : Nat)
    (next : m.frame.code[m.frame.pc]? = some byte) :
    unplaced (run env (steps + 1)) m = (do
      match ← unplaced (turn env (run env steps) byte) with
      | some how => return how
      | none => unplaced (run env steps)) m := by
  have hrun : run env (steps + 1) m = (do
      match ← turn env (run env steps) byte with
      | some how => return how
      | none => run env steps) m := by
    rewrite [run_succ, bind_apply, inspect, next]
    rfl
  calc unplaced (run env (steps + 1)) m = unplaced (do
        match ← turn env (run env steps) byte with
        | some how => return how
        | none => run env steps) m := by
        unfold unplaced
        rw [hrun]
    _ = _ := by
      rw [unplaced_bind]
      refine congrFun (bind_congr fun exit => ?_) m
      cases exit <;> rfl

/-- **Runs of code with zeros behind it end alike.** Of the two the second one may need a step more:
while both are in the code that they share, they take the same turns; behind it, they end. -/
theorem run_padded (hzero : env.params.instructions.zero = 0) {steps : Nat} (hm : m.Recoded m')
    (track : m.frame.OnTrack) (hsize : Code.Sizeless m.frame.code.toList) :
    FollowsAt Stop.IsFinal Machine.Tallies (unplaced (run env steps))
      (unplaced (run env (steps + 1))) m m' := by
  induction steps generalizing m m' with
  | zero => exact fun final => absurd rfl final
  | succ steps ih =>
    obtain ⟨code, hruns, hruns'⟩ := hm.runs
    obtain hin | hbehind := Nat.lt_or_ge m.frame.pc code.length
    · obtain ⟨byte, hbyte⟩ : ∃ byte, code[m.frame.pc]? = some byte :=
        ⟨_, List.getElem?_eq_getElem hin⟩
      have next : m.frame.code[m.frame.pc]? = some byte := (hruns.getElem?_code hin).trans hbyte
      have next' : m'.frame.code[m'.frame.pc]? = some byte := by
        rw [hm.pc]
        exact (hruns'.getElem?_code hin).trans hbyte
      have hstart := track.place.resolve_left (Nat.not_le_of_lt (hin.trans_le hruns.length_le))
      have hother : byte ≠ 0x38 := by
        rintro rfl
        exact hsize _ hstart (by rwa [Array.getElem?_toList])
      have hturn := turn_recoded env (run_extends_succ env steps) hother m m' hm
      refine FollowsAt.congr ?_ (unplaced_run_succ steps next) (unplaced_run_succ (steps + 1) next')
      refine hturn.bindInto (meets_unplaced (turn_place env (run env steps) byte m))
        Machine.Tallies.of_recoded ?_
      intro exit m₁ m₁' hplace h₁
      cases exit with
      | some how => exact follows_pure how m₁ m₁' (.of_recoded h₁)
      | none =>
        have hto := hplace rfl
        refine ih h₁ (track.goesTo next hto) ?_
        rw [Frame.code_of_fixed hto.1]
        exact hsize
    · have hbehind' : code.length ≤ m'.frame.pc := hm.pc ▸ hbehind
      have hwithin' : ∀ limit, m'.gas.limit = .bounded limit → m'.gas.consumed ≤ limit :=
        hm.gas ▸ hm.within
      obtain ⟨m₁, hend, htally⟩ := run_behind hzero steps hm.within (hruns.getElem?_behind hbehind)
      obtain ⟨m₁', hend', htally'⟩ :=
        run_behind hzero (steps + 1) hwithin' (hruns'.getElem?_behind hbehind')
      unfold FollowsAt Meets unplaced
      rw [hend, hend']
      exact ⟨m₁', rfl, htally'.trans ((Machine.Tallies.of_recoded hm).trans htally.symm)⟩

end Exec

/-! ### Frames -/

/-- The creation with so many zeros behind its code. -/
def Creation.padded (c : Creation) (zeros : Nat) : Creation :=
  { c with initCode := Code.padded c.initCode zeros }

/-- The machine that a creation starts on has no code yet, and has spent nothing. -/
theorem Creation.recoded_machine (c : Creation) (env : Setting) (w : World) (view : View) :
    (c.machine env w view).Recoded (c.machine env w view) where
  world := rfl
  gas := rfl
  bare := rfl
  runs := ⟨[], ⟨⟨0, rfl⟩, rfl⟩, ⟨⟨0, rfl⟩, rfl⟩⟩
  within _ _ := UInt64.le_iff_toNat_le.2 (Nat.zero_le _)

namespace Exec

variable {env : Setting} {m m' : Machine}

theorem openCreation_padded (env : Setting) (address : Address) (c : Creation)
    (zeros zeros' : Nat) : Follows Stop.IsFinal Machine.Recoded
      (openCreation env address (c.padded zeros)) (openCreation env address (c.padded zeros')) :=
  have hlike := frameLikeness_recoded env
  (hlike.pay _ _).bind fun _ => (hlike.claim address).bind fun _ => (hlike.endow address c).bind
    fun _ _ _ hm => ⟨_, rfl, hm.loaded c.initCode zeros zeros'⟩

theorem charge_tallies (amount : Gas) (label : String) :
    Follows Stop.IsFinal Machine.Tallies (charge amount label) (charge amount label) := by
  intro m m' hm
  have hsame := Meter.consume_tally hm.gas amount label
  unfold FollowsAt Meets charge
  cases hpaid : m.gas.consume amount label with
  | error stop =>
    rw [eq_error_of_map (hsame.trans (congrArg _ hpaid))]
    exact fun _ => ⟨m', rfl, hm⟩
  | ok gas =>
    obtain ⟨gas', hpaid', htally⟩ := exists_of_map_eq_ok (hsame.trans (congrArg _ hpaid))
    rw [hpaid']
    refine ⟨_, rfl, ?_⟩
    unfold Machine.Tallies Machine.tally Meter.record
    dsimp only
    rw [hm.view, hm.ledger, htally]

/-- **The frame of a creation ends alike**, whatever zeros are behind its code. -/
theorem enterCreation_padded (hzero : env.params.instructions.zero = 0) {c : Creation}
    (hsize : Code.Sizeless c.initCode) (hm : m.Recoded m') (address : Address)
    (steps zeros zeros' : Nat) : FollowsAt Stop.IsFinal Machine.Tallies
      (unplaced (enterCreation env (run env steps) address (c.padded zeros)))
      (unplaced (enterCreation env (run env (steps + 1)) address (c.padded zeros'))) m m' := by
  have hruns : Meets (openCreation env address (c.padded zeros)) m (fun _ m₁ =>
      m₁.frame.OnTrack ∧ Code.Sizeless m₁.frame.code.toList) fun _ _ => True := by
    refine (Meets.always (openCreation env address (c.padded zeros)) m).remember.mono ?_
      fun _ _ _ => trivial
    rintro _ m₁ ⟨hopen, -⟩
    obtain ⟨f, hf⟩ := openCreation_loads hopen
    rw [hf]
    exact ⟨Frame.onTrack_load f _, hsize.padded zeros⟩
  have deposit : ∀ {m m' : Machine}, m.Tallies m' → ∀ code,
      (m.withView (m.world.view.setCode env.store address code)).Tallies
        (m'.withView (m'.world.view.setCode env.store address code)) := by
    intro m m' h code
    unfold Machine.Tallies Machine.tally Machine.withView
    dsimp only
    rw [h.view, h.ledger, h.gas]
  rw [enterCreation_eq_open, enterCreation_eq_open, unplaced_bind (openCreation _ _ _),
    unplaced_bind (openCreation _ _ (c.padded zeros'))]
  refine (openCreation_padded env address c zeros zeros' m m' hm).unplaced.bindInto
    (meets_unplaced hruns) Machine.Tallies.of_recoded ?_
  rintro _ m₁ m₁' ⟨htrack, hsizeless⟩ h₁
  rw [unplaced_bind, unplaced_bind]
  refine (run_padded hzero h₁ htrack hsizeless).bind (Meets.always _ m₁) ?_
  intro exit m₂ m₂' _ h₂
  exact (FrameLikeness.closeCreation_of address exit charge_tallies deposit m₂ m₂' h₂).unplaced

end Exec

/-- What a frame hands back, whose error is taken without the place that an invalid jump carries. -/
def FrameResult.unplaced (r : FrameResult) : FrameResult :=
  { r with error := r.error.map LedgerError.unplaced }

/-- **What is told of an answer**: what the frame hands back, the view, and what the run has cost.
-/
def told (answer : Except Abort (FrameResult × World)) :
    Except Abort (FrameResult × View × Gas) :=
  answer.map fun (r, w) => (r.unplaced, w.view, w.ledger.consumed)

theorem LedgerError.burnsGas_unplaced (e : LedgerError) : e.unplaced.burnsGas = e.burnsGas := by
  cases e <;> rfl

theorem LedgerError.unplaced_unplaced (e : LedgerError) : e.unplaced.unplaced = e.unplaced := by
  cases e <;> rfl

/-- What is told of a frame that is left is a matter of the error without its place. -/
theorem told_settle_unplaced (mark : View.Mark) (x : Exec Exit) (m : Machine) :
    told (settle mark (Exec.unplaced x m)) = told (settle mark (x m)) := by
  unfold Exec.unplaced
  cases x m with
  | ok exit m₁ => rfl
  | error stop m₁ =>
    cases stop with
    | abort a => rfl
    | error e =>
      have refused : ∀ gas, (FrameResult.refused gas e.unplaced).unplaced
          = (FrameResult.refused gas e).unplaced := fun gas => by
        unfold FrameResult.refused FrameResult.unplaced
        dsimp only [Option.map]
        rw [LedgerError.unplaced_unplaced]
      unfold settle
      dsimp only [Stop.unplaced]
      rw [LedgerError.burnsGas_unplaced]
      split_ifs
      · cases m₁.gas.burn "exhausted" with
        | ok gas =>
          unfold told
          dsimp only [Except.map]
          rw [refused]
        | error f => rfl
      · unfold told
        dsimp only [Except.map]
        rw [refused]

/-- What is told of a frame that is left is a matter of what its machine tells. -/
theorem told_settle_ok {m m' : Machine} (h : m.Tallies m') (mark : View.Mark) (exit : Exit) :
    told (settle mark (.ok exit m')) = told (settle mark (.ok exit m)) := by
  unfold told
  cases exit <;> · dsimp only [settle, Except.map]; rw [h.view, h.ledger, h.remaining]

theorem told_settle_error {m m' : Machine} (h : m.Tallies m') (mark : View.Mark) (stop : Stop) :
    told (settle mark (.error stop m')) = told (settle mark (.error stop m)) := by
  cases stop with
  | abort a => rfl
  | error e =>
    have hburn := Meter.burn_tally h.gas "exhausted"
    unfold settle
    dsimp only
    split_ifs
    · cases hm : m.gas.burn "exhausted" with
      | ok gas =>
        obtain ⟨gas', hm', htally⟩ := exists_of_map_eq_ok (hburn.trans (congrArg _ hm))
        rw [hm']
        unfold told Meter.record
        dsimp only [Except.map]
        rw [h.view, h.ledger, h.remaining, Meter.remaining_tally htally]
      | error f => rw [eq_error_of_map (hburn.trans (congrArg _ hm))]
    · unfold told
      dsimp only [Except.map]
      rw [h.view, h.ledger, h.remaining]

/-- Frames that end alike are left alike. -/
theorem told_settle {mark : View.Mark} {x x' : Exec Exit} {m m' : Machine}
    (h : Exec.FollowsAt Stop.IsFinal Machine.Tallies (Exec.unplaced x) (Exec.unplaced x') m m')
    (ends : settle mark (x m) ≠ .error .unfinished) :
    told (settle mark (x' m')) = told (settle mark (x m)) := by
  rw [← told_settle_unplaced mark x m, ← told_settle_unplaced mark x' m']
  unfold Exec.FollowsAt Meets at h
  cases hx : Exec.unplaced x m with
  | ok exit m₁ =>
    rw [hx] at h
    obtain ⟨m₁', hx', h₁⟩ := h
    rw [hx']
    exact told_settle_ok h₁ mark exit
  | error stop m₁ =>
    rw [hx] at h
    have final : stop.IsFinal := by
      rintro rfl
      have hcut : told (settle mark (x m)) = .error .unfinished := by
        rw [← told_settle_unplaced, hx]
        rfl
      exact ends (eq_error_of_map hcut)
    obtain ⟨m₁', hx', h₁⟩ := h final
    rw [hx']
    exact told_settle_error h₁ mark stop

section

variable {env : Setting} {c : Creation} {w : World}

theorem told_named (address : Address) (answer : Except Abort (FrameResult × World)) :
    told (answer.map (Prod.map (FrameResult.named address) id))
      = (told answer).map (Prod.map (FrameResult.named address) id) := by
  cases answer with
  | error a => rfl
  | ok answer =>
    obtain ⟨⟨output, gas, error, address'⟩, w⟩ := answer
    cases error <;> rfl

/-- **A creation ends alike**, whatever zeros are behind its code. -/
theorem told_createIn_padded (hzero : env.params.instructions.zero = 0)
    (hsize : Code.Sizeless c.initCode) {steps : Nat} (zeros zeros' : Nat)
    (ends : createIn steps env (c.padded zeros) w ≠ .error .unfinished) :
    told (createIn (steps + 1) env (c.padded zeros') w)
      = told (createIn steps env (c.padded zeros) w) := by
  cases hn : refusal? env w c.creator c.value c.depth with
  | some e =>
    unfold createIn
    rw [createWith_of_refused (c := c.padded zeros) hn,
      createWith_of_refused (c := c.padded zeros') hn]
    rfl
  | none =>
    cases hv : View.bumpNonce env.store c.creator w.view with
    | error stop view =>
      obtain ⟨rfl, -⟩ := View.bumpNonce_eq_error hv
      unfold createIn
      rw [createWith_of_unbumped (c := c.padded zeros) hn hv,
        createWith_of_unbumped (c := c.padded zeros') hn hv]
    | ok _ view =>
      unfold createIn at ends ⊢
      rw [createWith_of_bumped (c := c.padded zeros) hn hv] at ends ⊢
      rw [createWith_of_bumped (c := c.padded zeros') hn hv, told_named, told_named]
      have hstart := c.recoded_machine env w view
      refine congrArg (Except.map _) (told_settle
        (Exec.enterCreation_padded hzero hsize hstart (c.address env w) steps zeros zeros') ?_)
      intro hcut
      exact ends (congrArg (Except.map _) hcut)

end

/-- **Zeros behind the code of a creation make no difference.** If `STOP` costs nothing, and the
code does not ask for its size, then the creation and the one with any number of zeros behind its
code end alike, wherever one of them ends: with the same output, address and gas left, on the same
view, after the same total cost, and for the same error, up to the place that an invalid jump
carries. -/
theorem trailing_zeros_unseen (env : Setting) (hzero : env.params.instructions.zero = 0)
    (c : Creation) (hsize : Code.Sizeless c.initCode) (zeros : Nat) (w : World) :
    (∀ steps,
      (createIn steps env c w ≠ .error .unfinished →
        told (createIn (steps + 1) env (c.padded zeros) w) = told (createIn steps env c w)) ∧
      (createIn steps env (c.padded zeros) w ≠ .error .unfinished →
        told (createIn (steps + 1) env c w) = told (createIn steps env (c.padded zeros) w))) ∧
    (env.params.JumpsCost →
      told ((c.padded zeros).perform env w) = told (c.perform env w)) := by
  have hself : c.padded 0 = c := by
    unfold Creation.padded
    rw [Code.padded_zero]
  have hsame : ∀ steps, createIn steps env c w ≠ .error .unfinished →
      told (createIn (steps + 1) env (c.padded zeros) w) = told (createIn steps env c w) := by
    intro steps ends
    rw [← hself] at ends
    have h := told_createIn_padded hzero hsize 0 zeros ends
    rwa [hself] at h
  refine ⟨fun steps => ⟨hsame steps, fun ends => ?_⟩, fun hj => ?_⟩
  · have h := told_createIn_padded hzero hsize zeros 0 ends
    rwa [hself] at h
  · have hends := c.perform_ends env hj w
    have h := hsame _ hends
    have hends' : createIn (stepsFor env.params c.gas (longestCode env w c.initCode) + 1) env
        (c.padded zeros) w ≠ .error .unfinished := by
      intro hcut
      rw [hcut] at h
      exact hends (eq_error_of_map h.symm)
    have hperform : _ = (c.padded zeros).perform env w :=
      createIn_unique hends' ((c.padded zeros).perform_ends env hj w)
    rw [← hperform]
    exact h

/-! ### Code that is cut off -/

namespace CutOff

/-- Account 1 creates. -/
def setting : Setting where
  params := .standard
  context := ⟨⟨1⟩, .zero, 0, 0, 100000, .zero, View.canTransfer⟩
  store := .ofAccounts [(⟨1⟩, ⟨4, 1000, .zero⟩)]

/-- Nothing has been changed or counted. -/
def world : World := ⟨.fresh, .untracked⟩

/-- Writes 3 to slot 1, and ends in a `PUSH2` that has one byte of data. -/
def writing : Creation := ⟨⟨1⟩, [0x60, 3, 0x60, 1, 0x55, 0x61, 7], 100000, 10, 0⟩

/-- Jumps to place 9, and has three bytes. -/
def jumping : Creation := ⟨⟨1⟩, [0x60, 9, 0x56], 100000, 10, 0⟩

theorem sizeless_writing : Code.Sizeless writing.initCode := by
  intro i hstart
  have hplace : i ∈ [0, 2, 4, 5] := hstart.mem_of_closed (by decide) (by decide +kernel)
  have hbytes : ∀ j ∈ [0, 2, 4, 5], writing.initCode[j]? ≠ some 0x38 := by decide +kernel
  exact hbytes i hplace

theorem sizeless_jumping : Code.Sizeless jumping.initCode := by
  intro i hstart
  have hplace : i ∈ [0, 2] := hstart.mem_of_closed (by decide) (by decide +kernel)
  have hbytes : ∀ j ∈ [0, 2], jumping.initCode[j]? ≠ some 0x38 := by decide +kernel
  exact hbytes i hplace

/-- Whether a frame has failed, and why. -/
def error? (answer : Except Abort (FrameResult × World)) : Option (Option LedgerError) :=
  answer.toOption.map (·.1.error)

end CutOff

open CutOff in
/-- One creation that jumps behind its code, which is refused with the place where the code ends,
and one that runs off its end. -/
theorem trailing_zeros_unseen_cut :
    setting.params.instructions.zero = 0 ∧ setting.params.JumpsCost ∧
    Code.Sizeless jumping.initCode ∧ Code.Sizeless writing.initCode ∧
    error? (createIn 6 setting (jumping.padded 2) world) = some (some (.invalidJump 5)) ∧
    told (createIn 7 setting jumping world) = told (createIn 6 setting (jumping.padded 2) world) ∧
    told ((writing.padded 2).perform setting world) = told (writing.perform setting world) := by
  have hzero : setting.params.instructions.zero = 0 := rfl
  have hjumps : setting.params.JumpsCost := by decide
  have hran : error? (createIn 6 setting (jumping.padded 2) world)
      = some (some (.invalidJump 5)) := by decide +kernel
  have ends : createIn 6 setting (jumping.padded 2) world ≠ .error .unfinished := by
    intro hcut
    rw [hcut] at hran
    cases hran
  obtain ⟨jumped, -⟩ := trailing_zeros_unseen setting hzero jumping sizeless_jumping 2 world
  obtain ⟨-, performed⟩ :=
    trailing_zeros_unseen setting hzero writing sizeless_writing 2 world
  exact ⟨hzero, hjumps, sizeless_jumping, sizeless_writing, hran, (jumped 6).2 ends,
    performed hjumps⟩

end MeteredLedger
