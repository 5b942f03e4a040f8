import MeteredLedger.Proofs.Gas.Meters
import MeteredLedger.Proofs.Machine.Decoding
import MeteredLedger.Proofs.Machine.Likeness

/-!
# Zeros behind the code

Code is read as if it had no end, with zeros behind it. So it makes little difference if zeros are
put behind it (`Code.padded`): the same is read from it, and instructions start and jumps lead at
the same places of it. Two machines whose codes are the same but for such zeros (`Machine.Recoded`)
are alike for code (`likeness_recoded`).

What code can still tell is how long it is. `CODESIZE` shows that; and the place of a jump that is
refused is cut off at the end of the code, so that the error carries another number. If errors are
taken without that number (`Exec.unplaced`), all instructions but `CODESIZE` do the same on both
machines (`Exec.step_recoded`).
-/

namespace MeteredLedger

/-! ### Code -/

namespace Code

/-- The code with so many zero bytes behind it. -/
def padded (code : Bytes) (zeros : Nat) : Bytes := code ++ List.replicate zeros 0

variable {code : Bytes} {zeros i : Nat}

@[simp] theorem padded_zero (code : Bytes) : padded code 0 = code := List.append_nil code

theorem length_le_padded (code : Bytes) (zeros : Nat) : code.length ≤ (padded code zeros).length :=
  (List.prefix_append _ _).length_le

theorem getElem?_padded (hi : i < code.length) (zeros : Nat) :
    (padded code zeros)[i]? = code[i]? := List.getElem?_append_left hi

/-- Behind the code there are zeros, or there is nothing. -/
theorem getElem?_padded_behind (hi : code.length ≤ i) (zeros : Nat) :
    (padded code zeros)[i]? = none ∨ (padded code zeros)[i]? = some 0 := by
  rw [padded, List.getElem?_append_right hi, List.getElem?_replicate]
  split_ifs
  · exact .inr rfl
  · exact .inl rfl

/-- **What is read from the code is the same.** -/
theorem endless_padded (code : Bytes) (zeros : Nat) :
    Bytes.endless (padded code zeros).toArray = Bytes.endless code.toArray := by
  funext i
  unfold Bytes.endless
  rw [List.getElem?_toArray, List.getElem?_toArray]
  obtain hi | hi := Nat.lt_or_ge i code.length
  · rw [getElem?_padded hi zeros]
  · rw [List.getElem?_eq_none hi]
    obtain h | h := getElem?_padded_behind hi zeros
    · rw [h]
    · rw [h]
      rfl

/-- **Instructions start at the same places** of the code. -/
theorem starts_padded (hi : i < code.length) : Starts (padded code zeros) i ↔ Starts code i := by
  constructor
  · intro h
    induction h with
    | front _ => exact .front hi
    | @next i b _ byte _ ih =>
      have hinside : i < code.length := by omega
      rw [getElem?_padded hinside zeros] at byte
      exact (ih hinside).next byte hi
  · intro h
    have hle := length_le_padded code zeros
    induction h with
    | front _ => exact .front (hi.trans_le hle)
    | @next i b start byte _ ih =>
      have hinside := start.lt
      rw [← getElem?_padded hinside zeros] at byte
      exact (ih hinside).next byte (hi.trans_le hle)

/-- **Jumps may lead to the same places**, none of which is behind the code. -/
theorem target_padded :
    (jumpTargets (padded code zeros))[i]? = some true ↔ (jumpTargets code)[i]? = some true := by
  rw [jumpTargets_eq_true_iff, jumpTargets_eq_true_iff]
  obtain hi | hi := Nat.lt_or_ge i code.length
  · rw [getElem?_padded hi zeros, starts_padded hi]
  · rw [List.getElem?_eq_none hi]
    obtain h | h := getElem?_padded_behind hi zeros <;> simp [h]

/-- **The code does not ask for its size**: no instruction of it is `CODESIZE`. -/
def Sizeless (code : Bytes) : Prop := ∀ i, Starts code i → code[i]? ≠ some 0x38

/-- Neither does it with zeros behind it. -/
theorem Sizeless.padded (h : Sizeless code) (zeros : Nat) : Sizeless (padded code zeros) := by
  intro i start
  obtain hi | hi := Nat.lt_or_ge i code.length
  · rw [getElem?_padded hi zeros]
    exact h i ((starts_padded hi).1 start)
  · obtain h | h := getElem?_padded_behind hi zeros <;> rw [h] <;> decide

end Code

/-! ### Frames -/

/-- **The frame runs this code**, with any number of zeros behind it, and knows where jumps may lead
in it. -/
structure Frame.Runs (f : Frame) (code : Bytes) : Prop where
  spells : ∃ zeros, f.code = (Code.padded code zeros).toArray
  targets : f.targets = (Code.jumpTargets f.code.toList).toArray

namespace Frame

variable {f f' : Frame} {code : Bytes}

/-- A frame at the front of its code runs it. -/
theorem runs_load (f : Frame) (code : Bytes) (zeros : Nat) :
    (f.load (Code.padded code zeros)).Runs code := ⟨⟨zeros, rfl⟩, rfl⟩

namespace Runs

theorem endless (h : f.Runs code) : Bytes.endless f.code = Bytes.endless code.toArray := by
  obtain ⟨zeros, hcode⟩ := h.spells
  rw [hcode, Code.endless_padded]

theorem length_le (h : f.Runs code) : code.length ≤ f.code.size := by
  obtain ⟨zeros, hcode⟩ := h.spells
  rw [hcode]
  exact Code.length_le_padded code zeros

theorem getElem?_code (h : f.Runs code) {i : Nat} (hi : i < code.length) :
    f.code[i]? = code[i]? := by
  obtain ⟨zeros, hcode⟩ := h.spells
  rw [hcode, List.getElem?_toArray, Code.getElem?_padded hi _]

theorem getElem?_behind (h : f.Runs code) {i : Nat} (hi : code.length ≤ i) :
    f.code[i]? = none ∨ f.code[i]? = some 0 := by
  obtain ⟨zeros, hcode⟩ := h.spells
  rw [hcode, List.getElem?_toArray]
  exact Code.getElem?_padded_behind hi _

theorem target (h : f.Runs code) (i : Nat) :
    f.targets[i]? = some true ↔ (Code.jumpTargets code)[i]? = some true := by
  obtain ⟨zeros, hcode⟩ := h.spells
  rw [h.targets, hcode, List.getElem?_toArray]
  exact Code.target_padded

/-- **Where a jump leads**, and where it is refused. -/
theorem jumpTarget (h : f.Runs code) (dest : Word) : f.jumpTarget dest =
    if (Code.jumpTargets code)[dest.toNat]? = some true then .ok dest.toNat
    else .error (.invalidJump (clampOffset dest f.code.size)) := by
  have marked : ∀ i, f.targets[i]?.getD false = true ↔
      (Code.jumpTargets code)[i]? = some true := fun i => by
    rw [← h.target]
    cases f.targets[i]? <;> simp
  unfold Frame.jumpTarget
  simp only [marked]
  by_cases hinside : (Code.jumpTargets code)[dest.toNat]? = some true
  · -- the place is inside the code, so that the word is not cut off
    have hlt := (List.getElem?_eq_some_iff.1 hinside).1
    rw [Code.length_jumpTargets] at hlt
    have hclamp : clampOffset dest f.code.size = dest.toNat :=
      Nat.min_eq_left (hlt.le.trans h.length_le)
    rw [hclamp]
  · have hclamp : (Code.jumpTargets code)[clampOffset dest f.code.size]? ≠ some true := by
      intro hmarked
      have hlt := (List.getElem?_eq_some_iff.1 hmarked).1
      rw [Code.length_jumpTargets] at hlt
      have hle := h.length_le
      unfold clampOffset at hlt hmarked
      rw [Nat.min_eq_left (by omega)] at hmarked
      exact hinside hmarked
    rw [if_neg hinside, if_neg hclamp]

/-- What goes on without touching the code runs it still. -/
theorem recoded (h : f.Runs code) {g : Frame → Frame}
    (recodes : ∀ f code targets, g (f.recode code targets) = (g f).recode code targets) :
    (g f).Runs code := by
  have hself : g f = (g f).recode f.code f.targets := recodes f f.code f.targets
  rw [hself]
  exact ⟨h.spells, h.targets⟩

end Runs

end Frame

/-! ### Machines -/

/-- **The second machine is the first one with other zeros behind its code**, and there is no more
gas consumed than there is. -/
structure Machine.Recoded (m m' : Machine) : Prop where
  world : m'.world = m.world
  gas : m'.gas = m.gas
  bare : m'.frame.bare = m.frame.bare
  runs : ∃ code, m.frame.Runs code ∧ m'.frame.Runs code
  within : ∀ limit, m.gas.limit = .bounded limit → m.gas.consumed ≤ limit

namespace Machine.Recoded

variable {m m' : Machine}

theorem pc (h : m.Recoded m') : m'.frame.pc = m.frame.pc := by
  show m'.frame.bare.pc = m.frame.bare.pc
  rw [h.bare]

theorem onFrame (h : m.Recoded m') {g : Frame → Frame}
    (recodes : ∀ f code targets, g (f.recode code targets) = (g f).recode code targets) :
    Recoded { m with frame := g m.frame } { m' with frame := g m'.frame } := by
  obtain ⟨code, hruns, hruns'⟩ := h.runs
  refine ⟨h.world, h.gas, ?_, ⟨code, hruns.recoded recodes, hruns'.recoded recodes⟩, h.within⟩
  calc (g m'.frame).bare = g m'.frame.bare := (recodes _ _ _).symm
    _ = g m.frame.bare := by rw [h.bare]
    _ = (g m.frame).bare := recodes _ _ _

theorem onWorld (h : m.Recoded m') (w : World) :
    Recoded { m with world := w } { m' with world := w } := ⟨rfl, h.gas, h.bare, h.runs, h.within⟩

theorem onView (h : m.Recoded m') (f : View → View) :
    Recoded (m.withView (f m.world.view)) (m'.withView (f m'.world.view)) := by
  show Recoded _ { m' with world := { m'.world with view := f m'.world.view } }
  rw [h.world]
  exact h.onWorld { m.world with view := f m.world.view }

/-- What is charged is charged on both, within the limit. -/
theorem onGas (h : m.Recoded m') {amount : Gas} {label : String} {gas : Meter}
    (paid : m.gas.consume amount label = .ok gas) :
    Recoded { m with gas } { m' with gas } := by
  obtain ⟨hlimit, hconsumed, hroom⟩ := Meter.consume_eq_ok paid
  refine ⟨h.world, rfl, h.bare, h.runs, fun limit hl => ?_⟩
  rw [UInt64.le_iff_toNat_le, hconsumed]
  exact hroom limit (hlimit.symm.trans hl)

end Machine.Recoded

/-- The stop is not for want of steps. -/
def Stop.IsFinal (stop : Stop) : Prop := stop ≠ .abort .unfinished

namespace Exec

theorem charge_recoded (amount : Gas) (label : String) :
    Follows Stop.IsFinal Machine.Recoded (charge amount label) (charge amount label) := by
  intro m m' hm
  unfold FollowsAt Meets charge
  rw [hm.gas]
  cases paid : m.gas.consume amount label with
  | error stop => exact fun _ => ⟨m', rfl, hm⟩
  | ok gas =>
    refine ⟨_, rfl, ?_⟩
    rw [hm.world]
    exact (hm.onGas paid).onWorld { m.world with ledger := m.world.ledger.record amount label }

theorem setAside_recoded (amount : Gas) (label : String) :
    Follows Stop.IsFinal Machine.Recoded (setAside amount label) (setAside amount label) := by
  intro m m' hm
  unfold FollowsAt Meets setAside
  rw [hm.gas]
  cases paid : m.gas.consume amount label with
  | error stop => exact fun _ => ⟨m', rfl, hm⟩
  | ok gas => exact ⟨_, rfl, hm.onGas paid⟩

theorem giveBack_recoded (amount : Gas) (label : String) :
    Follows Stop.IsFinal Machine.Recoded (giveBack amount label) (giveBack amount label) := by
  intro m m' hm
  refine ⟨_, rfl, hm.world, ?_, hm.bare, hm.runs, fun limit hl => ?_⟩
  · show m'.gas.refund amount label = m.gas.refund amount label
    rw [hm.gas]
  · have hback : (m.gas.refund amount label).consumed.toNat = m.gas.consumed.toNat - amount.toNat :=
      Meter.toNat_consumed_refund
    have hwithin := UInt64.le_iff_toNat_le.1 (hm.within limit hl)
    show (m.gas.refund amount label).consumed ≤ limit
    rw [UInt64.le_iff_toNat_le]
    omega

end Exec

/-- **Code cannot tell the zeros behind it**, but by its size. -/
theorem likeness_recoded (env : Setting) : Likeness env Stop.IsFinal Machine.Recoded where
  frame h := h.bare
  code h := by
    obtain ⟨code, hruns, hruns'⟩ := h.runs
    rw [hruns.endless, hruns'.endless]
  goOn h _ recodes := h.onFrame recodes
  sight h := by rw [h.world]
  write h slot value := h.onView (·.setSlot slot value)
  leave h log := h.onView (·.addLog log)
  pay := Exec.charge_recoded
  left h _ := by rw [h.gas]

/-! ### Errors without places -/

/-- The error without the place that an invalid jump carries. -/
def LedgerError.unplaced : LedgerError → LedgerError
  | .invalidJump _ => .invalidJump 0
  | e => e

/-- The stop without the place that an invalid jump carries. -/
def Stop.unplaced : Stop → Stop
  | .error e => .error e.unplaced
  | .abort a => .abort a

theorem Stop.isFinal_unplaced {stop : Stop} : stop.unplaced.IsFinal ↔ stop.IsFinal := by
  cases stop with
  | error e => exact ⟨fun _ => nofun, fun _ => nofun⟩
  | abort a => exact .rfl

namespace Exec

variable {α β : Type} {R : Machine → Machine → Prop}

/-- The action, whose errors are taken without the place that an invalid jump carries. -/
def unplaced (x : Exec α) : Exec α := fun m =>
  match x m with
  | .ok a m' => .ok a m'
  | .error stop m' => .error stop.unplaced m'

theorem unplaced_bind (x : Exec α) (f : α → Exec β) :
    unplaced (x >>= f) = unplaced x >>= fun a => unplaced (f a) := by
  funext m
  rw [bind_apply]
  unfold unplaced
  rw [bind_apply]
  cases x m <;> rfl

/-- What an action comes to if it gives a value. -/
theorem meets_unplaced {x : Exec α} {m : Machine} {Q : α → Machine → Prop}
    (h : Meets x m Q fun _ _ => True) : Meets (unplaced x) m Q fun _ _ => True := by
  unfold Meets unplaced at *
  cases hx : x m with
  | ok a m' =>
    rw [hx] at h
    exact h
  | error stop m' => trivial

theorem FollowsAt.unplaced {x x' : Exec α} {m m' : Machine}
    (h : FollowsAt Stop.IsFinal R x x' m m') :
    FollowsAt Stop.IsFinal R (unplaced x) (unplaced x') m m' := by
  unfold FollowsAt Meets Exec.unplaced at *
  cases hx : x m with
  | ok a m₁ =>
    rw [hx] at h
    obtain ⟨m₁', hx', h₁⟩ := h
    exact ⟨m₁', by rw [hx'], h₁⟩
  | error stop m₁ =>
    rw [hx] at h
    intro final
    obtain ⟨m₁', hx', h₁⟩ := h (Stop.isFinal_unplaced.1 final)
    exact ⟨m₁', by rw [hx'], h₁⟩

theorem Follows.unplaced {x x' : Exec α} (h : Follows Stop.IsFinal R x x') :
    Follows Stop.IsFinal R (unplaced x) (unplaced x') := fun m m' hm => (h m m' hm).unplaced

/-! ### Instructions -/

/-- **A jump leads to the same place or is refused**, whatever zeros are behind the code. -/
theorem jumpTo_recoded (dest : Word) :
    Follows Stop.IsFinal Machine.Recoded (unplaced (jumpTo dest)) (unplaced (jumpTo dest)) := by
  intro m m' hm
  obtain ⟨code, hruns, hruns'⟩ := hm.runs
  have jumps : ∀ m : Machine, m.frame.Runs code → unplaced (jumpTo dest) m =
      if (Code.jumpTargets code)[dest.toNat]? = some true then
        .ok .jumped { m with frame := { m.frame with pc := dest.toNat } }
      else .error (.error (.invalidJump 0)) m := by
    intro m hruns
    have hjump : jumpTo dest m = (do
        let target ← orFail (m.frame.jumpTarget dest)
        modifyFrame fun f => { f with pc := target }
        return Control.jumped : Exec Control) m := rfl
    unfold unplaced
    rw [hjump, hruns.jumpTarget]
    split_ifs <;> rfl
  unfold FollowsAt Meets
  rw [jumps m hruns, jumps m' hruns']
  split_ifs
  · exact ⟨_, rfl, hm.onFrame (g := fun f => { f with pc := dest.toNat }) fun _ _ _ => rfl⟩
  · exact fun _ => ⟨_, rfl, hm⟩

theorem ofByte_eq_codeSize {b : UInt8} : Opcode.ofByte b = .reading .codeSize ↔ b = 0x38 :=
  Bytes.forall_byte (P := fun b => Opcode.ofByte b = .reading .codeSize ↔ b = 0x38)
    (by decide +kernel) b

/-- **Every instruction but `CODESIZE` does the same**, whatever zeros are behind the code. -/
theorem step_recoded (env : Setting) {byte : UInt8} (hsize : byte ≠ 0x38) :
    Follows Stop.IsFinal Machine.Recoded (unplaced (step env byte)) (unplaced (step env byte)) := by
  have hlike := likeness_recoded env
  by_cases hjump : byte = 0x56
  · have hstep : step env byte = (do
        charge env.params.instructions.mid "JUMP"
        jumpTo (← pop)) := by rw [hjump]; rfl
    rw [hstep, unplaced_bind]
    refine (hlike.pay _ _).unplaced.bind fun _ => ?_
    rw [unplaced_bind]
    exact hlike.pop.unplaced.bind fun dest => jumpTo_recoded dest
  by_cases hjumpi : byte = 0x57
  · have hstep : step env byte = (do
        charge env.params.instructions.high "JUMPI"
        let words ← popTwo
        if words.2 = 0 then return .next else jumpTo words.1) := by rw [hjumpi]; rfl
    rw [hstep, unplaced_bind]
    refine (hlike.pay _ _).unplaced.bind fun _ => ?_
    rw [unplaced_bind]
    refine hlike.popTwo.unplaced.bind fun words => ?_
    split_ifs
    · exact follows_pure _
    · exact jumpTo_recoded words.1
  have hleft : ∀ m m' : Machine, m.Recoded m' → m'.gas.remaining = m.gas.remaining :=
    fun m m' hm => by rw [hm.gas]
  refine (hlike.step (fun _ => rfl) ?_ ?_ (fun _ => hlike.create hleft setAside_recoded _)
    fun _ => hlike.call hleft setAside_recoded _).unplaced
  · rintro r hr m m' hm
    have frame : ∀ {α : Type} (g : Frame → α), g m'.frame.bare = g m.frame.bare := hlike.shows hm
    cases r with
    | codeSize => exact absurd (ofByte_eq_codeSize.1 hr) hsize
    | address => exact frame fun f => addressWord f.address
    | caller => exact frame fun f => addressWord f.caller
    | callValue => exact frame fun f => f.value.setWidth 256
    | callDataSize => exact frame fun f => natWord f.input.size
    | returnDataSize => exact frame fun f => natWord f.returned.length
    | pc => exact frame fun f => natWord f.pc
    | memorySize => exact frame fun f => natWord f.memory.size
    | gas => exact congrArg (fun left : Gas => natWord left.toNat) (hleft m m' hm)
    | selfBalance =>
      have haddress : m'.frame.address = m.frame.address := frame (·.address)
      show (m'.world.view.balance env.store m'.frame.address).setWidth 256 = _
      rw [haddress, hm.world]
      rfl
    | origin | coinbase | timestamp | number | gasLimit => rfl
  · rintro (h | h)
    · exact absurd (Opcode.ofByte_eq_jump.1 h) hjump
    · exact absurd (Opcode.ofByte_eq_jumpi.1 h) hjumpi

end Exec

end MeteredLedger
