import MeteredLedger.Proofs.Machine.Moves

/-!
# Where an instruction leads

An instruction leads on in the code, behind the bytes that it carries, or to a place that jumps
may lead to, or out of the frame, or it asks for another frame and stays where it is
(`Exec.step_leads`). Only `JUMP` and `JUMPI` jump, and only `CALL` and `CREATE` ask. What it
hands out of memory, the output of the frame or the code that a contract is created with, is no
longer than a region can be.

An instruction is never cut off (`Stop.Decided`): for that a run must be out of steps.
-/

namespace MeteredLedger

/-- The run has not been cut off. -/
def Stop.Decided (stop : Stop) : Prop := stop ≠ .abort .unfinished

theorem Stop.decided_error (e : LedgerError) : Stop.Decided (.error e) := nofun

theorem Stop.decided_fault (f : Fault) : Stop.Decided (.fault f) := nofun

/-- What a frame hands out when it ends. -/
def Exit.output : Exit → Bytes
  | .returned output | .reverted output => output

/-- No more is read than is asked for. -/
theorem Memory.length_read {memory : Memory} {offset size : Nat} {bs : Bytes}
    (h : memory.read offset size = .ok bs) : bs.length ≤ size := by
  unfold read at h
  split_ifs at h
  · cases h
    exact Nat.zero_le _
  · cases h
    simp only [Array.length_toList, Array.size_extract]
    omega

/-- **The frame stays at its place.** -/
structure Machine.Stays (m m' : Machine) : Prop where
  pc : m'.frame.pc = m.frame.pc
  targets : m'.frame.targets = m.frame.targets

namespace Machine.Stays

theorem refl (m : Machine) : m.Stays m := ⟨rfl, rfl⟩

theorem trans {a b c : Machine} (h : a.Stays b) (h' : b.Stays c) : a.Stays c :=
  ⟨h'.pc.trans h.pc, h'.targets.trans h.targets⟩

end Machine.Stays

/-- **Where an instruction leads.** -/
inductive Leads (op : Opcode) (m : Machine) : Control → Machine → Prop where
  /-- On in the code, behind what the instruction carries. -/
  | next {m' : Machine} (pc : m'.frame.pc = m.frame.pc + op.carried) : Leads op m .next m'
  /-- To a place that jumps may lead to. -/
  | jumped {m' : Machine} (jumps : op = .jump ∨ op = .jumpi)
      (target : m.frame.targets[m'.frame.pc]? = some true) : Leads op m .jumped m'
  /-- Out of the frame. -/
  | exit {how : Exit} {m' : Machine} (short : how.output.length ≤ Exec.regionBound) :
      Leads op m (.exit how) m'
  /-- Into a frame that is called. -/
  | call {c : Call} {offset size : Nat} {m' : Machine} (asks : op = .call) (stays : m.Stays m') :
      Leads op m (.call c offset size) m'
  /-- Into a frame that makes a contract. -/
  | create {c : Creation} {m' : Machine} (asks : op = .create) (stays : m.Stays m')
      (short : c.initCode.length ≤ Exec.regionBound) : Leads op m (.create c) m'

theorem Leads.after {op : Opcode} {m m₁ m₂ : Machine} {ctl : Control} (h : m.Stays m₁)
    (hl : Leads op m₁ ctl m₂) : Leads op m ctl m₂ := by
  cases hl with
  | next pc => exact .next (h.pc ▸ pc)
  | jumped jumps target => exact .jumped jumps (h.targets ▸ target)
  | exit short => exact .exit short
  | call asks stays => exact .call asks (h.trans stays)
  | create asks stays short => exact .create asks (h.trans stays) short

namespace Exec

variable {α β : Type} {op : Opcode} {P : β → Prop} {x : Exec α}

/-- **The action stays at its place**, hands out something in `P`, and is not cut off. -/
def StaysTo (P : α → Prop) (x : Exec α) : Prop :=
  ∀ m, Meets x m (fun a m' => m.Stays m' ∧ P a) fun stop _ => stop.Decided

/-- The action stays at its place, and is not cut off. -/
abbrev Stays (x : Exec α) : Prop := StaysTo (fun _ => True) x

/-- **The action leads where its instruction may lead**, and is not cut off. -/
def LeadsOn (op : Opcode) (x : Exec Control) : Prop :=
  ∀ m, Meets x m (fun ctl m' => Leads op m ctl m') fun stop _ => stop.Decided

/-! ### Putting actions together -/

theorem Stays.bind {f : α → Exec β} (hx : Stays x) (hf : ∀ a, StaysTo P (f a)) :
    StaysTo P (x >>= f) := by
  intro m
  refine Meets.bind ((hx m).mono ?_ fun _ _ h => h)
  rintro a m₁ ⟨h, -⟩
  exact (hf a m₁).mono (fun _ _ h' => ⟨h.trans h'.1, h'.2⟩) fun _ _ h' => h'

/-- What an action leads to that comes after another one, of which it knows what it hands
out. -/
theorem StaysTo.leads {P : α → Prop} {f : α → Exec Control} (hx : StaysTo P x)
    (hf : ∀ a, P a → LeadsOn op (f a)) : LeadsOn op (x >>= f) := by
  intro m
  refine Meets.bind ((hx m).mono ?_ fun _ _ h => h)
  rintro a m₁ ⟨h, ha⟩
  exact (hf a ha m₁).mono (fun _ _ h' => h'.after h) fun _ _ h' => h'

theorem Stays.leads {f : α → Exec Control} (hx : Stays x) (hf : ∀ a, LeadsOn op (f a)) :
    LeadsOn op (x >>= f) := StaysTo.leads hx fun a _ => hf a

theorem staysTo_pure {b : β} (h : P b) : StaysTo P (pure b) := fun m => Meets.pure ⟨.refl m, h⟩

theorem stays_pure (a : α) : Stays (pure a) := staysTo_pure trivial

theorem leads_next (bare : op.carried = 0) : LeadsOn op (pure .next) :=
  fun m => Meets.pure (.next (by rw [bare, Nat.add_zero]))

/-- An action that goes on to the next instruction when it is done. -/
theorem Stays.next (hx : Stays x) (bare : op.carried = 0) :
    LeadsOn op (x >>= fun _ => pure .next) := hx.leads fun _ => leads_next bare

theorem staysTo_fail (e : LedgerError) : StaysTo P (fail e) := fun _ => Meets.throw nofun

theorem leads_fail (e : LedgerError) : LeadsOn op (fail e) := fun _ => Meets.throw nofun

theorem stays_inspect (g : Machine → α) : Stays (inspect g) := fun m => ⟨.refl m, trivial⟩

theorem stays_modifyFrame {g : Frame → Frame}
    (h : ∀ f, (g f).pc = f.pc ∧ (g f).targets = f.targets) : Stays (modifyFrame g) :=
  fun m => ⟨⟨(h m.frame).1, (h m.frame).2⟩, trivial⟩

theorem stays_modifyView (g : View → View) : Stays (modifyView g) :=
  fun _ => ⟨⟨rfl, rfl⟩, trivial⟩

theorem stays_orFail (r : Except LedgerError α) : Stays (orFail r) := by
  cases r with
  | ok a => exact stays_pure a
  | error e => exact staysTo_fail e

theorem stays_orFault (r : Except Fault α) : Stays (orFault r) := by
  cases r with
  | ok a => exact stays_pure a
  | error f => exact fun _ => Meets.throw (Stop.decided_fault f)

/-! ### Gas -/

theorem decided_consume {gas : Meter} {amount : Gas} {label : String} {stop : Stop}
    (h : gas.consume amount label = .error stop) : stop.Decided := by
  obtain ⟨available, rfl⟩ | rfl := consume_error h
  · exact Stop.decided_error _
  · exact Stop.decided_fault _

theorem stays_charge (amount : Gas) (label : String) : Stays (charge amount label) := by
  intro m
  unfold Meets charge
  cases h : m.gas.consume amount label with
  | ok gas => exact ⟨⟨rfl, rfl⟩, trivial⟩
  | error stop => exact decided_consume h

theorem stays_setAside (amount : Gas) (label : String) : Stays (setAside amount label) := by
  intro m
  unfold Meets setAside
  cases h : m.gas.consume amount label with
  | ok gas => exact ⟨⟨rfl, rfl⟩, trivial⟩
  | error stop => exact decided_consume h

theorem stays_chargeWords (price : Gas) (size : Nat) (op : Opcode) :
    Stays (chargeWords price size op) := stays_charge _ _

/-! ### The stack -/

theorem stays_push (w : Word) : Stays (push w) :=
  (stays_inspect _).bind fun _ => (stays_orFail _).bind fun _ =>
    stays_modifyFrame fun _ => ⟨by rfl, by rfl⟩

theorem stays_pop : Stays pop :=
  (stays_inspect _).bind fun _ => (stays_orFail _).bind fun (w, _) =>
    (stays_modifyFrame fun _ => ⟨by rfl, by rfl⟩).bind fun _ => stays_pure w

theorem stays_popMany (count : Nat) : Stays (popMany count) :=
  (stays_inspect _).bind fun _ => (stays_orFail _).bind fun (ws, _) =>
    (stays_modifyFrame fun _ => ⟨by rfl, by rfl⟩).bind fun _ => stays_pure ws

theorem stays_popTwo : Stays popTwo := (stays_popMany 2).bind fun _ => stays_pure _

theorem stays_popThree : Stays popThree := (stays_popMany 3).bind fun _ => stays_pure _

/-! ### Memory -/

theorem stays_onMemory (act : Memory → Except Fault Memory) : Stays (onMemory act) := by
  intro m
  unfold Meets onMemory
  cases h : act m.frame.memory with
  | ok memory =>
    simp only [h]
    exact ⟨⟨rfl, rfl⟩, trivial⟩
  | error f =>
    simp only [h]
    exact Stop.decided_fault f

theorem stays_writeMemory (offset : Nat) (bs : Bytes) : Stays (writeMemory offset bs) :=
  stays_onMemory _

/-- Memory is read for no more than has been asked for. -/
theorem staysTo_readMemory (offset size : Nat) :
    StaysTo (fun bs : Bytes => bs.length ≤ size) (readMemory offset size) := by
  intro m
  refine meets_inspect ?_
  cases h : m.frame.memory.read offset size with
  | ok bs => exact ⟨.refl m, Memory.length_read h⟩
  | error f => exact Stop.decided_fault f

theorem stays_readMemory (offset size : Nat) : Stays (readMemory offset size) :=
  (stays_inspect _).bind fun _ => stays_orFault _

/-- A region is no larger than the bound. -/
theorem staysTo_region (costs : EffectCosts) (offset size : Word) :
    StaysTo (fun r => r.2 ≤ regionBound) (region costs offset size) := by
  have pay : size.toNat ≤ regionBound → StaysTo (fun r : Nat × Nat => r.2 ≤ regionBound) (do
      let current ← inspect (·.frame.memory.size)
      let cost ← orFault (Memory.growthCost costs current (offset.toNat + size.toNat))
      charge cost "memory"
      onMemory (·.grow (offset.toNat + size.toNat))
      return (offset.toNat, size.toNat)) := fun hsize =>
    (stays_inspect _).bind fun _ => (stays_orFault _).bind fun cost =>
      (stays_charge cost "memory").bind fun _ => (stays_onMemory _).bind fun _ =>
        staysTo_pure hsize
  unfold region
  by_cases hzero : size = 0
  · rw [if_pos hzero]
    exact staysTo_pure (Nat.zero_le _)
  · rw [if_neg hzero]
    by_cases hfar : regionBound < offset.toNat ∨ regionBound < size.toNat
    · rw [if_pos hfar]
      exact (stays_inspect _).bind fun _ _ => Meets.bind (Meets.throw nofun)
    · rw [if_neg hfar]
      exact pay (Nat.le_of_not_lt fun h => hfar (.inr h))

theorem stays_region (costs : EffectCosts) (offset size : Word) :
    Stays (region costs offset size) :=
  fun m => (staysTo_region costs offset size m).mono (fun _ _ h => ⟨h.1, trivial⟩) fun _ _ h => h

theorem stays_copyToMemory (costs : EffectCosts) (op : Opcode) (source : Frame → Array UInt8) :
    Stays (copyToMemory costs op source) := by
  rw [copyToMemory_eq]
  exact stays_popThree.bind fun (_, _, _) => (stays_region _ _ _).bind fun (_, _) =>
    (stays_chargeWords _ _ _).bind fun _ => (stays_inspect _).bind fun _ => stays_writeMemory _ _

/-! ### Instructions with a part of their own -/

theorem target_of_jumpTarget {f : Frame} {dest : Word} {target : Nat}
    (h : f.jumpTarget dest = .ok target) : f.targets[target]? = some true := by
  unfold Frame.jumpTarget at h
  dsimp only at h
  split_ifs at h with ht
  cases h
  cases hf : f.targets[clampOffset dest f.code.size]? with
  | none => simp [hf] at ht
  | some b =>
    rw [hf] at ht
    rw [show b = true from ht]

theorem leads_jumpTo (jumps : op = .jump ∨ op = .jumpi) (dest : Word) :
    LeadsOn op (jumpTo dest) := by
  intro m
  refine Meets.bind (meets_inspect ?_)
  cases h : m.frame.jumpTarget dest with
  | ok target => exact Leads.jumped jumps (target_of_jumpTarget h)
  | error e => exact Stop.decided_error e

theorem leads_decline (bare : op.carried = 0) : LeadsOn op decline :=
  (stays_modifyFrame fun _ => ⟨by rfl, by rfl⟩).leads fun _ => (stays_push 0).next bare

theorem stays_depthBelow : Stays depthBelow := by
  refine (stays_inspect _).bind fun depth => ?_
  show Stays (if depth + 1 < UInt64.size then pure (depth + 1)
    else throw (Stop.fault .depthOverflow))
  split_ifs
  · exact stays_pure _
  · exact fun _ => Meets.throw (Stop.decided_fault _)

theorem leads_create (costs : EffectCosts) : LeadsOn .create (create costs) := by
  refine stays_popThree.leads fun (value, offset, size) => ?_
  refine (staysTo_region costs offset size).leads fun (offset, size) hsize => ?_
  refine (staysTo_readMemory offset size).leads fun initCode hcode => ?_
  cases wordWei? value with
  | none => exact leads_decline rfl
  | some value =>
    exact (stays_inspect _).leads fun _ => (stays_setAside _ _).leads fun _ =>
      stays_depthBelow.leads fun _ => (stays_inspect _).leads fun _ =>
        fun m => Meets.pure (.create rfl (.refl m) (hcode.trans hsize))

theorem leads_call (costs : EffectCosts) : LeadsOn .call (call costs) := by
  refine (stays_popMany 7).leads fun ws => (stays_region _ _ _).leads fun (_, _) => ?_
  refine (stays_region _ _ _).leads fun (_, _) => (stays_readMemory _ _).leads fun input => ?_
  cases wordWei? (ws.get 2) with
  | none => exact leads_decline rfl
  | some value =>
    exact (stays_inspect _).leads fun _ => (stays_setAside _ _).leads fun _ =>
      stays_depthBelow.leads fun _ => (stays_inspect _).leads fun _ =>
        fun m => Meets.pure (.call rfl (.refl m))

theorem stays_log (costs : EffectCosts) (count : Nat) : Stays (log costs count) :=
  stays_popTwo.bind fun (_, _) => (stays_popMany count).bind fun _ =>
    (stays_region _ _ _).bind fun (_, _) => (stays_charge _ _).bind fun _ =>
      (stays_readMemory _ _).bind fun _ => (stays_inspect _).bind fun _ => stays_modifyView _

theorem stays_sstore (env : Setting) : Stays (sstore env) :=
  stays_popTwo.bind fun (_, _) => (stays_inspect _).bind fun _ => (stays_inspect _).bind fun _ =>
    (stays_charge _ _).bind fun _ => stays_modifyView _

theorem leads_finish (costs : EffectCosts) {how : Bytes → Exit}
    (h : ∀ bs, (how bs).output = bs) : LeadsOn op (finish costs how) := by
  refine stays_popTwo.leads fun (offset, size) => ?_
  refine (staysTo_region costs offset size).leads fun (offset, size) hsize => ?_
  refine (staysTo_readMemory offset size).leads fun bs hbs => ?_
  exact fun _ => Meets.pure (.exit (by rw [h]; exact hbs.trans hsize))

/-! ### All instructions -/

/-- Where an instruction leads once its constant cost is paid. -/
theorem perform_leads (env : Setting) (op : Opcode) : LeadsOn op (perform env op) := by
  cases op with
  | stop => exact fun _ => Meets.pure (.exit (Nat.zero_le _))
  | binary f => exact stays_popTwo.leads fun (_, _) => (stays_push _).next rfl
  | unary f => exact stays_pop.leads fun _ => (stays_push _).next rfl
  | keccak256 =>
    exact stays_popTwo.leads fun (_, _) => (stays_region _ _ _).leads fun (_, _) =>
      (stays_chargeWords _ _ _).leads fun _ => (stays_readMemory _ _).leads fun _ =>
        (stays_push _).next rfl
  | reading r => exact (stays_inspect _).leads fun _ => (stays_push _).next rfl
  | balance =>
    exact stays_pop.leads fun _ => (stays_inspect _).leads fun _ => (stays_push _).next rfl
  | callDataLoad =>
    exact stays_pop.leads fun _ => (stays_inspect _).leads fun _ => (stays_push _).next rfl
  | callDataCopy => exact (stays_copyToMemory _ _ _).next rfl
  | codeCopy => exact (stays_copyToMemory _ _ _).next rfl
  | blockHash => exact stays_pop.leads fun _ => (stays_push _).next rfl
  | pop => exact stays_pop.next rfl
  | mload =>
    exact stays_pop.leads fun _ => (stays_region _ _ _).leads fun (_, _) =>
      (stays_inspect _).leads fun _ => (stays_orFault _).leads fun _ => (stays_push _).next rfl
  | mstore =>
    exact stays_popTwo.leads fun (_, _) => (stays_region _ _ _).leads fun (_, _) =>
      (stays_writeMemory _ _).next rfl
  | mstore8 =>
    exact stays_popTwo.leads fun (_, _) => (stays_region _ _ _).leads fun (_, _) =>
      (stays_writeMemory _ _).next rfl
  | sload =>
    exact (stays_charge _ _).leads fun _ => stays_pop.leads fun _ => (stays_inspect _).leads
      fun _ => (stays_push _).next rfl
  | sstore => exact (stays_sstore env).next rfl
  | jump => exact stays_pop.leads fun dest => leads_jumpTo (.inl rfl) dest
  | jumpi =>
    refine stays_popTwo.leads fun (dest, condition) => ?_
    show LeadsOn _ (if condition = 0 then pure .next else jumpTo dest)
    split_ifs
    · exact leads_next rfl
    · exact leads_jumpTo (.inr rfl) dest
  | jumpdest => exact leads_next rfl
  | push size =>
    refine (stays_inspect _).leads fun _ => (stays_push _).leads fun _ m => Meets.bind ?_
    exact Leads.next rfl
  | dup position =>
    exact (stays_inspect _).leads fun _ => (stays_orFail _).leads fun _ =>
      (stays_modifyFrame fun _ => ⟨by rfl, by rfl⟩).next rfl
  | swap position =>
    exact (stays_inspect _).leads fun _ => (stays_orFail _).leads fun _ =>
      (stays_modifyFrame fun _ => ⟨by rfl, by rfl⟩).next rfl
  | log count => exact (stays_log _ count).next rfl
  | create => exact leads_create _
  | call => exact leads_call _
  | ret => exact leads_finish _ fun _ => rfl
  | revert => exact leads_finish _ fun _ => rfl
  | invalid byte => exact leads_fail _

/-- **Where an instruction leads**: on, to a target of jumps, out of the frame or into another
one. -/
theorem step_leads (env : Setting) (byte : UInt8) :
    LeadsOn (Opcode.ofByte byte) (step env byte) := by
  unfold step
  dsimp only
  split
  · exact leads_fail _
  · exact (stays_charge _ _).leads fun _ => perform_leads env _

end Exec

end MeteredLedger
