import Mathlib.Logic.Relation
import MeteredLedger.Proofs.Action
import MeteredLedger.Machine.Step

/-!
# What an instruction can do

Whatever instruction a frame carries out, it makes moves of four kinds only: it goes
on within its frame, pays for something out of its own gas, writes a slot of its own
account, or leaves a log in its own name (`Move`). An instruction that asks for
another frame then sets that frame's gas aside, and leaves it at that (`Ends`).
`step_performs` says so of all instructions at once, whether they end well or not;
what holds of every move holds of every instruction.

An instruction that fails does so for one of five causes (`LedgerError.isOfCode`),
and is never abandoned for a meter that disagrees.
-/

namespace MeteredLedger

/-- Whether an error is one that an instruction can fail for. -/
def LedgerError.isOfCode : LedgerError → Bool
  | .outOfGas .. | .invalidOpcode _ | .invalidJump _ | .stackUnderflow | .stackOverflow => true
  | _ => false

/-- How an instruction can stop: for an error of its own, or abandoned for anything
but a meter that disagrees. -/
def Stop.OfCode : Stop → Prop
  | .error e => e.isOfCode = true
  | .abort a => a ≠ .fault .meterMismatch

/-- What of a frame stays the same while it runs. -/
def Frame.fixed (f : Frame) : Frame :=
  { f with pc := 0, stack := .empty, memory := .empty, returned := [] }

/-- With another view. -/
def Machine.withView (m : Machine) (view : View) : Machine :=
  { m with world := { m.world with view } }

/-- With a charge paid, out of the gas that is left with it. -/
def Machine.charged (m : Machine) (gas : Meter) (amount : Gas) (label : String) : Machine :=
  { m with gas, world := { m.world with ledger := m.world.ledger.record amount label } }

/-- **A move of a frame.** -/
inductive Move (m : Machine) : Machine → Prop where
  /-- It goes on within itself. -/
  | goOn (f : Frame) (h : f.fixed = m.frame.fixed) : Move m { m with frame := f }
  /-- It pays for something. -/
  | pay {amount : Gas} {label : String} {gas : Meter} (h : m.gas.consume amount label = .ok gas) :
      Move m (m.charged gas amount label)
  /-- It writes a slot of its account. -/
  | write (key : Hash) (value : Bytes) :
      Move m (m.withView (m.world.view.setSlot ⟨m.frame.address, key⟩ value))
  /-- It leaves a log in its name. -/
  | leave (topics : List Hash) (data : Bytes) :
      Move m (m.withView (m.world.view.addLog ⟨m.frame.address, topics, data⟩))

theorem Move.fixed {m m' : Machine} (h : Move m m') : m'.frame.fixed = m.frame.fixed := by
  cases h with
  | goOn f h => exact h
  | pay h => rfl
  | write key value => rfl
  | leave topics data => rfl

/-- Any number of moves. -/
def Moves : Machine → Machine → Prop := Relation.ReflTransGen Move

namespace Moves

variable {m m₁ m₂ : Machine}

theorem refl (m : Machine) : Moves m m := Relation.ReflTransGen.refl

theorem one (h : Move m m₁) : Moves m m₁ := Relation.ReflTransGen.single h

theorem trans (h : Moves m m₁) (h' : Moves m₁ m₂) : Moves m m₂ := Relation.ReflTransGen.trans h h'

theorem fixed (h : Moves m m₁) : m₁.frame.fixed = m.frame.fixed := by
  induction h with
  | refl => rfl
  | tail _ h ih => exact h.fixed.trans ih

end Moves

/-- **A relation that moves keep to**, one after another. -/
structure Lasting (R : Machine → Machine → Prop) : Prop where
  refl : ∀ m, R m m
  trans : ∀ a b c, R a b → R b c → R a c
  move : ∀ a b, Move a b → R a b

/-- What every move keeps to is kept by any number of them. -/
theorem Lasting.moves {R : Machine → Machine → Prop} (hR : Lasting R) {m m₁ : Machine}
    (h : Moves m m₁) : R m m₁ := by
  induction h with
  | refl => exact hR.refl m
  | tail _ h ih => exact hR.trans _ _ _ ih (hR.move _ _ h)

/-- What is left of an instruction once it has made its moves: gas set aside for the
frame that it asks for, if it asks for one. -/
inductive Ends (m : Machine) : Control → Machine → Prop where
  | next : Ends m .next m
  | jumped : Ends m .jumped m
  | exit (how : Exit) : Ends m (.exit how) m
  /-- A call, by the frame's account and one level deeper. -/
  | call {c : Call} {gas : Meter} (offset size : Nat) (caller : c.caller = m.frame.address)
      (depth : c.depth = m.frame.depth + 1)
      (paid : m.gas.consume c.gas Opcode.call.label = .ok gas) :
      Ends m (.call c offset size) { m with gas }
  /-- A creation, by the frame's account and one level deeper. -/
  | create {c : Creation} {gas : Meter} (creator : c.creator = m.frame.address)
      (depth : c.depth = m.frame.depth + 1)
      (paid : m.gas.consume c.gas Opcode.create.label = .ok gas) :
      Ends m (.create c) { m with gas }

namespace Exec

variable {α β : Type} {x : Exec α}

/-- How an action stops whose machine keeps to `R`, for a reason in `S`. -/
def HaltsIn (S : Stop → Prop) (R : Machine → Machine → Prop) (m : Machine) (stop : Stop)
    (m' : Machine) : Prop :=
  S stop ∧ ∀ e, stop = .error e → R m m'

/-- **The action keeps to `R`**, whether it gives a value or an error, and stops for
reasons in `S` only. -/
def Keeps (S : Stop → Prop) (R : Machine → Machine → Prop) (x : Exec α) : Prop :=
  ∀ m, Meets x m (fun _ m' => R m m') (HaltsIn S R m)

/-- **The action makes moves, and nothing else.** -/
abbrev Makes (x : Exec α) : Prop := Keeps Stop.OfCode Moves x

/-- **The action makes moves, and then ends as an instruction may.** -/
def Performs (x : Exec Control) : Prop :=
  ∀ m, Meets x m (fun ctl m' => ∃ mid, Moves m mid ∧ Ends mid ctl m')
    (HaltsIn Stop.OfCode Moves m)

/-! ### Putting actions together -/

section

variable {S S' : Stop → Prop} {R R' : Machine → Machine → Prop}

theorem HaltsIn.mono {m m' : Machine} {stop : Stop} (h : HaltsIn S R m stop m')
    (hS : ∀ stop, S stop → S' stop) (hR : ∀ a b, R a b → R' a b) : HaltsIn S' R' m stop m' :=
  ⟨hS stop h.1, fun e he => hR _ _ (h.2 e he)⟩

theorem Keeps.mono (h : Keeps S R x) (hS : ∀ stop, S stop → S' stop)
    (hR : ∀ a b, R a b → R' a b) : Keeps S' R' x :=
  fun m => (h m).mono (fun _ _ h => hR _ _ h) fun _ _ h => h.mono hS hR

/-- The reasons for which an action stops, and nothing else of it. -/
theorem Keeps.stops (h : Keeps S R x) : Keeps S (fun _ _ => True) x :=
  h.mono (fun _ h => h) fun _ _ _ => trivial

theorem HaltsIn.after (trans : ∀ a b c, R a b → R b c → R a c) {m m₁ m₂ : Machine} {stop : Stop}
    (h : R m m₁) (hs : HaltsIn S R m₁ stop m₂) : HaltsIn S R m stop m₂ :=
  ⟨hs.1, fun e he => trans _ _ _ h (hs.2 e he)⟩

theorem Keeps.bind {f : α → Exec β} (trans : ∀ a b c, R a b → R b c → R a c) (hx : Keeps S R x)
    (hf : ∀ a, Keeps S R (f a)) : Keeps S R (x >>= f) := by
  intro m
  refine Meets.bind ((hx m).mono (fun a m₁ h => ?_) fun _ _ h => h)
  exact (hf a m₁).mono (fun _ _ h' => trans _ _ _ h h') fun _ _ h' => h'.after trans h

end

theorem Makes.bind {f : α → Exec β} (hx : Makes x) (hf : ∀ a, Makes (f a)) : Makes (x >>= f) :=
  Keeps.bind (fun _ _ _ => Moves.trans) hx hf

/-- What moves keep to is kept by an action that makes moves only. -/
theorem Makes.keeps {R : Machine → Machine → Prop} (hR : Lasting R) (hx : Makes x) :
    Keeps Stop.OfCode R x := hx.mono (fun _ h => h) fun _ _ => hR.moves

theorem Makes.performs {f : α → Exec Control} (hx : Makes x) (hf : ∀ a, Performs (f a)) :
    Performs (x >>= f) := by
  intro m
  refine Meets.bind ((hx m).mono (fun a m₁ h => ?_) fun _ _ h => h)
  refine (hf a m₁).mono (fun _ _ h' => ?_) fun _ _ h' =>
    HaltsIn.after (R := Moves) (fun _ _ _ => Moves.trans) h h'
  obtain ⟨mid, hm, he⟩ := h'
  exact ⟨mid, h.trans hm, he⟩

theorem makes_pure (a : α) : Makes (pure a) := fun m => Meets.pure (Moves.refl m)

theorem performs_next : Performs (pure .next) := fun m => Meets.pure ⟨m, .refl m, .next⟩

theorem performs_jumped : Performs (pure .jumped) := fun m => Meets.pure ⟨m, .refl m, .jumped⟩

theorem performs_exit (how : Exit) : Performs (pure (.exit how)) :=
  fun m => Meets.pure ⟨m, .refl m, .exit how⟩

/-- An action that goes on to the next instruction when it is done. -/
theorem Makes.next (hx : Makes x) : Performs (x >>= fun _ => pure .next) :=
  hx.performs fun _ => performs_next

theorem makes_fail {e : LedgerError} (h : e.isOfCode = true) : Makes (fail e : Exec α) :=
  fun m => Meets.throw ⟨h, fun _ _ => .refl m⟩

theorem performs_fail {e : LedgerError} (h : e.isOfCode = true) : Performs (fail e) :=
  fun m => Meets.throw ⟨h, fun _ _ => .refl m⟩

theorem makes_inspect (g : Machine → α) : Makes (inspect g) := fun m => Moves.refl m

/-- An action that goes on from what it has seen. -/
theorem meets_inspect {g : Machine → α} {f : α → Exec β} {m : Machine} {Q : β → Machine → Prop}
    {S : Stop → Machine → Prop} (h : Meets (f (g m)) m Q S) : Meets (inspect g >>= f) m Q S :=
  Meets.bind h

theorem makes_inspect_bind {g : Machine → α} {f : α → Exec β}
    (h : ∀ m, Meets (f (g m)) m (fun _ m' => Moves m m') (HaltsIn Stop.OfCode Moves m)) :
    Makes (inspect g >>= f) := fun m => meets_inspect (h m)

theorem makes_modifyFrame {g : Frame → Frame} (h : ∀ f, (g f).fixed = f.fixed) :
    Makes (modifyFrame g) := fun m => Moves.one (.goOn (g m.frame) (h m.frame))

theorem makes_orFail {r : Except LedgerError α} (h : ∀ e, r = .error e → e.isOfCode = true) :
    Makes (orFail r) := by
  cases r with
  | ok a => exact makes_pure a
  | error e => exact makes_fail (h e rfl)

theorem makes_orFault {r : Except Fault α} (h : ∀ f, r = .error f → f ≠ .meterMismatch) :
    Makes (orFault r) := by
  cases r with
  | ok a => exact makes_pure a
  | error f =>
    intro m
    refine Meets.throw ⟨fun hf => h f rfl ?_, nofun⟩
    cases hf
    rfl

/-! ### Gas -/

theorem consume_error {gas : Meter} {amount : Gas} {label : String} {stop : Stop}
    (h : gas.consume amount label = .error stop) :
    (∃ available, stop = .error (.outOfGas amount available)) ∨ stop = .fault .meterOverflow := by
  unfold Meter.consume Meter.check at h
  by_cases ha : gas.admits amount
  · rw [if_pos ha] at h
    unfold Meter.add at h
    cases hg : addGas? (gas.labelled label) amount with
    | some figure => simp [hg] at h
    | none =>
      simp only [hg, Except.error.injEq] at h
      exact .inr h.symm
  · rw [if_neg ha] at h
    simp only [Except.error.injEq] at h
    exact .inl ⟨_, h.symm⟩

theorem halts_consume {m : Machine} {amount : Gas} {label : String} {stop : Stop}
    (h : m.gas.consume amount label = .error stop) : HaltsIn Stop.OfCode Moves m stop m := by
  obtain ⟨available, rfl⟩ | rfl := consume_error h
  · exact ⟨rfl, fun _ _ => .refl m⟩
  · exact ⟨nofun, nofun⟩

/-- A charge is one move, in the frame as it is. -/
theorem charge_meets (amount : Gas) (label : String) (m : Machine) :
    Meets (charge amount label) m (fun _ m' => Move m m' ∧ m'.frame = m.frame)
      (HaltsIn Stop.OfCode Moves m) := by
  unfold Meets charge
  cases h : m.gas.consume amount label with
  | ok gas => exact ⟨.pay h, rfl⟩
  | error stop => exact halts_consume h

theorem charge_makes (amount : Gas) (label : String) : Makes (charge amount label) :=
  fun m => (charge_meets amount label m).mono (fun _ _ h => .one h.1) fun _ _ h => h

/-! ### The stack -/

theorem push_error {stack : Stack} {w : Word} {e : LedgerError} (h : stack.push w = .error e) :
    e = .stackOverflow := by
  unfold Stack.push at h
  split at h
  · cases h
  · cases h
    rfl

theorem push_makes (w : Word) : Makes (push w) := by
  refine (makes_inspect _).bind fun stack => (makes_orFail fun e h => ?_).bind fun stack =>
    makes_modifyFrame fun _ => by rfl
  rw [push_error h]
  rfl

theorem pop_makes : Makes pop := by
  refine (makes_inspect _).bind fun stack => ?_
  refine (makes_orFail fun e h => ?_).bind fun (w, stack) =>
    (makes_modifyFrame fun _ => by rfl).bind fun _ => makes_pure w
  unfold Stack.pop at h
  split at h
  · cases h
    rfl
  · cases h

theorem popMany_makes (n : Nat) : Makes (popMany n) := by
  refine (makes_inspect _).bind fun stack => ?_
  refine (makes_orFail fun e h => ?_).bind fun (w, stack) =>
    (makes_modifyFrame fun _ => by rfl).bind fun _ => makes_pure w
  unfold Stack.popMany at h
  split at h
  · cases h
  · cases h
    rfl

theorem popTwo_makes : Makes popTwo := (popMany_makes 2).bind fun _ => makes_pure _

theorem popThree_makes : Makes popThree := (popMany_makes 3).bind fun _ => makes_pure _

/-! ### Memory -/

theorem onMemory_makes {act : Memory → Except Fault Memory}
    (h : ∀ memory f, act memory = .error f → f ≠ .meterMismatch) : Makes (onMemory act) := by
  intro m
  unfold Meets onMemory
  cases ha : act m.frame.memory with
  | ok memory =>
    simp only [ha]
    exact .one (.goOn { m.frame with memory } rfl)
  | error f =>
    simp only [ha]
    refine ⟨fun hf => h _ f ha ?_, nofun⟩
    cases hf
    rfl

theorem read_error {memory : Memory} {offset size : Nat} {f : Fault}
    (h : memory.read offset size = .error f) : f = .outOfBounds := by
  unfold Memory.read at h
  split_ifs at h
  cases h
  rfl

theorem readMemory_makes (offset size : Nat) : Makes (readMemory offset size) := by
  refine makes_inspect_bind fun m => makes_orFault (fun f h => ?_) m
  rw [read_error h]
  decide

theorem writeMemory_makes (offset : Nat) (bs : Bytes) : Makes (writeMemory offset bs) := by
  refine onMemory_makes fun memory f h => ?_
  unfold Memory.write at h
  split_ifs at h
  cases h
  decide

theorem region_makes (costs : EffectCosts) (offset size : Word) :
    Makes (region costs offset size) := by
  have pay : ∀ limit current, Makes (do
      let cost ← orFault (Memory.growthCost costs current limit)
      charge cost "memory"
      onMemory (·.grow limit)
      return (offset.toNat, size.toNat)) := by
    intro limit current
    refine (makes_orFault fun f h => ?_).bind fun cost => (charge_makes cost _).bind fun _ =>
      (onMemory_makes fun memory f h => ?_).bind fun _ => makes_pure _
    · unfold Memory.growthCost at h
      dsimp only at h
      split_ifs at h
      cases h
      decide
    · unfold Memory.grow at h
      dsimp only at h
      split_ifs at h
      cases h
      decide
  unfold region
  split_ifs
  · exact makes_pure _
  · exact (makes_inspect _).bind fun _ => (makes_fail rfl).bind fun _ =>
      (makes_inspect _).bind fun current => pay _ current
  · exact (makes_inspect _).bind fun current => pay _ current

theorem chargeWords_makes (price : Gas) (size : Nat) (op : Opcode) :
    Makes (chargeWords price size op) := charge_makes _ _

theorem copyToMemory_makes (costs : EffectCosts) (op : Opcode) (source : Frame → Array UInt8) :
    Makes (copyToMemory costs op source) := by
  rw [copyToMemory_eq]
  exact popThree_makes.bind fun (target, _, size) => (region_makes costs target size).bind
    fun (offset, size) => (chargeWords_makes costs.copy size op).bind
    fun _ => (makes_inspect _).bind fun _ => writeMemory_makes offset _

/-! ### Instructions with a part of their own -/

theorem jumpTo_performs (dest : Word) : Performs (jumpTo dest) := by
  refine (makes_inspect_bind fun m => makes_orFail (fun e h => ?_) m).performs fun target =>
    (makes_modifyFrame fun _ => by rfl).performs fun _ => performs_jumped
  unfold Frame.jumpTarget at h
  dsimp only at h
  split_ifs at h
  cases h
  rfl

theorem decline_performs : Performs decline :=
  (makes_modifyFrame fun _ => by rfl).performs fun _ => (push_makes 0).next

theorem setAside_meets (gas : Gas) (label : String) (m : Machine) :
    Meets (setAside gas label) m
      (fun _ m' => ∃ left, m.gas.consume gas label = .ok left ∧ m' = { m with gas := left })
      (HaltsIn Stop.OfCode Moves m) := by
  unfold Meets setAside
  cases h : m.gas.consume gas label with
  | ok left => exact ⟨left, rfl, rfl⟩
  | error stop => exact halts_consume h

theorem depthBelow_meets (m : Machine) :
    Meets depthBelow m (fun depth m' => depth = m.frame.depth + 1 ∧ m' = m)
      (fun stop _ => stop = .fault .depthOverflow) := by
  refine Meets.bind ?_
  show Meets (if m.frame.depth + 1 < UInt64.size then pure (m.frame.depth + 1)
    else throw (Stop.fault .depthOverflow)) m _ _
  split_ifs
  · exact Meets.pure ⟨rfl, rfl⟩
  · exact Meets.throw rfl

theorem create_performs (costs : EffectCosts) : Performs (create costs) := by
  refine popThree_makes.performs fun (value, offset, size) => ?_
  refine (region_makes costs offset size).performs fun (offset, size) => ?_
  refine (readMemory_makes offset size).performs fun initCode => ?_
  cases wordWei? value with
  | none => exact decline_performs
  | some value =>
    intro m
    refine Meets.bind (Meets.bind ((setAside_meets _ _ m).mono ?_ fun _ _ h => h))
    rintro _ _ ⟨left, paid, rfl⟩
    refine Meets.bind ((depthBelow_meets _).mono ?_ ?_)
    · rintro _ _ ⟨rfl, rfl⟩
      exact ⟨m, .refl m, .create rfl rfl paid⟩
    · rintro _ _ rfl
      exact ⟨nofun, nofun⟩

theorem call_performs (costs : EffectCosts) : Performs (call costs) := by
  refine (popMany_makes 7).performs fun ws => ?_
  refine (region_makes costs (ws.get 3) (ws.get 4)).performs fun (inOffset, inSize) => ?_
  refine (region_makes costs (ws.get 5) (ws.get 6)).performs fun (outOffset, outSize) => ?_
  refine (readMemory_makes inOffset inSize).performs fun input => ?_
  cases wordWei? (ws.get 2) with
  | none => exact decline_performs
  | some value =>
    intro m
    refine Meets.bind (Meets.bind ((setAside_meets _ _ m).mono ?_ fun _ _ h => h))
    rintro _ _ ⟨left, paid, rfl⟩
    refine Meets.bind ((depthBelow_meets _).mono ?_ ?_)
    · rintro _ _ ⟨rfl, rfl⟩
      exact ⟨m, .refl m, .call outOffset outSize rfl rfl paid⟩
    · rintro _ _ rfl
      exact ⟨nofun, nofun⟩

theorem log_makes (costs : EffectCosts) (count : Nat) : Makes (log costs count) := by
  refine popTwo_makes.bind fun (offset, size) => (popMany_makes count).bind fun topics => ?_
  refine (region_makes costs offset size).bind fun (offset, size) => ?_
  refine (charge_makes _ _).bind fun _ => (readMemory_makes offset size).bind fun data => ?_
  exact makes_inspect_bind fun m => .one (.leave _ data)

theorem sstore_makes (env : Setting) : Makes (sstore env) := by
  refine popTwo_makes.bind fun (key, value) => makes_inspect_bind fun m => ?_
  refine Meets.bind (Meets.bind ((charge_meets _ _ m).mono ?_ fun _ _ h => h))
  rintro _ m' ⟨h, hf⟩
  -- the slot is named by the address read before the charge, which the charge leaves alone
  rw [← hf]
  exact (Moves.one h).trans (.one (.write ⟨key⟩ (slotValue value)))

theorem finish_performs (costs : EffectCosts) (how : Bytes → Exit) :
    Performs (finish costs how) :=
  popTwo_makes.performs fun (offset, size) => (region_makes costs offset size).performs
    fun (offset, size) => (readMemory_makes offset size).performs fun data =>
      performs_exit (how data)

/-! ### All instructions -/

/-- What an instruction does once its constant cost is paid. -/
theorem perform_performs (env : Setting) (op : Opcode) : Performs (perform env op) := by
  cases op with
  | stop => exact performs_exit _
  | binary f => exact popTwo_makes.performs fun (a, b) => (push_makes (f.eval a b)).next
  | unary f => exact pop_makes.performs fun a => (push_makes (f.eval a)).next
  | keccak256 =>
    exact popTwo_makes.performs fun (offset, size) => (region_makes _ offset size).performs
      fun (offset, size) => (chargeWords_makes _ size .keccak256).performs
      fun _ => (readMemory_makes offset size).performs fun data =>
        (push_makes (Hash.digest data).bits).next
  | reading r => exact (makes_inspect _).performs fun w => (push_makes w).next
  | balance =>
    exact pop_makes.performs fun _ => (makes_inspect _).performs fun w => (push_makes w).next
  | callDataLoad =>
    exact pop_makes.performs fun _ => (makes_inspect _).performs fun w => (push_makes w).next
  | callDataCopy => exact (copyToMemory_makes _ _ _).next
  | codeCopy => exact (copyToMemory_makes _ _ _).next
  | blockHash => exact pop_makes.performs fun _ => (push_makes _).next
  | pop => exact pop_makes.next
  | mload =>
    refine pop_makes.performs fun w => (region_makes _ w 32).performs fun (offset, _) => ?_
    refine (makes_inspect_bind fun m => makes_orFault (fun f h => ?_) m).performs fun w =>
      (push_makes w).next
    unfold Memory.readWord at h
    split at h
    · cases h
    · rename_i hr
      cases h
      rw [read_error hr]
      decide
  | mstore =>
    exact popTwo_makes.performs fun (offset, value) => (region_makes _ offset 32).performs
      fun (offset, _) => (writeMemory_makes offset _).next
  | mstore8 =>
    exact popTwo_makes.performs fun (offset, value) => (region_makes _ offset 1).performs
      fun (offset, _) => (writeMemory_makes offset _).next
  | sload =>
    exact (charge_makes _ _).performs fun _ => pop_makes.performs fun _ =>
      (makes_inspect _).performs fun w => (push_makes w).next
  | sstore => exact (sstore_makes env).next
  | jump => exact pop_makes.performs jumpTo_performs
  | jumpi =>
    refine popTwo_makes.performs fun (dest, condition) => ?_
    show Performs (if condition = 0 then pure .next else jumpTo dest)
    split_ifs
    · exact performs_next
    · exact jumpTo_performs dest
  | jumpdest => exact performs_next
  | push size =>
    exact (makes_inspect _).performs fun w => (push_makes w).performs fun _ =>
      (makes_modifyFrame fun _ => by rfl).next
  | dup position =>
    refine (makes_inspect _).performs fun stack => (makes_orFail fun e h => ?_).performs
      fun stack => (makes_modifyFrame fun _ => by rfl).next
    unfold Stack.dup at h
    split_ifs at h
    · cases h
      rfl
    · split at h
      · rw [push_error h]
        rfl
      · cases h
        rfl
  | swap position =>
    refine (makes_inspect _).performs fun stack => (makes_orFail fun e h => ?_).performs
      fun stack => (makes_modifyFrame fun _ => by rfl).next
    unfold Stack.swap at h
    split_ifs at h
    · cases h
      rfl
    · split at h
      · cases h
      · cases h
        rfl
  | log count => exact (log_makes _ count).next
  | create => exact create_performs _
  | call => exact call_performs _
  | ret => exact finish_performs _ _
  | revert => exact finish_performs _ _
  | invalid byte => exact performs_fail rfl

/-- **What an instruction can do**: it makes moves of its frame, and then at most sets
gas aside for a frame that it asks for. -/
theorem step_performs (env : Setting) (byte : UInt8) : Performs (step env byte) := by
  unfold step
  dsimp only
  split
  · exact performs_fail rfl
  · exact (charge_makes _ _).performs fun _ => perform_performs env _

end Exec

end MeteredLedger
