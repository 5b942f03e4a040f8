import MeteredLedger.Proofs.Machine.MemoryBytes
import MeteredLedger.Proofs.Machine.Runs

/-!
# Machines that code cannot tell apart

Two machines are alike for code if it sees the same frame and the same view on both, can write to
both alike, and pays alike on both (`Likeness`). What code does on the first it then does on the
second (`Exec.Follows`): the same value comes out, and the machines that are left are alike again.
All instructions follow themselves in this sense (`Likeness.step`), also in other surroundings, as
long as what they show of these is the same. So a change of the machine that code does not see is
described once for every change, and not for every instruction.

Of its own code, code sees what is read from it as if it had no end, where a jump leads, and how
much of it there is. So the frames need to be the same only but for their code (`Frame.bare`), if
what is read from it is; the jumps and `CODESIZE` are then asked for by themselves.

Which stops have to agree is left open (`S`): all of them, if the change makes no difference at all;
or none, if the second machine can go on where the first one cannot.
-/

namespace MeteredLedger

namespace Exec

variable {α β : Type} {S : Stop → Prop} {R R' : Machine → Machine → Prop}

/-- The second action follows the first from two machines: where the first gives a value, the second
gives the same one, and they leave machines in `R`; where the first stops for a reason in `S`, the
second does, too. -/
def FollowsAt (S : Stop → Prop) (R : Machine → Machine → Prop) (x x' : Exec α) (m m' : Machine) :
    Prop :=
  Meets x m (fun a m₁ => ∃ m₁', x' m' = .ok a m₁' ∧ R m₁ m₁')
    fun stop m₁ => S stop → ∃ m₁', x' m' = .error stop m₁' ∧ R m₁ m₁'

/-- **The second action follows the first** from all machines in `R`. -/
def Follows (S : Stop → Prop) (R : Machine → Machine → Prop) (x x' : Exec α) : Prop :=
  ∀ m m', R m m' → FollowsAt S R x x' m m'

theorem FollowsAt.congr {x y x' y' : Exec α} {m m' : Machine} (h : FollowsAt S R y y' m m')
    (hx : x m = y m) (hx' : x' m' = y' m') : FollowsAt S R x x' m m' := by
  unfold FollowsAt Meets at *
  rw [hx, hx']
  exact h

/-! ### Putting actions together -/

/-- What comes after an action may leave machines in a relation that says less. -/
theorem FollowsAt.bindInto {x x' : Exec α} {f f' : α → Exec β} {m m' : Machine}
    {P : α → Machine → Prop} (hx : FollowsAt S R x x' m m') (hP : Meets x m P fun _ _ => True)
    (hR : ∀ {m m'}, R m m' → R' m m')
    (hf : ∀ a m₁ m₁', P a m₁ → R m₁ m₁' → FollowsAt S R' (f a) (f' a) m₁ m₁') :
    FollowsAt S R' (x >>= f) (x' >>= f') m m' := by
  refine Meets.bind ((hP.and hx).mono ?_ ?_)
  · rintro a m₁ ⟨ha, m₁', hx', h₁⟩
    have hbind : (x' >>= f') m' = f' a m₁' := by rw [bind_apply, hx']
    rw [hbind]
    exact hf a m₁ m₁' ha h₁
  · rintro stop m₁ ⟨-, hstop⟩ hS
    obtain ⟨m₁', hx', h₁⟩ := hstop hS
    exact ⟨m₁', by rw [bind_apply, hx'], hR h₁⟩

/-- What comes after an action has to follow only from what the action can lead to. -/
theorem FollowsAt.bind {x x' : Exec α} {f f' : α → Exec β} {m m' : Machine}
    {P : α → Machine → Prop} (hx : FollowsAt S R x x' m m') (hP : Meets x m P fun _ _ => True)
    (hf : ∀ a m₁ m₁', P a m₁ → R m₁ m₁' → FollowsAt S R (f a) (f' a) m₁ m₁') :
    FollowsAt S R (x >>= f) (x' >>= f') m m' := hx.bindInto hP id hf

theorem Follows.bind {x x' : Exec α} {f f' : α → Exec β} (hx : Follows S R x x')
    (hf : ∀ a, Follows S R (f a) (f' a)) : Follows S R (x >>= f) (x' >>= f') := fun m m' h =>
  (hx m m' h).bind (Meets.always x m) fun a m₁ m₁' _ h₁ => hf a m₁ m₁' h₁

theorem follows_pure (a : α) : Follows S R (pure a) (pure a) :=
  fun _ m' h => Meets.pure ⟨m', rfl, h⟩

theorem follows_throw (stop : Stop) : Follows S R (throw stop : Exec α) (throw stop) :=
  fun _ m' h => Meets.throw fun _ => ⟨m', rfl, h⟩

theorem follows_fail (e : LedgerError) : Follows S R (fail e : Exec α) (fail e) := follows_throw _

/-- An action that goes on to the next instruction when it is done. -/
theorem Follows.next {x x' : Exec α} (hx : Follows S R x x') :
    Follows S R (x >>= fun _ => pure Control.next) (x' >>= fun _ => pure Control.next) :=
  hx.bind fun _ => follows_pure _

/-- What is shown of machines is the same. -/
theorem follows_inspect {g g' : Machine → α} (hg : ∀ m m', R m m' → g' m' = g m) :
    Follows S R (inspect g) (inspect g') := fun m m' h => ⟨m', by rw [inspect, hg m m' h], h⟩

theorem follows_orFail (r : Except LedgerError α) : Follows S R (orFail r) (orFail r) := by
  cases r with
  | ok a => exact follows_pure a
  | error e => exact follows_fail e

theorem follows_orFault (r : Except Fault α) : Follows S R (orFault r) (orFault r) := by
  cases r with
  | ok a => exact follows_pure a
  | error f => exact follows_throw _

end Exec

/-- The frame with other code. -/
def Frame.recode (f : Frame) (code : Array UInt8) (targets : Array Bool) : Frame :=
  { f with code, targets }

/-- The frame without its code. -/
def Frame.bare (f : Frame) : Frame := f.recode #[] #[]

/-- **A likeness of machines**, for code that reads the store of a setting: nothing that code does,
but for asking how much gas is left and setting some of it aside, leads out of it. -/
structure Likeness (env : Setting) (S : Stop → Prop) (R : Machine → Machine → Prop) : Prop where
  /-- The frames are the same, but for their code, -/
  frame : ∀ {m m'}, R m m' → m'.frame.bare = m.frame.bare
  /-- of which the same is read, -/
  code : ∀ {m m'}, R m m' → Bytes.endless m'.frame.code = Bytes.endless m.frame.code
  /-- and go on alike. -/
  goOn : ∀ {m m'}, R m m' → ∀ g : Frame → Frame,
    (∀ f code targets, g (f.recode code targets) = (g f).recode code targets) →
    R { m with frame := g m.frame } { m' with frame := g m'.frame }
  /-- The views show the same, -/
  sight : ∀ {m m'}, R m m' → m'.world.view.sight env.store = m.world.view.sight env.store
  /-- and are written to alike. -/
  write : ∀ {m m'}, R m m' → ∀ slot value, R (m.withView (m.world.view.setSlot slot value))
    (m'.withView (m'.world.view.setSlot slot value))
  /-- Logs are left alike. -/
  leave : ∀ {m m'}, R m m' → ∀ log, R (m.withView (m.world.view.addLog log))
    (m'.withView (m'.world.view.addLog log))
  /-- What is charged on the first is charged on the second. -/
  pay : ∀ amount label, Exec.Follows S R (Exec.charge amount label) (Exec.charge amount label)
  /-- The gas that is left is the same, if a lack of it is a stop that has to agree. -/
  left : ∀ {m m'}, R m m' → S (.error (.outOfGas maxGas m.gas.remaining)) →
    m'.gas.remaining = m.gas.remaining

namespace Likeness

open Exec

variable {env : Setting} {S : Stop → Prop} {R : Machine → Machine → Prop} {α : Type}

section

variable (h : Likeness env S R)

include h

/-! ### Frames and views -/

/-- What a frame shows that is not its code is the same. -/
theorem shows {m m' : Machine} (hm : R m m') (g : Frame → α) : g m'.frame.bare = g m.frame.bare :=
  congrArg g (h.frame hm)

theorem seen (g : Frame → α) :
    Follows S R (inspect fun m => g m.frame.bare) (inspect fun m => g m.frame.bare) :=
  follows_inspect fun _ _ hm => h.shows hm g

theorem modifyFrame (g : Frame → Frame)
    (recodes : ∀ f code targets, g (f.recode code targets) = (g f).recode code targets) :
    Follows S R (modifyFrame g) (modifyFrame g) :=
  fun _ _ hm => ⟨_, rfl, h.goOn hm g recodes⟩

theorem onMemory (act : Memory → Except Fault Memory) :
    Follows S R (onMemory act) (onMemory act) := by
  intro m m' hm
  have hmemory : m'.frame.memory = m.frame.memory := h.shows hm (·.memory)
  unfold FollowsAt Meets Exec.onMemory
  rw [hmemory]
  cases ha : act m.frame.memory with
  | ok memory =>
    simp only [ha]
    exact ⟨_, rfl, h.goOn hm (fun f => { f with memory }) fun _ _ _ => rfl⟩
  | error f =>
    simp only [ha]
    exact fun _ => ⟨_, rfl, h.goOn hm (fun f => { f with memory := .empty }) fun _ _ _ => rfl⟩

theorem balance {m m' : Machine} (hm : R m m') (a : Address) :
    m'.world.view.balance env.store a = m.world.view.balance env.store a :=
  congrArg (·.balance) (congrFun (congrArg Sight.account (h.sight hm)) a)

theorem slot {m m' : Machine} (hm : R m m') (slot : Slot) :
    m'.world.view.slot env.store slot = m.world.view.slot env.store slot :=
  congrFun (congrArg Sight.slot (h.sight hm)) slot

theorem setSlot (slot : Slot) (value : Bytes) : Follows S R
    (modifyView fun v => v.setSlot slot value) (modifyView fun v => v.setSlot slot value) :=
  fun _ _ hm => ⟨_, rfl, h.write hm slot value⟩

theorem addLog (log : Log) :
    Follows S R (modifyView fun v => v.addLog log) (modifyView fun v => v.addLog log) :=
  fun _ _ hm => ⟨_, rfl, h.leave hm log⟩

/-! ### The stack -/

theorem push (w : Word) : Follows S R (push w) (push w) :=
  (h.seen (·.stack)).bind fun _ => (follows_orFail _).bind fun _ =>
    h.modifyFrame _ fun _ _ _ => rfl

theorem pop : Follows S R pop pop :=
  (h.seen (·.stack)).bind fun _ => (follows_orFail _).bind fun (w, _) =>
    (h.modifyFrame _ fun _ _ _ => rfl).bind fun _ => follows_pure w

theorem popMany (count : Nat) : Follows S R (popMany count) (popMany count) :=
  (h.seen (·.stack)).bind fun _ => (follows_orFail _).bind fun (ws, _) =>
    (h.modifyFrame _ fun _ _ _ => rfl).bind fun _ => follows_pure ws

theorem popTwo : Follows S R popTwo popTwo := (h.popMany 2).bind fun _ => follows_pure _

theorem popThree : Follows S R popThree popThree := (h.popMany 3).bind fun _ => follows_pure _

/-! ### Memory -/

theorem writeMemory (offset : Nat) (bs : Bytes) :
    Follows S R (writeMemory offset bs) (writeMemory offset bs) := h.onMemory _

theorem readMemory (offset size : Nat) :
    Follows S R (readMemory offset size) (readMemory offset size) :=
  (h.seen fun f => f.memory.read offset size).bind fun _ => follows_orFault _

/-- What no gas pays for stops both, if it has to. -/
theorem starve : Follows S R
    (inspect (·.gas.remaining) >>= fun left => (fail (.outOfGas maxGas left) : Exec α))
    (inspect (·.gas.remaining) >>= fun left => fail (.outOfGas maxGas left)) := by
  intro m m' hm
  refine meets_inspect (Meets.throw fun hS => ⟨m', ?_, hm⟩)
  rw [← h.left hm hS]
  rfl

theorem region (costs : EffectCosts) (offset size : Word) :
    Follows S R (region costs offset size) (region costs offset size) := by
  have pay : Follows S R (do
      let current ← inspect (·.frame.memory.size)
      let cost ← orFault (Memory.growthCost costs current (offset.toNat + size.toNat))
      charge cost "memory"
      Exec.onMemory (·.grow (offset.toNat + size.toNat))
      return (offset.toNat, size.toNat)) (do
      let current ← inspect (·.frame.memory.size)
      let cost ← orFault (Memory.growthCost costs current (offset.toNat + size.toNat))
      charge cost "memory"
      Exec.onMemory (·.grow (offset.toNat + size.toNat))
      return (offset.toNat, size.toNat)) :=
    (h.seen (·.memory.size)).bind fun _ => (follows_orFault _).bind fun cost =>
      (h.pay cost "memory").bind fun _ => (h.onMemory _).bind fun _ => follows_pure _
  unfold Exec.region
  by_cases hzero : size = 0
  · rw [if_pos hzero]
    exact follows_pure _
  · rw [if_neg hzero]
    by_cases hfar : regionBound < offset.toNat ∨ regionBound < size.toNat
    · rw [if_pos hfar]
      exact h.starve
    · rw [if_neg hfar]
      exact pay

theorem chargeWords (price : Gas) (size : Nat) (op : Opcode) :
    Follows S R (chargeWords price size op) (chargeWords price size op) := h.pay _ _

/-- What is copied is what is read from a buffer as if it had no end. -/
theorem copyToMemory (costs : EffectCosts) (op : Opcode) {source : Frame → Array UInt8}
    (same : ∀ m m', R m m' →
      Bytes.endless (source m'.frame) = Bytes.endless (source m.frame)) :
    Follows S R (copyToMemory costs op source) (copyToMemory costs op source) := by
  rw [copyToMemory_eq]
  refine h.popThree.bind fun (_, start, _) => (h.region _ _ _).bind fun (offset, size) =>
    (h.chargeWords _ _ _).bind fun _ m m' hm => ?_
  have hread : zeroExtended (source m'.frame) (clampOffset start (source m'.frame).size) size
      = zeroExtended (source m.frame) (clampOffset start (source m.frame).size) size := by
    rw [clampOffset, clampOffset, zeroExtended_min, zeroExtended_min, same m m' hm]
  show FollowsAt S R (Exec.writeMemory offset _) (Exec.writeMemory offset
    (zeroExtended (source m'.frame) (clampOffset start (source m'.frame).size) size)) m m'
  rw [hread]
  exact h.writeMemory offset _ m m' hm

/-! ### Instructions with a part of their own -/

theorem jumpTo {dest : Word}
    (same : ∀ m m', R m m' → m'.frame.jumpTarget dest = m.frame.jumpTarget dest) :
    Follows S R (jumpTo dest) (jumpTo dest) :=
  (follows_inspect same).bind fun _ => (follows_orFail _).bind fun _ =>
    (h.modifyFrame _ fun _ _ _ => rfl).bind fun _ => follows_pure _

/-- The data behind an instruction is read as if the code had no end. -/
theorem data (size : Nat) : Follows S R
    (inspect fun m => bytesWord (zeroExtended m.frame.code (m.frame.pc + 1) size))
    (inspect fun m => bytesWord (zeroExtended m.frame.code (m.frame.pc + 1) size)) := by
  refine follows_inspect fun m m' hm => ?_
  have hpc : m'.frame.pc = m.frame.pc := h.shows hm (·.pc)
  rw [zeroExtended_eq_stretch, zeroExtended_eq_stretch, h.code hm, hpc]

theorem decline : Follows S R decline decline :=
  (h.modifyFrame _ fun _ _ _ => rfl).bind fun _ => (h.push 0).next

theorem depthBelow : Follows S R depthBelow depthBelow := by
  refine (h.seen (·.depth)).bind fun depth => ?_
  show Follows S R (if depth + 1 < UInt64.size then pure (depth + 1)
    else throw (Stop.fault .depthOverflow)) (if depth + 1 < UInt64.size then pure (depth + 1)
    else throw (Stop.fault .depthOverflow))
  split_ifs
  · exact follows_pure _
  · exact follows_throw _

theorem log (costs : EffectCosts) (count : Nat) : Follows S R (log costs count) (log costs count) :=
  h.popTwo.bind fun (_, _) => (h.popMany count).bind fun _ =>
    (h.region _ _ _).bind fun (_, _) => (h.pay _ _).bind fun _ =>
      (h.readMemory _ _).bind fun _ => (h.seen (·.address)).bind fun _ => h.addLog _

theorem sstore (context : Context) :
    Follows S R (sstore env) (sstore { env with context }) :=
  h.popTwo.bind fun (_, _) => (h.seen (·.address)).bind fun _ =>
    (follows_inspect fun _ _ hm => by rw [h.slot hm]).bind fun _ => (h.pay _ _).bind fun _ =>
      h.setSlot _ _

theorem finish (costs : EffectCosts) (how : Bytes → Exit) :
    Follows S R (finish costs how) (finish costs how) :=
  h.popTwo.bind fun (_, _) => (h.region _ _ _).bind fun (_, _) =>
    (h.readMemory _ _).bind fun _ => follows_pure _

/-- What asks for a frame below, if it sees the same gas on both and sets it aside alike. -/
theorem create (hleft : ∀ m m', R m m' → m'.gas.remaining = m.gas.remaining)
    (haside : ∀ amount label, Follows S R (setAside amount label) (setAside amount label))
    (costs : EffectCosts) : Follows S R (create costs) (create costs) := by
  refine h.popThree.bind fun (value, offset, size) => ?_
  refine (h.region _ _ _).bind fun (_, _) => (h.readMemory _ _).bind fun initCode => ?_
  cases wordWei? value with
  | none => exact h.decline
  | some value =>
    exact (follows_inspect hleft).bind fun _ => (haside _ _).bind fun _ =>
      h.depthBelow.bind fun _ => (h.seen (·.address)).bind fun _ => follows_pure _

theorem call (hleft : ∀ m m', R m m' → m'.gas.remaining = m.gas.remaining)
    (haside : ∀ amount label, Follows S R (setAside amount label) (setAside amount label))
    (costs : EffectCosts) : Follows S R (call costs) (call costs) := by
  refine (h.popMany 7).bind fun ws => (h.region _ _ _).bind fun (_, _) => ?_
  refine (h.region _ _ _).bind fun (_, _) => (h.readMemory _ _).bind fun input => ?_
  cases wordWei? (ws.get 2) with
  | none => exact h.decline
  | some value =>
    exact (follows_inspect hleft).bind fun _ => (haside _ _).bind fun _ =>
      h.depthBelow.bind fun _ => (h.seen (·.address)).bind fun _ => follows_pure _

/-! ### All instructions -/

variable {context : Context} {op : Opcode}

/-- **What an instruction does on the first machine it does on the second**, once its constant cost
is paid, if it shows the same word, jumps alike and asks alike for a frame below. -/
theorem perform (hashes : ∀ number, context.blockHash number = env.context.blockHash number)
    (reading : ∀ r, op = .reading r →
      ∀ m m', R m m' → r.eval { env with context } m' = r.eval env m)
    (jumps : op = .jump ∨ op = .jumpi →
      ∀ m m', R m m' → ∀ dest, m'.frame.jumpTarget dest = m.frame.jumpTarget dest)
    (creates : op = .create →
      Follows S R (Exec.create env.params.effects) (Exec.create env.params.effects))
    (calls : op = .call →
      Follows S R (Exec.call env.params.effects) (Exec.call env.params.effects)) :
    Follows S R (perform env op) (perform { env with context } op) := by
  cases op with
  | stop => exact follows_pure _
  | binary f => exact h.popTwo.bind fun (_, _) => (h.push _).next
  | unary f => exact h.pop.bind fun _ => (h.push _).next
  | keccak256 =>
    exact h.popTwo.bind fun (_, _) => (h.region _ _ _).bind fun (_, _) =>
      (h.chargeWords _ _ _).bind fun _ => (h.readMemory _ _).bind fun _ => (h.push _).next
  | reading r => exact (follows_inspect (reading r rfl)).bind fun _ => (h.push _).next
  | balance =>
    exact h.pop.bind fun w => (follows_inspect fun _ _ hm => by rw [h.balance hm]).bind fun _ =>
      (h.push _).next
  | callDataLoad =>
    exact h.pop.bind fun w => (h.seen fun f =>
      bytesWord (zeroExtended f.input (clampOffset w f.input.size) 32)).bind fun _ =>
        (h.push _).next
  | callDataCopy =>
    have input : ∀ m m', R m m' → m'.frame.input = m.frame.input := fun _ _ hm =>
      h.shows hm (·.input)
    exact (h.copyToMemory _ _ fun m m' hm => congrArg Bytes.endless (input m m' hm)).next
  | codeCopy => exact (h.copyToMemory _ _ fun _ _ hm => h.code hm).next
  | blockHash =>
    refine h.pop.bind fun w => ?_
    rw [hashes]
    exact (h.push _).next
  | pop => exact h.pop.next
  | mload =>
    exact h.pop.bind fun _ => (h.region _ _ _).bind fun (offset, _) =>
      (h.seen (·.memory.readWord offset)).bind fun _ => (follows_orFault _).bind fun _ =>
        (h.push _).next
  | mstore =>
    exact h.popTwo.bind fun (_, _) => (h.region _ _ _).bind fun (_, _) => (h.writeMemory _ _).next
  | mstore8 =>
    exact h.popTwo.bind fun (_, _) => (h.region _ _ _).bind fun (_, _) => (h.writeMemory _ _).next
  | sload =>
    have account : ∀ m m', R m m' → m'.frame.address = m.frame.address := fun _ _ hm =>
      h.shows hm (·.address)
    exact (h.pay _ _).bind fun _ => h.pop.bind fun _ =>
      (follows_inspect fun m m' hm => by rw [account m m' hm, h.slot hm]).bind fun _ =>
        (h.push _).next
  | sstore => exact (h.sstore context).next
  | jump => exact h.pop.bind fun dest => h.jumpTo fun m m' hm => jumps (.inl rfl) m m' hm dest
  | jumpi =>
    refine h.popTwo.bind fun (dest, condition) => ?_
    show Follows S R (if condition = 0 then pure .next else Exec.jumpTo dest)
      (if condition = 0 then pure .next else Exec.jumpTo dest)
    split_ifs
    · exact follows_pure _
    · exact h.jumpTo fun m m' hm => jumps (.inr rfl) m m' hm dest
  | jumpdest => exact follows_pure _
  | push size =>
    exact (h.data size).bind fun _ => (h.push _).bind fun _ =>
      (h.modifyFrame _ fun _ _ _ => rfl).next
  | dup position =>
    exact (h.seen (·.stack)).bind fun _ => (follows_orFail _).bind fun _ =>
      (h.modifyFrame _ fun _ _ _ => rfl).next
  | swap position =>
    exact (h.seen (·.stack)).bind fun _ => (follows_orFail _).bind fun _ =>
      (h.modifyFrame _ fun _ _ _ => rfl).next
  | log count => exact (h.log _ count).next
  | create => exact creates rfl
  | call => exact calls rfl
  | ret => exact h.finish _ _
  | revert => exact h.finish _ _
  | invalid byte => exact follows_fail _

/-- **What an instruction does on the first machine it does on the second.** -/
theorem step {byte : UInt8}
    (hashes : ∀ number, context.blockHash number = env.context.blockHash number)
    (reading : ∀ r, Opcode.ofByte byte = .reading r →
      ∀ m m', R m m' → r.eval { env with context } m' = r.eval env m)
    (jumps : Opcode.ofByte byte = .jump ∨ Opcode.ofByte byte = .jumpi →
      ∀ m m', R m m' → ∀ dest, m'.frame.jumpTarget dest = m.frame.jumpTarget dest)
    (creates : Opcode.ofByte byte = .create →
      Follows S R (Exec.create env.params.effects) (Exec.create env.params.effects))
    (calls : Opcode.ofByte byte = .call →
      Follows S R (Exec.call env.params.effects) (Exec.call env.params.effects)) :
    Follows S R (step env byte) (step { env with context } byte) := by
  unfold Exec.step
  dsimp only
  split
  · exact follows_fail _
  · exact (h.pay _ _).bind fun _ => h.perform hashes reading jumps creates calls

end

end Likeness

end MeteredLedger
