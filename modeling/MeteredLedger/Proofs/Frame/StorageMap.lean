import MeteredLedger.Proofs.Frame.Deeds
import MeteredLedger.Proofs.Frame.Turns
import MeteredLedger.Proofs.Machine.StorageAccess
import MeteredLedger.Proofs.Store.Unwritten

/-!
# Storage is a map of words

What a slot holds follows from what has been written to it, the latest first (`SlotLog`): the word
of the latest write, or what it held before if there is none. An instruction writes one slot of its
account or none (`Opcode.slotLog`). A frame leaves behind what its code has written, frames below it
included, if it ends well, and nothing if it fails (`Call.slotLog`, `Creation.slotLog`): so what is
logged are the writes that have not been taken back. The log of a run is put together turn by turn
(`Exec.slotLog`), and tells what the run does to slots (`Exec.run_logged`), as does the log of all
that goes before wherever code has come to, in whatever frame (`Exec.Visits.slots`).
-/

namespace MeteredLedger

open Bytes

/-! ### Logs -/

/-- Words that are written to slots, the latest first. -/
abbrev SlotLog := List (Slot × Word)

namespace SlotLog

/-- The values of slots after some writes. -/
def after (log : SlotLog) (before : Slot → Bytes) (x : Slot) : Bytes :=
  (log.lookup x).elim (before x) slotValue

theorem after_append (late early : SlotLog) (before : Slot → Bytes) :
    after (late ++ early) before = late.after (early.after before) := by
  funext x
  unfold after
  rw [List.lookup_append]
  cases late.lookup x <;> rfl

theorem after_singleton (x : Slot) (w : Word) (before : Slot → Bytes) :
    after [(x, w)] before = Function.update before x (slotValue w) := by
  funext y
  rw [after, Function.update_apply, List.lookup_cons, List.lookup_nil]
  by_cases hy : y = x
  · rw [if_pos hy, hy, beq_self_eq_true]
    rfl
  · rw [if_neg hy, beq_eq_false_iff_ne.2 hy]
    rfl

/-- The words of slots after some writes. -/
theorem bytesWord_after (log : SlotLog) (before : Slot → Bytes) (x : Slot) :
    bytesWord (log.after before x) = (log.lookup x).getD (bytesWord (before x)) := by
  unfold after
  cases log.lookup x with
  | none => rfl
  | some w => exact bytesWord_slotValue w

/-- What is left of the writes of a frame once it has handed something back: all of them, or none
if it has failed. -/
def leftBy (log : SlotLog) : Except Abort (FrameResult × World) → SlotLog
  | .ok (r, _) => if r.error = none then log else []
  | .error _ => []

section

variable {log : SlotLog} {answer : Except Abort (FrameResult × World)} {r : FrameResult} {w : World}

theorem leftBy_of_success (h : answer = .ok (r, w)) (hr : r.error = none) :
    log.leftBy answer = log := by
  rw [h]
  exact if_pos hr

theorem leftBy_of_failure (h : answer = .ok (r, w)) (hr : r.error ≠ none) :
    log.leftBy answer = [] := by
  rw [h]
  exact if_neg hr

end

end SlotLog

/-- What an instruction writes to the slots of its account. -/
def Opcode.slotLog (self : Address) : Opcode → List Word → SlotLog
  | sstore, [key, value] => [(⟨self, ⟨key⟩⟩, value)]
  | _, _ => []

section

variable (env : Setting) (body : Exec Exit) (inner : Machine → SlotLog)

/-- What a call leaves behind, if `inner` is what its code writes. -/
def Call.slotLog (c : Call) (w : World) : SlotLog :=
  SlotLog.leftBy ((c.start? env w).elim [] inner) (callWith env body c w)

/-- What a creation leaves behind, if `inner` is what its code writes. -/
def Creation.slotLog (c : Creation) (w : World) : SlotLog :=
  SlotLog.leftBy ((c.start? env w).elim [] inner) (createWith env body c w)

/-- What a turn writes: what its instruction does, or what the frame leaves behind that it asks
for. -/
def Exec.turnLog (byte : UInt8) (m : Machine) : SlotLog :=
  match step env byte m with
  | .ok (.call c _ _) m₁ => c.slotLog env body inner m₁.world
  | .ok (.create c) m₁ => c.slotLog env body inner m₁.world
  | .ok _ _ => (Opcode.ofByte byte).slotLog m.frame.address
      (m.frame.stack.words.take (Opcode.ofByte byte).takes)
  | .error _ _ => []

end

/-- What a run writes, in so many steps. -/
def Exec.slotLog (env : Setting) : Nat → Machine → SlotLog
  | 0, _ => []
  | steps + 1, m =>
    match m.frame.code[m.frame.pc]? with
    | none => []
    | some byte =>
      let log := turnLog env (run env steps) (slotLog env steps) byte m
      match turn env (run env steps) byte m with
      | .ok none m' => slotLog env steps m' ++ log
      | _ => log

/-! ### One instruction -/

theorem Opcode.slotLog_of_word {env : Setting} {m : Machine} {op : Opcode} {ws : List Word}
    {w : Word} (h : op.word? env m ws = some w) (self : Address) : op.slotLog self ws = [] := by
  cases op <;> first | rfl | cases h

theorem Opcode.slotLog_of_stored {f : Frame} {op : Opcode} {ws : List Word} {stored : Nat × Bytes}
    (h : op.stored? f ws = some stored) (self : Address) : op.slotLog self ws = [] := by
  cases op <;> first | rfl | cases h

/-- **What an instruction does to slots.** -/
theorem Acts.slots {env : Setting} {m m' : Machine} {op : Opcode} {ws : List Word} {ctl : Control}
    (h : Acts env m op ws ctl m') : m'.world.view.slot env.store
      = (op.slotLog m.frame.address ws).after (m.world.view.slot env.store) := by
  cases h with
  | puts word pushed =>
    rw [Opcode.slotLog_of_word word]
    rfl
  | jumps jump place => obtain ⟨rfl, rfl⟩ | ⟨rfl, condition, -, rfl⟩ := jump <;> rfl
  | declines asks pushed => obtain rfl | rfl := asks <;> rfl
  | stores bytes written =>
    rw [Opcode.slotLog_of_stored bytes]
    rfl
  | writes key value =>
    exact (congrArg Sight.slot (View.sight_setSlot _ _ _ _)).trans
      (SlotLog.after_singleton _ _ _).symm
  | leaves offset size topics => exact congrArg Sight.slot (View.sight_addLog _ _ _)
  | _ => rfl

namespace Performed

variable {env : Setting} {op : Opcode} {m mid m' : Machine} {ws : List Word} {ctl : Control}

theorem slots (h : Performed env op m ws mid ctl m') : m'.world.view.slot env.store
    = (op.slotLog m.frame.address ws).after (m.world.view.slot env.store) := by
  rw [h.acts.slots, h.ready.view, congrArg Frame.address h.ready.frame]

/-- An instruction that asks for a frame does nothing else to the view. -/
theorem view_of_asks (h : Performed env op m ws mid ctl m')
    (asks : (∃ c offset size, ctl = .call c offset size) ∨ ∃ c, ctl = .create c) :
    m'.world.view = m.world.view := by
  have hacts := h.acts
  obtain ⟨c, offset, size, rfl⟩ | ⟨c, rfl⟩ := asks <;> cases hacts <;> exact h.ready.view

end Performed

/-! ### One frame -/

namespace Exec

variable {env : Setting} {body : Exec Exit} {inner : Machine → SlotLog}

/-- A frame is made ready without any writes to slots. -/
theorem openCall_slots (c : Call) (m : Machine) : Meets (openCall env c) m
    (fun _ m' => m'.world.view.slot env.store = m.world.view.slot env.store) fun _ _ => True := by
  refine Meets.bind ((charge_view _ _ m).mono ?_ fun _ _ h => h)
  rintro _ m₁ ⟨hview, -⟩
  refine Meets.bind ((bring_gives c m₁).mono ?_ fun _ _ h => h)
  rintro _ m₂ ⟨hgive, -⟩
  rw [← hview]
  refine meets_inspect ?_
  split_ifs <;> exact congrArg Sight.slot hgive.sight

theorem openCreation_slots (address : Address) (c : Creation) (m : Machine) :
    Meets (openCreation env address c) m
      (fun _ m' => m'.world.view.slot env.store = m.world.view.slot env.store)
      fun _ _ => True := by
  refine Meets.bind ((charge_view _ _ m).mono ?_ fun _ _ h => h)
  rintro _ m₁ ⟨hview, -⟩
  refine Meets.bind ((claim_free address m₁).mono ?_ fun _ _ h => h)
  rintro _ m₂ ⟨-, hclaim, -⟩
  refine Meets.bind ((endow_gives address c m₂).mono ?_ fun _ _ h => h)
  rintro _ m₃ ⟨hgive, -⟩
  rw [hclaim] at hgive
  rw [← hview]
  exact congrArg Sight.slot hgive.sight_setNonce

/-- The code of a contract is put in place without any, too. -/
theorem closeCreation_slots (address : Address) (exit : Exit) (m : Machine) :
    Meets (closeCreation env address exit) m
      (fun _ m' => m'.world.view.slot env.store = m.world.view.slot env.store)
      fun _ _ => True := by
  cases exit with
  | reverted output => exact Meets.pure rfl
  | returned code =>
    refine Meets.bind ((deploy_view address code m).mono ?_ fun _ _ h => h)
    rintro _ m₁ ⟨-, hview⟩
    refine Meets.pure ?_
    rw [hview]
    exact congrArg Sight.slot (View.sight_setCode _ _ _ _)

/-- **The log tells what the code does to slots**, if the code comes to an end. -/
def Logged (env : Setting) (body : Exec Exit) (inner : Machine → SlotLog) : Prop :=
  ∀ m, Meets body m
    (fun _ m' => m'.world.view.slot env.store = (inner m).after (m.world.view.slot env.store))
    fun _ _ => True

end Exec

section

variable {env : Setting} {body : Exec Exit} {inner : Machine → SlotLog} {w w' : World}
  {r : FrameResult}

/-- Code starts with the slots as they are. -/
theorem Call.Starts.slots {c : Call} {m : Machine} (h : c.Starts env w m) :
    m.world.view.slot env.store = w.view.slot env.store :=
  ((Exec.openCall_slots c _).of_ok h.2).trans (congrArg Sight.slot (View.sight_checkpoint _ _))

theorem Creation.Starts.slots {c : Creation} {m : Machine} (h : c.Starts env w m) :
    m.world.view.slot env.store = w.view.slot env.store := by
  obtain ⟨-, view, hview, hopen⟩ := h
  refine ((Exec.openCreation_slots _ c _).of_ok hopen).trans ?_
  exact (congrArg Sight.slot (View.sight_checkpoint _ _)).trans
    (congrArg Sight.slot (View.sight_bumpNonce hview))

/-- **A call does to slots what it leaves behind.** -/
theorem callWith_slots (hin : Exec.StaysInside env body) (hb : Exec.Logged env body inner)
    {c : Call} (h : callWith env body c w = .ok (r, w')) : w'.view.slot env.store
      = (c.slotLog env body inner w).after (w.view.slot env.store) := by
  by_cases hr : r.error = none
  · obtain ⟨e, -, rfl, -⟩ | ⟨hn, hs⟩ := callWith_cases h
    · cases hr
    have hk := Exec.enterCall_keeps (Steady.inside env) hin c (c.machine w)
    obtain ⟨m, hm, halike⟩ := (hs.alike (fun exit m hm => hk.of_ok hm)
      fun e m hm => (hk.of_error hm).2 e rfl).2 hr
    have hlog : c.slotLog env body inner w = (c.start? env w).elim [] inner :=
      SlotLog.leftBy_of_success h hr
    refine (congrArg Sight.slot halike.sight).trans ?_
    rw [Exec.enterCall_eq_open] at hm
    obtain ⟨hasCode, m₁, hopen, hrun⟩ := bind_eq_ok hm
    cases hasCode with
    | true =>
      have hstarts : c.Starts env w m₁ := ⟨hn, hopen⟩
      rw [hlog, Call.start?_eq_some_iff.2 hstarts, ← hstarts.slots]
      exact (hb m₁).of_ok hrun
    | false =>
      have hnone : c.start? env w = none := by
        rw [Call.start?, hn, hopen]
      obtain rfl := (EStateM.Result.ok.inj hrun).2
      rw [hlog, hnone]
      exact ((Exec.openCall_slots c _).of_ok hopen).trans
        (congrArg Sight.slot (View.sight_checkpoint _ _))
  · rw [Call.slotLog, SlotLog.leftBy_of_failure h hr]
    exact congrArg Sight.slot ((callWith_atomic hin h).2 hr)

/-- **A creation does, too.** -/
theorem createWith_slots (hin : Exec.StaysInside env body) (hb : Exec.Logged env body inner)
    {c : Creation} (h : createWith env body c w = .ok (r, w')) : w'.view.slot env.store
      = (c.slotLog env body inner w).after (w.view.slot env.store) := by
  by_cases hr : r.error = none
  · obtain ⟨e, -, rfl, -⟩ | ⟨hn, view, r', hview, hs, rfl⟩ := createWith_cases h
    · cases hr
    have hk := Exec.enterCreation_keeps (Steady.inside env) hin (c.address env w) c
      (c.machine env w view)
    obtain ⟨m, hm, halike⟩ := (hs.alike (fun exit m hm => hk.of_ok hm)
      fun e m hm => (hk.of_error hm).2 e rfl).2 hr
    have hlog : c.slotLog env body inner w = (c.start? env w).elim [] inner :=
      SlotLog.leftBy_of_success h hr
    refine (congrArg Sight.slot halike.sight).trans ?_
    rw [Exec.enterCreation_eq_open] at hm
    obtain ⟨_, m₁, hopen, hrun⟩ := bind_eq_ok hm
    obtain ⟨exit, m₂, hbody, hclose⟩ := bind_eq_ok hrun
    have hstarts : c.Starts env w m₁ := ⟨hn, view, hview, hopen⟩
    rw [hlog, Creation.start?_eq_some_iff.2 hstarts, ← hstarts.slots]
    exact ((Exec.closeCreation_slots _ exit m₂).of_ok hclose).trans ((hb m₁).of_ok hbody)
  · rw [Creation.slotLog, SlotLog.leftBy_of_failure h hr]
    obtain ⟨hrefused, hadmitted⟩ := (createWith_atomic hin h).2 hr
    by_cases hn : refusal? env w c.creator c.value c.depth = none
    · exact congrArg Sight.slot (hadmitted hn).2
    · exact congrArg Sight.slot (hrefused hn)

end

/-! ### Turns and runs -/

namespace Exec

variable {env : Setting} {body : Exec Exit} {inner : Machine → SlotLog}

/-- **What a turn does to slots.** -/
theorem turn_slots (hin : StaysInside env body) (hb : Logged env body inner) (byte : UInt8)
    (m : Machine) : Meets (turn env body byte) m
      (fun _ m' => m'.world.view.slot env.store
        = (turnLog env body inner byte m).after (m.world.view.slot env.store))
      fun _ _ => True := by
  refine (turn_meets env body byte m).mono ?_ fun _ _ _ => trivial
  rintro exit m' ⟨ctl, m₁, hstep, hconcludes⟩
  obtain ⟨ws, mid, hperformed⟩ := (step_performs_acts env byte m).of_ok hstep
  have hslots := hperformed.slots
  rw [hperformed.operands.1] at hslots
  rw [turnLog, hstep]
  generalize below env body byte m = below at hconcludes
  cases hconcludes with
  | exit how => exact hslots
  | jumped => exact hslots
  | next => exact hslots
  | call answer written pushed =>
    rw [← hperformed.view_of_asks (.inl ⟨_, _, _, rfl⟩)]
    exact callWith_slots hin hb answer
  | create answer pushed =>
    rw [← hperformed.view_of_asks (.inr ⟨_, rfl⟩)]
    exact createWith_slots hin hb answer

/-- **The log of a run tells what the run does to slots.** -/
theorem run_logged (env : Setting) (steps : Nat) :
    Logged env (run env steps) (slotLog env steps) := by
  intro m
  induction steps generalizing m with
  | zero => trivial
  | succ steps ih =>
    rw [Meets, ← traced_snd]
    unfold traced slotLog
    cases m.frame.code[m.frame.pc]? with
    | none => rfl
    | some byte =>
      have hturn := turn_slots (run_inside env steps) ih byte m
      dsimp only
      cases hmt : turn env (run env steps) byte m with
      | error stop m' => trivial
      | ok exit m' =>
        have hslots := hturn.of_ok hmt
        cases exit with
        | some how => exact hslots
        | none =>
          have hrest := ih m'
          rw [Meets, ← traced_snd] at hrest
          dsimp only
          rwa [SlotLog.after_append, ← hslots]

/-! ### Wherever code comes to -/

/-- **The code on a machine comes to another one**, in whatever frame, after some writes to slots
that have not been taken back. -/
inductive Visits (env : Setting) (m₀ : Machine) : SlotLog → Machine → Prop where
  /-- It is there. -/
  | here : Visits env m₀ [] m₀
  /-- A turn leads there. -/
  | turn {log : SlotLog} {m m' : Machine} {byte : UInt8} {steps : Nat}
      (before : Visits env m₀ log m) (next : m.frame.code[m.frame.pc]? = some byte)
      (turn : turn env (run env steps) byte m = .ok none m') :
      Visits env m₀ (turnLog env (run env steps) (slotLog env steps) byte m ++ log) m'
  /-- Code starts there that is called. -/
  | call {log : SlotLog} {m m₁ m₂ : Machine} {byte : UInt8} {c : Call} {offset size : Nat}
      (before : Visits env m₀ log m) (next : m.frame.code[m.frame.pc]? = some byte)
      (asks : step env byte m = .ok (.call c offset size) m₁) (starts : c.Starts env m₁.world m₂) :
      Visits env m₀ log m₂
  /-- Code does that makes a contract. -/
  | create {log : SlotLog} {m m₁ m₂ : Machine} {byte : UInt8} {c : Creation}
      (before : Visits env m₀ log m) (next : m.frame.code[m.frame.pc]? = some byte)
      (asks : step env byte m = .ok (.create c) m₁) (starts : c.Starts env m₁.world m₂) :
      Visits env m₀ log m₂

variable {m₀ m m' : Machine} {log : SlotLog}

/-- **The writes that have not been taken back tell what slots hold.** -/
theorem Visits.slots (h : Visits env m₀ log m) :
    m.world.view.slot env.store = log.after (m₀.world.view.slot env.store) := by
  induction h with
  | here => rfl
  | @turn log m m' byte steps before next turn ih =>
    rw [(turn_slots (run_inside env steps) (run_logged env steps) byte m).of_ok turn, ih,
      SlotLog.after_append]
  | call before next asks starts ih =>
    obtain ⟨ws, mid, hperformed⟩ := (step_performs_acts env _ _).of_ok asks
    rw [starts.slots, hperformed.view_of_asks (.inl ⟨_, _, _, rfl⟩), ih]
  | create before next asks starts ih =>
    obtain ⟨ws, mid, hperformed⟩ := (step_performs_acts env _ _).of_ok asks
    rw [starts.slots, hperformed.view_of_asks (.inr ⟨_, rfl⟩), ih]

/-- Turns lead from machines that code comes to to others. -/
theorem Visits.ran {past : List Taken} (h : Visits env m₀ log m) (hran : Ran env m past m') :
    ∃ log', Visits env m₀ log' m' := by
  induction hran with
  | here => exact ⟨log, h⟩
  | turn _ next turn ih =>
    obtain ⟨log', hvisits⟩ := ih
    exact ⟨_, hvisits.turn next turn⟩

/-- **What storage is to code** that has come to a machine, if `log` tells what has been written
since the world `w` and not been taken back. -/
structure Remembers (env : Setting) (w : World) (log : SlotLog) (m : Machine) : Prop where
  /-- A slot has the value of the word that was last written to it, or the value from before. -/
  slots : ∀ x, m.world.view.slot env.store x
    = (log.lookup x).elim (w.view.slot env.store x) slotValue
  /-- `SLOAD` puts that word on the stack, or the one from before. It fails only for gas, if its
  operand is there. -/
  load : ∀ key rest, m.frame.stack.words = key :: rest →
    Meets (step env 0x54) m
      (fun ctl m' => ctl = .next ∧ m'.world.view = m.world.view ∧
        m'.frame.stack.words = (log.lookup ⟨m.frame.address, ⟨key⟩⟩).getD
          (w.held env ⟨m.frame.address, ⟨key⟩⟩) :: rest)
      fun _ _ => ¬ m.gas.Affords env.params.instructions.zero env.params.effects.sload "SLOAD"
  /-- `SSTORE` changes the slot of its key at its own address, and nothing else that the view
  shows. It fails only for gas, if its operands are there. -/
  store : ∀ key value rest, m.frame.stack.words = key :: value :: rest →
    Meets (step env 0x55) m
      (fun ctl m' => ctl = .next ∧ m'.frame.stack.words = rest ∧
        m'.world.view.sight env.store = (m.world.view.sight env.store).putSlot
          ⟨m.frame.address, ⟨key⟩⟩ (slotValue value))
      fun _ _ => ¬ m.gas.Affords env.params.instructions.zero
        (if m.world.held env ⟨m.frame.address, ⟨key⟩⟩ = 0 ∧ value ≠ 0
          then env.params.effects.sstoreSet else env.params.effects.sstoreReset) "SSTORE"

theorem Visits.remembers {w : World} (h : Visits env m₀ log m)
    (hstart : m₀.world.view.slot env.store = w.view.slot env.store) :
    Remembers env w log m := by
  have hslots := h.slots
  rw [hstart] at hslots
  refine ⟨congrFun hslots, fun key rest hm => ?_, fun key value rest hm => step_sstore hm⟩
  refine (step_sload hm).mono ?_ fun _ _ h => h
  rintro ctl m' ⟨hctl, hview, hwords⟩
  rw [World.held, hslots, SlotLog.bytesWord_after] at hwords
  exact ⟨hctl, hview, hwords⟩

end Exec

/-- What a call leaves behind of what is written to slots, in so many steps at most. -/
def Call.slotLogIn (steps : Nat) (env : Setting) (c : Call) (w : World) : SlotLog :=
  c.slotLog env (Exec.run env steps) (Exec.slotLog env steps) w

/-- What a creation leaves behind. -/
def Creation.slotLogIn (steps : Nat) (env : Setting) (c : Creation) (w : World) : SlotLog :=
  c.slotLog env (Exec.run env steps) (Exec.slotLog env steps) w

/-- **What a frame has written that is over**: what its log tells, and nothing if it has failed. -/
structure FrameResult.Wrote (r : FrameResult) (env : Setting) (log : SlotLog) (w w' : World) :
    Prop where
  /-- A slot has the value of the word that was last written to it, or the value from before. -/
  slots : ∀ x, w'.view.slot env.store x
    = (log.lookup x).elim (w.view.slot env.store x) slotValue
  /-- All that a frame has written that fails is taken back. -/
  failed : r.error ≠ none → log = []

section

variable {steps : Nat} {env : Setting} {w w' : World} {r : FrameResult}

theorem callIn_wrote {c : Call} (h : callIn steps env c w = .ok (r, w')) :
    r.Wrote env (c.slotLogIn steps env w) w w' :=
  ⟨congrFun (callWith_slots (Exec.run_inside env steps) (Exec.run_logged env steps) h),
    SlotLog.leftBy_of_failure h⟩

theorem createIn_wrote {c : Creation} (h : createIn steps env c w = .ok (r, w')) :
    r.Wrote env (c.slotLogIn steps env w) w w' :=
  ⟨congrFun (createWith_slots (Exec.run_inside env steps) (Exec.run_logged env steps) h),
    SlotLog.leftBy_of_failure h⟩

end

open Exec in
/-- **Storage is a map of words, zero at first.** A slot holds the word that the last 32 bytes of
its value spell, and zero if it has none; the value of a word spells that word, and zero has none.
Wherever code comes to that a call or a creation starts, be it in the frame itself or in frames
below it, a slot has the value of the word that was last written to it in a frame that has not been
taken back, or the value from before, and it is this word that `SLOAD` reads and `SSTORE` replaces
(`Remembers`). A frame that is over has written what its log says, and nothing if it has failed
(`FrameResult.Wrote`). And when a view is published that shows a slot empty, the store is the one
that there would be if nothing had ever been written to the slot. -/
theorem storage_is_word_map :
    (∀ bs, (bytesWord bs).toNat = ofBigEndian (bs.drop (bs.length - 32))) ∧
    (∀ word, bytesWord (slotValue word) = word ∧ (slotValue word = [] ↔ word = 0)) ∧
    (∀ env (w : World) x, (∀ layer ∈ w.view.layers, layer.slots[x]? = none) →
      env.store.slots[x]? = none → w.held env x = 0) ∧
    (∀ env w m₀, ((∃ c : Call, c.Starts env w m₀) ∨ ∃ c : Creation, c.Starts env w m₀) →
      (∀ steps, ∀ m ∈ (traced env steps m₀).1, ∃ log, Visits env m₀ log m) ∧
      ∀ log m, Visits env m₀ log m → Remembers env w log m) ∧
    (∀ steps env w w' r,
      (∀ c : Call, callIn steps env c w = .ok (r, w') →
        r.Wrote env (c.slotLogIn steps env w) w w') ∧
      ∀ c : Creation, createIn steps env c w = .ok (r, w') →
        r.Wrote env (c.slotLogIn steps env w) w w') ∧
    ∀ accounts writes (v : View) x logs s,
      v.slot (Store.afterWrites accounts writes) x = [] →
      v.publish true (Store.afterWrites accounts writes) = .ok (logs, s) →
      s.slots[x]? = none ∧ s = Store.afterWrites accounts
        ((writes ++ [Store.Write.changes v.pending]).filterMap (Store.Write.without x)) := by
  refine ⟨toNat_bytesWord_drop, fun word => ⟨bytesWord_slotValue word, slotValue_eq_nil_iff⟩,
    fun env w x => World.held_of_unset, fun env w m₀ hstarts => ⟨fun steps m hm => ?_,
      fun log m hvisits => ?_⟩, fun steps env w w' r => ⟨fun c => callIn_wrote,
        fun c => createIn_wrote⟩, fun accounts writes v x logs s => View.publish_unwritten⟩
  · obtain ⟨past, hran⟩ := traced_ran .here hm
    exact Visits.here.ran hran
  · obtain ⟨c, hc⟩ | ⟨c, hc⟩ := hstarts
    · exact hvisits.remembers hc.slots
    · exact hvisits.remembers hc.slots

/-! ### Writes that are taken back -/

namespace ReentrantWrites

/-- Writes 5 to slot 1, calls itself with input, clears slot 3, and reads slot 1. With input, it
writes 9 to slot 1 and takes that back. -/
def code : Bytes :=
  [0x36, 0x60, 35, 0x57, 0x60, 5, 0x60, 1, 0x55,
    0x60, 0, 0x60, 0, 0x60, 1, 0x60, 0, 0x60, 0, 0x60, 2, 0x61, 0xff, 0xff, 0xf1, 0x50,
    0x60, 0, 0x60, 3, 0x55, 0x60, 1, 0x54, 0,
    0x5b, 0x60, 9, 0x60, 1, 0x55, 0x60, 0, 0x60, 0, 0xfd]

/-- The slot that is cleared. -/
def cleared : Slot := ⟨⟨2⟩, ⟨3⟩⟩

/-- The account `2` has the code, and more than 32 bytes in the slot. -/
def history : List Store.Write := [.code ⟨2⟩ code, .slot cleared (1 :: bigEndian 32 7)]

/-- The store is what the history leaves. -/
def env : Setting :=
  ⟨.standard, .ofHeader .genesis ⟨1⟩ 1000000, Store.afterWrites [] history⟩

/-- Nothing has been changed or counted. -/
def world : World := ⟨.fresh, .untracked⟩

/-- A call of the account. -/
def request : Call := ⟨⟨1⟩, ⟨2⟩, [], 1000000, 0, 0⟩

/-- A call of it with input. -/
def takenBack : Call := { request with input := [1] }

/-- The stack of a machine and the one behind an `SLOAD` there. -/
def loadFrom (m : Machine) : Option (List Word × List Word) :=
  match Exec.step env 0x54 m with
  | .ok .next m' => some (m.frame.stack.words, m'.frame.stack.words)
  | _ => none

end ReentrantWrites

open ReentrantWrites Exec in
/-- The load reads 5, as the inner call took its 9 back; the call that is taken back changes no
slot; and the slot that is cleared is committed as one that was never written. -/
theorem storage_is_word_map_reentrant :
    (∃ m, request.Starts env world m ∧ ∃ m' ∈ (traced env 40 m).1, ∃ log, Visits env m log m' ∧
      m'.frame.stack.words = [1] ∧
      (log.lookup ⟨m'.frame.address, ⟨1⟩⟩).getD (world.held env ⟨m'.frame.address, ⟨1⟩⟩) = 5 ∧
      ∃ m'', step env 0x54 m' = .ok .next m'' ∧ m''.frame.stack.words = [5]) ∧
    (∃ r w', callIn 40 env takenBack world = .ok (r, w') ∧ r.error = some .reverted ∧
      w'.view.slot env.store = world.view.slot env.store) ∧
    ∃ r w' logs s, callIn 40 env request world = .ok (r, w') ∧ world.held env cleared = 7 ∧
      w'.view.slot env.store cleared = [] ∧ w'.view.publish true env.store = .ok (logs, s) ∧
      s.slots[cleared]? = none ∧
      s = Store.afterWrites [] [.code ⟨2⟩ code, .changes (w'.view.pending.without cleared)] := by
  have hread : (request.start? env world).bind (fun m => (traced env 40 m).1[19]?.bind loadFrom)
      = some (([1] : List Word), ([5] : List Word)) := by decide +kernel
  have hfailed : (callIn 40 env takenBack world).toOption.bind (·.1.error)
      = some .reverted := by decide +kernel
  have hended : (callIn 40 env request world).toOption.bind (some ·.2.view.isReadOnly)
      = some false := by decide +kernel
  have hlog : request.slotLogIn 40 env world = [(cleared, 0), (⟨⟨2⟩, ⟨1⟩⟩, 5)] := by
    decide +kernel
  obtain ⟨-, -, -, visited, ended, published⟩ := storage_is_word_map
  refine ⟨?_, ?_, ?_⟩
  · obtain ⟨m, hm, hread⟩ := Option.bind_eq_some_iff.1 hread
    obtain ⟨m', hm', hread⟩ := Option.bind_eq_some_iff.1 hread
    have hstarts := Call.starts_of_start? hm
    have hmem := List.mem_of_getElem? hm'
    obtain ⟨iterations, there⟩ := visited env world m (.inl ⟨_, hstarts⟩)
    obtain ⟨log, hvisits⟩ := iterations 40 m' hmem
    have hremembers := there log m' hvisits
    unfold loadFrom at hread
    split at hread
    · rename_i m'' hstep
      obtain ⟨hwords, hwords'⟩ := Prod.mk.inj (Option.some.inj hread)
      obtain ⟨-, -, hload⟩ := (hremembers.load 1 [] hwords).of_ok hstep
      rw [hwords'] at hload
      exact ⟨m, hstarts, m', hmem, log, hvisits, hwords, (List.cons.inj hload).1.symm, m'', hstep,
        hwords'⟩
    · cases hread
  · obtain ⟨⟨r, w'⟩, hcall, herror⟩ := exists_of_read hfailed
    have hwrote := (ended 40 env world w' r).1 takenBack hcall
    have hr : r.error = some .reverted := herror
    refine ⟨r, w', hcall, hr, funext fun x => ?_⟩
    rw [hwrote.slots, hwrote.failed (by rw [hr]; exact nofun)]
    rfl
  · obtain ⟨⟨r, w'⟩, hcall, hwritable⟩ := exists_of_read hended
    have hcleared : w'.view.slot env.store cleared = [] := by
      rw [((ended 40 env world w' r).1 request hcall).slots, hlog]
      rfl
    have hpublish := View.publish_of_writable (s := env.store) (Option.some.inj hwritable)
    obtain ⟨hnone, hstore⟩ := published [] history w'.view cleared _ _ hcleared hpublish
    exact ⟨r, w', _, _, hcall, by decide +kernel, hcleared, hpublish, hnone, hstore⟩

end MeteredLedger
