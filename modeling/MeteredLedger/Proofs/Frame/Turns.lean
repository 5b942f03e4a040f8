import MeteredLedger.Proofs.Frame.Trail
import MeteredLedger.Proofs.Machine.Instructions

/-!
# What a turn does

A turn of a run carries out an instruction, enters the frame that it asks for, if it asks for one
(`Exec.below`), and goes on (`Concludes`). If a turn fails, its instruction does, as there is always
room for the word that says how a frame below has ended (`Exec.turn_meets`).

A run goes from turn to turn (`Exec.Ran`). Every machine that an iteration of it starts on has been
reached by turns that have been taken before (`Exec.traced_ran`), and what a run comes to, its last
turn does (`Exec.run_traced`). Where a frame has too few words or too many, the run of its code has
(`callWith_stack_error`, `createWith_stack_error`); and a frame starts with nothing on its stack,
nothing in its memory and nothing paid for it (`Machine.Blank`).
-/

namespace MeteredLedger

open Bytes

namespace Exec

/-! ### Turns -/

/-- What the frame hands back that an instruction asks for, if it asks for one. -/
def answer (env : Setting) (body : Exec Exit) (m : Machine) : Control → Option FrameResult
  | .call c _ _ => (callWith env body c m.world).toOption.map Prod.fst
  | .create c => (createWith env body c m.world).toOption.map Prod.fst
  | _ => none

/-- What the frame hands back that the turn of a byte asks for, if it asks for one. -/
def below (env : Setting) (body : Exec Exit) (byte : UInt8) (m : Machine) : Option FrameResult :=
  match step env byte m with
  | .ok ctl m' => answer env body m' ctl
  | .error _ _ => none

end Exec

/-- **How a turn goes on** when its instruction has acted, and the frame below, if there is one, has
handed something back. -/
inductive Concludes (env : Setting) (body : Exec Exit) (m : Machine) :
    Control → Option FrameResult → Option Exit → Machine → Prop where
  /-- The frame ends. -/
  | exit (how : Exit) : Concludes env body m (.exit how) none (some how) m
  /-- It goes on where it has jumped to. -/
  | jumped : Concludes env body m .jumped none none m
  /-- It goes on behind the instruction. -/
  | next : Concludes env body m .next none none
      { m with frame := { m.frame with pc := m.frame.pc + 1 } }
  /-- It takes in the output of a call. -/
  | call {c : Call} {offset size : Nat} {r : FrameResult} {w : World} {memory : Memory}
      {stack : Stack} (answer : callWith env body c m.world = .ok (r, w))
      (written : m.frame.memory.write offset (r.output.take size) = .ok memory)
      (pushed : stack.words = boolWord r.error.isNone :: m.frame.stack.words) :
      Concludes env body m (.call c offset size) (some r) none
        { m with
          world := w
          gas := m.gas.refund r.gasRemaining Opcode.call.label
          frame := { m.frame with memory, stack, returned := r.output, pc := m.frame.pc + 1 } }
  /-- It takes in the address of a contract. -/
  | create {c : Creation} {r : FrameResult} {w : World} {stack : Stack}
      (answer : createWith env body c m.world = .ok (r, w))
      (pushed : stack.words = r.address.elim 0 addressWord :: m.frame.stack.words) :
      Concludes env body m (.create c) (some r) none
        { m with
          world := w
          gas := m.gas.refund r.gasRemaining Opcode.create.label
          frame := { m.frame with
            stack
            returned := if r.error.isSome then r.output else []
            pc := m.frame.pc + 1 } }

/-- What is paid for memory is not given back. -/
theorem Memory.PaidBy.refund {costs : EffectCosts} {memory memory' : Memory} {gas : Meter}
    {op : Opcode} (h : memory.PaidBy costs gas) (hsize : memory'.size = memory.size)
    (amount : Gas) : memory'.PaidBy costs (gas.refund amount op.label) :=
  h.of_size hsize (Meter.labelled_refund_of_ne (Ne.symm op.label_ne_memory))

theorem Concludes.paid {env : Setting} {body : Exec Exit} {m m' : Machine} {ctl : Control}
    {below : Option FrameResult} {exit : Option Exit} {costs : EffectCosts}
    (h : Concludes env body m ctl below exit m') (hm : m.frame.memory.PaidBy costs m.gas) :
    m'.frame.memory.PaidBy costs m'.gas := by
  cases h with
  | exit how => exact hm
  | jumped => exact hm
  | next => exact hm
  | call answer written pushed => exact hm.refund (Memory.size_write written) _
  | create answer pushed => exact hm.refund rfl _

theorem Acts.paid {env : Setting} {op : Opcode} {m m' : Machine} {ws : List Word} {ctl : Control}
    {costs : EffectCosts} (h : Acts env m op ws ctl m') (hm : m.frame.memory.PaidBy costs m.gas) :
    m'.frame.memory.PaidBy costs m'.gas := by
  cases h with
  | stores bytes written => exact hm.of_size (Memory.size_write written) rfl
  | _ => exact hm

namespace Exec

variable {env : Setting} {body : Exec Exit}

/-- There is room for the word that says how a frame below has ended. -/
theorem roomy_of_asks {op : Opcode} {m mid m' : Machine} {ws : List Word} {ctl : Control}
    (h : Performed env op m ws mid ctl m')
    (asks : (∃ c offset size, ctl = .call c offset size) ∨ ∃ c, ctl = .create c) (w : Word) :
    ∃ stack, m'.frame.stack.push w = .ok stack ∧ stack.words = w :: m'.frame.stack.words := by
  have hheight := congrArg List.length h.ready.words
  have hle := m.frame.stack.height_le
  rw [List.length_append, h.count] at hheight
  have hsame : 0 < op.takes ∧ m' = mid := by
    have hacts := h.acts
    obtain ⟨c, offset, size, rfl⟩ | ⟨c, rfl⟩ := asks <;> cases hacts <;>
      exact ⟨Nat.succ_pos _, rfl⟩
  obtain ⟨htakes, rfl⟩ := hsame
  obtain hroom | ⟨-, hfull⟩ := push_cases m'.frame.stack w
  · exact hroom
  · unfold Stack.height at hfull
    omega

theorem concludes_call {m : Machine} (room : ∀ w, ∃ stack, m.frame.stack.push w = .ok stack ∧
      stack.words = w :: m.frame.stack.words) (c : Call) (offset size : Nat) :
    Meets (do
        resumeCall offset size (← descend (callWith env body c))
        advance
        return none) m
      (fun exit m' => Concludes env body m (.call c offset size)
        (answer env body m (.call c offset size)) exit m')
      fun stop _ => ∃ a, stop = .abort a := by
  refine Meets.bind (descend_meets (fun r w h => ?_) fun a _ => ⟨a, rfl⟩)
  obtain ⟨stack, hpush, hwords⟩ := room (boolWord r.error.isNone)
  refine Meets.bind (Meets.bind (show Meets (giveBack _ _) _ _ _ from Meets.bind ?_))
  unfold Meets writeMemory onMemory
  cases hwrite : m.frame.memory.write offset (r.output.take size) with
  | error f =>
    simp only [hwrite]
    exact ⟨_, rfl⟩
  | ok memory =>
    simp only [hwrite]
    refine Meets.bind (show Meets (modifyFrame _) _ _ _ from meets_push hpush ?_)
    simp only [answer, h]
    exact .call h hwrite hwords

theorem concludes_create {m : Machine} (room : ∀ w, ∃ stack, m.frame.stack.push w = .ok stack ∧
      stack.words = w :: m.frame.stack.words) (c : Creation) :
    Meets (do
        resumeCreation (← descend (createWith env body c))
        advance
        return none) m
      (fun exit m' => Concludes env body m (.create c) (answer env body m (.create c)) exit m')
      fun stop _ => ∃ a, stop = .abort a := by
  refine Meets.bind (descend_meets (fun r w h => ?_) fun a _ => ⟨a, rfl⟩)
  obtain ⟨stack, hpush, hwords⟩ := room (r.address.elim 0 addressWord)
  refine Meets.bind (Meets.bind (show Meets (giveBack _ _) _ _ _ from Meets.bind ?_))
  refine show Meets (modifyFrame _) _ _ _ from meets_push hpush ?_
  simp only [answer, h]
  exact .create h hwords

/-- **What a turn does**: its instruction acts, and it goes on; or its instruction fails. -/
theorem turn_meets (env : Setting) (body : Exec Exit) (byte : UInt8) (m : Machine) :
    Meets (turn env body byte) m
      (fun exit m' => ∃ ctl m₁, step env byte m = .ok ctl m₁ ∧
        Concludes env body m₁ ctl (below env body byte m) exit m')
      (Stumbles env.params.effects (.ofByte byte) m) := by
  refine Meets.bind ((step_performs_acts env byte m).remember.mono ?_ fun _ _ h => h.2)
  rintro ctl m₁ ⟨hstep, ws, mid, hperformed⟩
  have hbelow : below env body byte m = answer env body m₁ ctl := by
    unfold below
    rw [hstep]
  rw [hbelow]
  -- what follows the instruction can be abandoned only
  refine Meets.mono (Q := fun exit m' => Concludes env body m₁ ctl (answer env body m₁ ctl) exit m')
    (S := fun stop _ => ∃ a, stop = Stop.abort a) ?_ (fun _ _ h => ⟨ctl, m₁, hstep, h⟩) ?_
  · cases ctl with
    | next => exact Meets.bind (show Meets advance m₁ _ _ from Concludes.next)
    | jumped => exact Meets.pure .jumped
    | exit how => exact Meets.pure (.exit how)
    | call c offset size =>
      exact concludes_call (roomy_of_asks hperformed (.inl ⟨_, _, _, rfl⟩)) c offset size
    | create c => exact concludes_create (roomy_of_asks hperformed (.inr ⟨_, rfl⟩)) c
  · rintro _ _ ⟨a, rfl⟩
    exact stumbles_abort a

/-! ### Runs -/

/-- A turn that a run has taken: the machine it started on, its byte, and the steps that were left
for a frame below. -/
structure Taken where
  machine : Machine
  byte : UInt8
  steps : Nat

/-- **A run comes from a machine to another one** by turns that it has taken, the latest first. -/
inductive Ran (env : Setting) (m : Machine) : List Taken → Machine → Prop where
  | here : Ran env m [] m
  | turn {past : List Taken} {m₁ m₂ : Machine} {byte : UInt8} {steps : Nat}
      (before : Ran env m past m₁) (next : m₁.frame.code[m₁.frame.pc]? = some byte)
      (turn : turn env (run env steps) byte m₁ = .ok none m₂) :
      Ran env m (⟨m₁, byte, steps⟩ :: past) m₂

section

variable {m₀ m m' : Machine} {past : List Taken} {steps : Nat}

/-- What turns preserve, a run does. -/
theorem Ran.keeps {P : Machine → Prop} (h : Ran env m past m')
    (turn : ∀ steps byte m₁ m₂, Exec.turn env (run env steps) byte m₁ = .ok none m₂ → P m₁ → P m₂)
    (hm : P m) : P m' := by
  induction h with
  | here => exact hm
  | turn _ _ hturn ih => exact turn _ _ _ _ hturn ih

/-- **Every iteration of a run** starts on a machine that turns have led to. -/
theorem traced_ran (h : Ran env m₀ past m) (hm' : m' ∈ (traced env steps m).1) :
    ∃ past', Ran env m₀ past' m' := by
  induction steps generalizing m past with
  | zero => cases hm'
  | succ steps ih =>
    unfold traced at hm'
    split at hm'
    · obtain rfl := List.mem_singleton.1 hm'
      exact ⟨past, h⟩
    · rename_i byte next
      split at hm'
      · obtain rfl := List.mem_singleton.1 hm'
        exact ⟨past, h⟩
      · obtain rfl := List.mem_singleton.1 hm'
        exact ⟨past, h⟩
      · rename_i m₁ hturn
        obtain rfl | hrest := List.mem_cons.1 hm'
        · exact ⟨past, h⟩
        · exact ih (.turn h next hturn) hrest

/-- **What a run comes to, its last iteration does**: it finds no more code, or its turn ends the
frame or stops. -/
theorem run_traced (env : Setting) (steps : Nat) (m : Machine) :
    Meets (run env steps) m
      (fun exit m' => ∃ mid, (traced env steps m).1.getLast? = some mid ∧
        ((mid.frame.code[mid.frame.pc]? = none ∧ exit = .returned [] ∧ m' = mid) ∨
        ∃ byte few, mid.frame.code[mid.frame.pc]? = some byte ∧
          turn env (run env few) byte mid = .ok (some exit) m'))
      fun stop m' => stop = .abort .unfinished ∨
        ∃ mid, (traced env steps m).1.getLast? = some mid ∧ ∃ byte few,
          mid.frame.code[mid.frame.pc]? = some byte ∧
            turn env (run env few) byte mid = .error stop m' := by
  rw [Meets, ← traced_snd]
  induction steps generalizing m with
  | zero => exact .inl rfl
  | succ steps ih =>
    unfold traced
    cases hnext : m.frame.code[m.frame.pc]? with
    | none => exact ⟨m, rfl, .inl ⟨hnext, rfl, rfl⟩⟩
    | some byte =>
      dsimp only
      cases hturn : turn env (run env steps) byte m with
      | error stop m' => exact .inr ⟨m, rfl, byte, steps, hnext, hturn⟩
      | ok exit m₁ =>
        cases exit with
        | some how => exact ⟨m, rfl, .inr ⟨byte, steps, hnext, hturn⟩⟩
        | none =>
          have hlast : ∀ {mid}, (traced env steps m₁).1.getLast? = some mid →
              (m :: (traced env steps m₁).1).getLast? = some mid := fun h => by
            rw [List.getLast?_cons, h]
            rfl
          have hrest := ih m₁
          dsimp only
          split at hrest
          · obtain ⟨mid, hmid, hends⟩ := hrest
            exact ⟨mid, hlast hmid, hends⟩
          · obtain hcut | ⟨mid, hmid, hends⟩ := hrest
            · exact .inl hcut
            · exact .inr ⟨mid, hlast hmid, hends⟩

end

end Exec

/-! ### Frames -/

/-- Whether an error is about the words of a stack. -/
def LedgerError.isOfStack : LedgerError → Bool
  | .stackUnderflow | .stackOverflow => true
  | _ => false

/-- A stop for something else than the words of a stack. -/
def Stop.OffStack (stop : Stop) : Prop := ∀ e, stop = .error e → e.isOfStack = false

theorem Stop.offStack_error {e : LedgerError} (h : e.isOfStack = false) :
    Stop.OffStack (.error e) := by
  rintro _ ⟨⟩
  exact h

/-- **What a frame has to itself is the same**: its stack, its memory, and what it has paid for
that. -/
structure Machine.SameHold (m m' : Machine) : Prop where
  stack : m'.frame.stack = m.frame.stack
  memory : m'.frame.memory = m.frame.memory
  paid : m'.gas.labelled "memory" = m.gas.labelled "memory"

theorem Machine.SameHold.trans (a b c : Machine) (h : a.SameHold b) (h' : b.SameHold c) :
    a.SameHold c := ⟨h'.stack.trans h.stack, h'.memory.trans h.memory, h'.paid.trans h.paid⟩

/-- **The machine is blank**: there is nothing on its stack and nothing in its memory, and nothing
has been paid for that. -/
structure Machine.Blank (m : Machine) : Prop where
  stack : m.frame.stack = .empty
  memory : m.frame.memory = .empty
  paid : m.gas.labelled "memory" = 0

theorem Machine.Blank.of_sameHold {m m' : Machine} (h : m.Blank) (h' : m.SameHold m') : m'.Blank :=
  ⟨h'.stack.trans h.stack, h'.memory.trans h.memory, h'.paid.trans h.paid⟩

namespace Exec

variable {α β : Type} {env : Setting} {body : Exec Exit}

/-- **The action is beside what a frame has to itself.** -/
abbrev Beside (x : Exec α) : Prop := Keeps Stop.OffStack Machine.SameHold x

theorem Beside.bind {x : Exec α} {f : α → Exec β} (hx : Beside x) (hf : ∀ a, Beside (f a)) :
    Beside (x >>= f) := Keeps.bind Machine.SameHold.trans hx hf

theorem beside_pure (a : α) : Beside (pure a) := fun _ => Meets.pure ⟨rfl, rfl, rfl⟩

theorem beside_inspect (g : Machine → α) : Beside (inspect g) := fun _ => ⟨rfl, rfl, rfl⟩

theorem beside_modifyView (f : View → View) : Beside (modifyView f) := fun _ => ⟨rfl, rfl, rfl⟩

theorem beside_load (code : Bytes) : Beside (modifyFrame (·.load code)) :=
  fun _ => ⟨rfl, rfl, rfl⟩

theorem beside_fail {e : LedgerError} (h : e.isOfStack = false) : Beside (fail e : Exec α) :=
  fun _ => Meets.throw ⟨Stop.offStack_error h, fun _ _ => ⟨rfl, rfl, rfl⟩⟩

theorem beside_charge {amount : Gas} {label : String} (h : label ≠ "memory") :
    Beside (charge amount label) := by
  intro m
  unfold Meets charge
  cases hgas : m.gas.consume amount label with
  | ok gas =>
    refine ⟨rfl, rfl, ?_⟩
    rw [Meter.labelled_consume hgas, if_neg (Ne.symm h)]
  | error stop =>
    refine ⟨?_, fun _ _ => ⟨rfl, rfl, rfl⟩⟩
    obtain ⟨available, rfl⟩ | rfl := consume_error hgas
    · exact Stop.offStack_error rfl
    · exact nofun

theorem beside_transfer (source target : Address) (amount : Wei) :
    Beside (onView (View.transfer env.store source target amount)) := by
  intro m
  have ht := View.transfer_meets env.store source target amount m.world.view
  unfold Meets at ht ⊢
  unfold onView
  split at ht
  · rename_i h
    simp only [h]
    exact ⟨rfl, rfl, rfl⟩
  · rename_i h
    simp only [h]
    refine ⟨?_, fun _ _ => ⟨rfl, rfl, rfl⟩⟩
    obtain ⟨-, rfl | rfl⟩ := ht <;> exact Stop.offStack_error rfl

theorem beside_openCall (c : Call) : Beside (openCall env c) := by
  refine (beside_charge (by decide)).bind fun _ => Beside.bind ?_ fun _ =>
    (beside_inspect _).bind fun code => ?_
  · unfold bring
    split_ifs
    · exact (beside_charge (by decide)).bind fun _ => beside_transfer _ _ _
    · exact beside_pure _
  · split_ifs
    · exact beside_pure _
    · exact (beside_load code).bind fun _ => beside_pure _

theorem beside_openCreation (address : Address) (c : Creation) :
    Beside (openCreation env address c) := by
  refine (beside_charge (by decide)).bind fun _ => Beside.bind ?_ fun _ =>
    Beside.bind ?_ fun _ => beside_load c.initCode
  · refine (beside_inspect _).bind fun existing => ?_
    split_ifs
    · exact beside_fail rfl
    · exact beside_modifyView _
  · unfold endow
    split_ifs
    · exact beside_transfer _ _ _
    · exact beside_pure _

theorem beside_closeCreation (address : Address) (exit : Exit) :
    Beside (closeCreation env address exit) := by
  cases exit with
  | reverted output => exact beside_pure _
  | returned code =>
    refine Beside.bind ?_ fun _ => beside_pure _
    unfold deploy
    dsimp only
    split_ifs
    · exact (beside_fail rfl).bind fun _ => (beside_charge (by decide)).bind fun _ =>
        beside_modifyView _
    · exact (beside_charge (by decide)).bind fun _ => beside_modifyView _

/-- A call that is entered stops for its stack only if its code does. -/
theorem enterCall_stack (c : Call) (m : Machine) :
    Meets (enterCall env body c) m (fun _ _ => True) fun stop m' => stop.OffStack ∨
      ∃ m₁, openCall env c m = .ok true m₁ ∧ body m₁ = .error stop m' := by
  rw [enterCall_eq_open]
  refine Meets.bind ((beside_openCall c m).remember.mono ?_ fun _ _ h => .inl h.2.1)
  rintro hasCode m₁ ⟨hopen, -⟩
  cases hasCode with
  | false => exact Meets.pure trivial
  | true =>
    exact (Meets.always body m₁).remember.mono (fun _ _ _ => trivial)
      fun _ _ h => .inr ⟨m₁, hopen, h.1⟩

/-- A creation that is entered stops for its stack only if its code does. -/
theorem enterCreation_stack (address : Address) (c : Creation) (m : Machine) :
    Meets (enterCreation env body address c) m (fun _ _ => True) fun stop m' => stop.OffStack ∨
      ∃ m₁, openCreation env address c m = .ok () m₁ ∧ body m₁ = .error stop m' := by
  rw [enterCreation_eq_open]
  refine Meets.bind ((beside_openCreation address c m).remember.mono ?_ fun _ _ h => .inl h.2.1)
  rintro _ m₁ ⟨hopen, -⟩
  refine Meets.bind ((Meets.always body m₁).remember.mono (fun exit m₂ _ => ?_)
    fun _ _ h => .inr ⟨m₁, hopen, h.1⟩)
  exact (beside_closeCreation address exit m₂).mono (fun _ _ _ => trivial) fun _ _ h => .inl h.1

end Exec

section

variable {env : Setting} {body : Exec Exit} {w w' : World} {r : FrameResult} {e : LedgerError}

/-- **A call starts its code on a blank machine.** -/
theorem Call.Starts.blank {c : Call} {m : Machine} (h : c.Starts env w m) : m.Blank :=
  Machine.Blank.of_sameHold ⟨rfl, rfl, rfl⟩ ((Exec.beside_openCall c (c.machine w)).of_ok h.2)

/-- A creation does, too. -/
theorem Creation.Starts.blank {c : Creation} {m : Machine} (h : c.Starts env w m) : m.Blank := by
  obtain ⟨-, view, -, hopen⟩ := h
  exact Machine.Blank.of_sameHold ⟨rfl, rfl, rfl⟩ ((Exec.beside_openCreation _ c _).of_ok hopen)

/-- The machine that a call starts its code on, if it comes to that. -/
def Call.start? (env : Setting) (c : Call) (w : World) : Option Machine :=
  match refusal? env w c.caller c.value c.depth, Exec.openCall env c (c.machine w) with
  | none, .ok true m => some m
  | _, _ => none

theorem Call.starts_of_start? {c : Call} {m : Machine} (h : c.start? env w = some m) :
    c.Starts env w m := by
  unfold start? at h
  split at h
  · rename_i hn hopen
    cases h
    exact ⟨hn, hopen⟩
  · cases h

/-- The machine that a creation starts its code on, if it comes to that. -/
def Creation.start? (env : Setting) (c : Creation) (w : World) : Option Machine :=
  match refusal? env w c.creator c.value c.depth, View.bumpNonce env.store c.creator w.view with
  | none, .ok () view =>
    match Exec.openCreation env (c.address env w) c (c.machine env w view) with
    | .ok () m => some m
    | .error _ _ => none
  | _, _ => none

theorem Call.start?_eq_some_iff {c : Call} {m : Machine} :
    c.start? env w = some m ↔ c.Starts env w m := by
  refine ⟨starts_of_start?, fun ⟨hn, hopen⟩ => ?_⟩
  rw [start?, hn, hopen]

theorem Creation.start?_eq_some_iff {c : Creation} {m : Machine} :
    c.start? env w = some m ↔ c.Starts env w m := by
  constructor
  · intro h
    unfold start? at h
    split at h
    · rename_i view hn hview
      split at h
      · rename_i hopen
        cases h
        exact ⟨hn, view, hview, hopen⟩
      · cases h
    · cases h
  · rintro ⟨hn, view, hview, hopen⟩
    rw [start?, hn, hview]
    dsimp only
    rw [hopen]

theorem refusal?_isOfStack {payer : Address} {value : Wei} {depth : Nat}
    (h : refusal? env w payer value depth = some e) : e.isOfStack = false := by
  unfold refusal? at h
  split_ifs at h <;> cases h <;> rfl

/-- **A call fails for its stack** only if the code does that it starts. -/
theorem callWith_stack_error {c : Call} (h : callWith env body c w = .ok (r, w'))
    (he : r.error = some e) (hstack : e.isOfStack = true) :
    ∃ m, c.Starts env w m ∧ ∃ m', body m = .error (.error e) m' := by
  obtain ⟨_, hr, rfl, -⟩ | ⟨hn, hs⟩ := callWith_cases h
  · cases he
    rw [refusal?_isOfStack hr] at hstack
    cases hstack
  · obtain rfl | ⟨m', hm'⟩ := hs.cause he
    · cases hstack
    obtain hoff | ⟨m, hopen, hm⟩ := (Exec.enterCall_stack c _).of_error hm'
    · rw [hoff e rfl] at hstack
      cases hstack
    · exact ⟨m, ⟨hn, hopen⟩, m', hm⟩

/-- **A creation fails for its stack** only if the code does that it starts. -/
theorem createWith_stack_error {c : Creation} (h : createWith env body c w = .ok (r, w'))
    (he : r.error = some e) (hstack : e.isOfStack = true) :
    ∃ m, c.Starts env w m ∧ ∃ m', body m = .error (.error e) m' := by
  obtain ⟨_, hr, rfl, -⟩ | ⟨hn, view, r', hv, hs, rfl⟩ := createWith_cases h
  · cases he
    rw [refusal?_isOfStack hr] at hstack
    cases hstack
  · obtain rfl | ⟨m', hm'⟩ := hs.cause he
    · cases hstack
    obtain hoff | ⟨m, hopen, hm⟩ := (Exec.enterCreation_stack _ c _).of_error hm'
    · rw [hoff e rfl] at hstack
      cases hstack
    · exact ⟨m, ⟨hn, view, hv, hopen⟩, m', hm⟩

end

end MeteredLedger
