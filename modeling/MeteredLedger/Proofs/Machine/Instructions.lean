import MeteredLedger.Proofs.Machine.Decoding
import MeteredLedger.Proofs.Machine.MemoryBytes

/-!
# What an instruction does

An instruction takes its operands from the stack, pays, and makes sure that the memory which it is
going to touch is there (`Machine.Readied`). Then it acts, in one of the ways that `Acts` lists: it
puts a word in place of the operands, moves words on the stack, writes to memory, to a slot or to
the logs, jumps, ends the frame, or asks for another one. `Exec.step_performs_acts` says so of all
instructions at once. What it says of an instruction that fails is what too few or too many words
have to do with it, and that the memory which is there is still the one that is paid for
(`Stumbles`).
-/

namespace MeteredLedger

open Bytes

/-! ### What an instruction takes and gives -/

namespace Opcode

/-- The words that an instruction takes from the stack. -/
def takes : Opcode → Nat
  | unary _ | balance | callDataLoad | blockHash | pop | mload | sload | jump => 1
  | binary _ | keccak256 | mstore | mstore8 | sstore | jumpi | ret | revert => 2
  | callDataCopy | codeCopy | create => 3
  | call => 7
  | log topics => topics + 2
  | dup position => position
  | swap position => position + 1
  | stop | reading _ | jumpdest | push _ | invalid _ => 0

/-- The words that it leaves in their place. -/
def gives : Opcode → Nat
  | binary _ | unary _ | keccak256 | reading _ | balance | callDataLoad | blockHash | mload | sload
  | push _ | create | call => 1
  | dup position | swap position => position + 1
  | stop | callDataCopy | codeCopy | pop | mstore | mstore8 | sstore | jump | jumpi | jumpdest
  | log _ | ret | revert | invalid _ => 0

/-- The regions of memory that it touches, each by its offset and its size. -/
def regions : Opcode → List Word → List (Nat × Nat)
  | mload, [offset] | mstore, [offset, _] => [(offset.toNat, 32)]
  | mstore8, [offset, _] => [(offset.toNat, 1)]
  | keccak256, [offset, size] | ret, [offset, size] | revert, [offset, size]
  | callDataCopy, [offset, _, size] | codeCopy, [offset, _, size] | create, [_, offset, size]
  | log _, offset :: size :: _ => [(offset.toNat, size.toNat)]
  | call, [_, _, _, inOffset, inSize, outOffset, outSize] =>
    [(inOffset.toNat, inSize.toNat), (outOffset.toNat, outSize.toNat)]
  | _, _ => []

/-- The word that it computes from its operands, on a machine that has been made ready for it. -/
def word? (env : Setting) (m : Machine) : Opcode → List Word → Option Word
  | binary f, [a, b] => some (f.eval a b)
  | unary f, [a] => some (f.eval a)
  | keccak256, [offset, size] =>
    some (Hash.digest (stretch m.frame.memory.byte offset.toNat size.toNat)).bits
  | reading r, [] => some (r.eval env m)
  | balance, [a] => some ((m.world.view.balance env.store (wordAddress a)).setWidth 256)
  | callDataLoad, [start] =>
    some (bytesWord (zeroExtended m.frame.input (clampOffset start m.frame.input.size) 32))
  | blockHash, [number] =>
    some (if number.toNat < UInt64.size then env.context.blockHash (UInt64.ofNat number.toNat)
      else .zero).bits
  | mload, [offset] => some (bytesWord (stretch m.frame.memory.byte offset.toNat 32))
  | sload, [key] => some (bytesWord (m.world.view.slot env.store ⟨m.frame.address, ⟨key⟩⟩))
  | push size, [] => some (bytesWord (zeroExtended m.frame.code (m.frame.pc + 1) size))
  | _, _ => none

/-- The bytes that it writes to memory, and where, for a frame. -/
def stored? (f : Frame) : Opcode → List Word → Option (Nat × Bytes)
  | mstore, [offset, value] => some (offset.toNat, bigEndian 32 value.toNat)
  | mstore8, [offset, value] => some (offset.toNat, [UInt8.ofNat value.toNat])
  | callDataCopy, [offset, start, size] =>
    some (offset.toNat, zeroExtended f.input (clampOffset start f.input.size) size.toNat)
  | codeCopy, [offset, start, size] =>
    some (offset.toNat, zeroExtended f.code (clampOffset start f.code.size) size.toNat)
  | _, _ => none

/-- No instruction is charged under the label of memory. -/
theorem label_ne_memory (op : Opcode) : op.label ≠ "memory" := by
  cases op with
  | binary f => cases f <;> simp [label]
  | unary f => cases f <;> simp [label]
  | reading r => cases r <;> simp [label]
  | _ => simp [label]

/-- An instruction that a byte can stand for: positions on the stack are counted from 1. -/
def Proper (op : Opcode) : Prop := op ≠ dup 0 ∧ op ≠ swap 0

theorem proper_ofByte (byte : UInt8) : (ofByte byte).Proper :=
  Bytes.forall_byte (P := fun b => ofByte b ≠ dup 0 ∧ ofByte b ≠ swap 0) (by decide +kernel) byte

end Opcode

/-! ### Making ready -/

/-- **The memory is paid for by its size**: what a meter holds under the label of memory is what a
memory of so many words costs. -/
def Memory.PaidBy (costs : EffectCosts) (memory : Memory) (gas : Meter) : Prop :=
  32 ∣ memory.size ∧ gas.labelled "memory" = Memory.cost costs (memory.size / 32)

/-- Memory of the same size is paid for by the same. -/
theorem Memory.PaidBy.of_size {costs : EffectCosts} {memory memory' : Memory} {gas gas' : Meter}
    (h : memory.PaidBy costs gas) (hsize : memory'.size = memory.size)
    (hgas : gas'.labelled "memory" = gas.labelled "memory") : memory'.PaidBy costs gas' := by
  unfold PaidBy
  rw [hsize, hgas]
  exact h

/-- **A machine has been made ready for an instruction**: words have been taken from its stack, gas
has been paid, and memory has grown; nothing else has changed. -/
structure Machine.Readied (costs : EffectCosts) (words : List Word) (m m' : Machine) : Prop where
  words : m.frame.stack.words = words ++ m'.frame.stack.words
  frame : m'.frame = { m.frame with stack := m'.frame.stack, memory := m'.frame.memory }
  view : m'.world.view = m.world.view
  memory : m.frame.memory.Grows m'.frame.memory
  paid : m.frame.memory.PaidBy costs m.gas → m'.frame.memory.PaidBy costs m'.gas

theorem Machine.Readied.refl (costs : EffectCosts) (m : Machine) : m.Readied costs [] m :=
  ⟨rfl, rfl, rfl, .refl _, id⟩

theorem Machine.Readied.trans {costs : EffectCosts} {few more : List Word} {a b c : Machine}
    (h : a.Readied costs few b) (h' : b.Readied costs more c) :
    a.Readied costs (few ++ more) c where
  words := by rw [h.words, h'.words, List.append_assoc]
  frame := by rw [h'.frame, h.frame]
  view := h'.view.trans h.view
  memory := h.memory.trans h'.memory
  paid := fun hp => h'.paid (h.paid hp)

/-- How an instruction stops that fails. -/
structure Stumbles (costs : EffectCosts) (op : Opcode) (m : Machine) (stop : Stop) (m' : Machine) :
    Prop where
  /-- Words are missing only if there are too few. -/
  underflow : stop = .error .stackUnderflow → m.frame.stack.height < op.takes
  /-- Room is missing only if there would be too many. -/
  overflow : stop = .error .stackOverflow → Stack.capacity + op.takes < m.frame.stack.height + op.gives
  /-- The memory that is there is paid for. -/
  paid : ∀ e, stop = .error e →
    m.frame.memory.PaidBy costs m.gas → m'.frame.memory.PaidBy costs m'.gas

/-! ### Acting -/

/-- Where a region starts once it has been paid for: one without a size may be anywhere. -/
def regionStart (offset size : Word) : Nat := if size = 0 then 0 else offset.toNat

/-- **How an instruction acts**, with its operands, on a machine that has been made ready. -/
inductive Acts (env : Setting) (m : Machine) : Opcode → List Word → Control → Machine → Prop where
  /-- It ends the frame without output. -/
  | stops : Acts env m .stop [] (.exit (.returned [])) m
  /-- It ends the frame with a region of memory as its output. -/
  | returns (offset size : Word) : Acts env m .ret [offset, size]
      (.exit (.returned (stretch m.frame.memory.byte offset.toNat size.toNat))) m
  /-- It ends the frame and takes everything back. -/
  | reverts (offset size : Word) : Acts env m .revert [offset, size]
      (.exit (.reverted (stretch m.frame.memory.byte offset.toNat size.toNat))) m
  /-- It puts a word on the stack. -/
  | puts {op : Opcode} {ws : List Word} {w : Word} {stack : Stack}
      (word : op.word? env m ws = some w) (pushed : stack.words = w :: m.frame.stack.words) :
      Acts env m op ws .next
        { m with frame := { m.frame with stack, pc := m.frame.pc + op.carried } }
  /-- It puts a copy of one of its operands on them. -/
  | copies {position : Nat} {ws : List Word} {w : Word} {stack : Stack}
      (word : ws[position - 1]? = some w) (pushed : stack.words = w :: ws ++ m.frame.stack.words) :
      Acts env m (.dup position) ws .next { m with frame := { m.frame with stack } }
  /-- It exchanges the first of its operands with the last. -/
  | exchanges {position : Nat} {ws : List Word} {top other : Word} {stack : Stack}
      (first : ws[0]? = some top) (last : ws[position]? = some other)
      (pushed : stack.words = (ws.set 0 other).set position top ++ m.frame.stack.words) :
      Acts env m (.swap position) ws .next { m with frame := { m.frame with stack } }
  /-- It drops its operand. -/
  | drops (w : Word) : Acts env m .pop [w] .next m
  /-- It does nothing. -/
  | marks : Acts env m .jumpdest [] .next m
  /-- It does not jump. -/
  | passes (dest : Word) : Acts env m .jumpi [dest, 0] .next m
  /-- It jumps. -/
  | jumps {op : Opcode} {dest : Word} {ws : List Word} {target : Nat}
      (jump : op = .jump ∧ ws = [] ∨ op = .jumpi ∧ ∃ condition, condition ≠ 0 ∧ ws = [condition])
      (place : m.frame.jumpTarget dest = .ok target) :
      Acts env m op (dest :: ws) .jumped { m with frame := { m.frame with pc := target } }
  /-- It writes to memory. -/
  | stores {op : Opcode} {ws : List Word} {offset : Nat} {bs : Bytes} {memory : Memory}
      (bytes : op.stored? m.frame ws = some (offset, bs))
      (written : m.frame.memory.write offset bs = .ok memory) :
      Acts env m op ws .next { m with frame := { m.frame with memory } }
  /-- It writes a slot of its account. -/
  | writes (key value : Word) : Acts env m .sstore [key, value] .next
      (m.withView (m.world.view.setSlot ⟨m.frame.address, ⟨key⟩⟩ (slotValue value)))
  /-- It leaves a log in its name. -/
  | leaves (offset size : Word) (topics : List Word) :
      Acts env m (.log topics.length) (offset :: size :: topics) .next
        (m.withView (m.world.view.addLog ⟨m.frame.address, topics.map fun w => ⟨w⟩,
          stretch m.frame.memory.byte offset.toNat size.toNat⟩))
  /-- It asks for a call. -/
  | calls {c : Call} {wanted value target inOffset inSize outOffset outSize : Word}
      (caller : c.caller = m.frame.address) (address : c.address = wordAddress target)
      (input : c.input = stretch m.frame.memory.byte inOffset.toNat inSize.toNat)
      (amount : wordWei? value = some c.value) (depth : c.depth = m.frame.depth + 1) :
      Acts env m .call [wanted, target, value, inOffset, inSize, outOffset, outSize]
        (.call c (regionStart outOffset outSize) outSize.toNat) m
  /-- It asks for a creation. -/
  | creates {c : Creation} {value offset size : Word} (creator : c.creator = m.frame.address)
      (initCode : c.initCode = stretch m.frame.memory.byte offset.toNat size.toNat)
      (amount : wordWei? value = some c.value) (depth : c.depth = m.frame.depth + 1) :
      Acts env m .create [value, offset, size] (.create c) m
  /-- It does not ask, as there is no such value. -/
  | declines {op : Opcode} {ws : List Word} {stack : Stack} (asks : op = .create ∨ op = .call)
      (pushed : stack.words = 0 :: m.frame.stack.words) :
      Acts env m op ws .next { m with frame := { m.frame with stack, returned := [] } }

/-- An instruction that computes a word writes nothing to memory. -/
theorem Opcode.stored?_of_word {env : Setting} {m : Machine} {op : Opcode} {ws : List Word}
    {w : Word} (h : op.word? env m ws = some w) (f : Frame) : op.stored? f ws = none := by
  cases op <;> first | rfl | cases h

/-- **What an instruction does to memory**: it writes the bytes that it stores, or nothing. -/
theorem Acts.stored {env : Setting} {m m' : Machine} {op : Opcode} {ws : List Word} {ctl : Control}
    (h : Acts env m op ws ctl m') :
    (op.stored? m.frame ws = none ∧ m'.frame.memory = m.frame.memory) ∨
    ∃ offset bs, op.stored? m.frame ws = some (offset, bs) ∧ ctl = .next ∧
      m.frame.memory.write offset bs = .ok m'.frame.memory ∧
      m'.frame.stack = m.frame.stack := by
  cases h with
  | puts word pushed => exact .inl ⟨Opcode.stored?_of_word word m.frame, rfl⟩
  | jumps jump place =>
    obtain ⟨rfl, rfl⟩ | ⟨rfl, condition, -, rfl⟩ := jump <;> exact .inl ⟨rfl, rfl⟩
  | declines asks pushed => obtain rfl | rfl := asks <;> exact .inl ⟨rfl, rfl⟩
  | stores bytes written => exact .inr ⟨_, _, bytes, rfl, written, rfl⟩
  | _ => exact .inl ⟨rfl, rfl⟩

/-- An instruction that computes a word puts it on the stack. -/
theorem Acts.word {env : Setting} {m m' : Machine} {op : Opcode} {ws : List Word} {ctl : Control}
    {w : Word} (h : Acts env m op ws ctl m') (hw : op.word? env m ws = some w) :
    ctl = .next ∧ m'.frame.stack.words = w :: m.frame.stack.words := by
  cases h with
  | puts word pushed =>
    obtain rfl := Option.some.inj (word.symm.trans hw)
    exact ⟨rfl, pushed⟩
  | jumps jump place => obtain ⟨rfl, rfl⟩ | ⟨rfl, condition, -, rfl⟩ := jump <;> cases hw
  | declines asks pushed => obtain rfl | rfl := asks <;> cases hw
  | stores bytes written =>
    rw [Opcode.stored?_of_word hw] at bytes
    cases bytes
  | _ => cases hw

/-- **What an instruction does**: it takes its operands and is made ready, and then it acts. -/
structure Performed (env : Setting) (op : Opcode) (m : Machine) (ws : List Word) (mid : Machine)
    (ctl : Control) (m' : Machine) : Prop where
  count : ws.length = op.takes
  ready : m.Readied env.params.effects ws mid
  covered : ∀ region ∈ op.regions ws, mid.frame.memory.Covers region
  acts : Acts env mid op ws ctl m'

/-- An instruction that fails for something else than its words. -/
theorem Machine.Readied.stumbles {costs : EffectCosts} {op : Opcode} {m₀ m : Machine}
    {ws : List Word} {e : LedgerError} (h : m₀.Readied costs ws m) (underflow : e ≠ .stackUnderflow)
    (overflow : e ≠ .stackOverflow) : Stumbles costs op m₀ (.error e) m :=
  ⟨fun he => absurd (Stop.error.inj he) underflow, fun he => absurd (Stop.error.inj he) overflow,
    fun _ _ => h.paid⟩

theorem stumbles_abort {costs : EffectCosts} {op : Opcode} {m₀ m : Machine} (a : Abort) :
    Stumbles costs op m₀ (.abort a) m := ⟨nofun, nofun, nofun⟩

/-! ### Getting ready -/

namespace Machine.Readied

variable {costs : EffectCosts} {ws : List Word} {m₀ m : Machine}

/-- Words are taken from the stack. -/
theorem take (h : m₀.Readied costs ws m) {more : List Word} {stack : Stack}
    (hs : m.frame.stack.words = more ++ stack.words) :
    m₀.Readied costs (ws ++ more) { m with frame := { m.frame with stack } } :=
  h.trans ⟨hs, rfl, rfl, .refl _, id⟩

/-- Gas is paid for something else than memory. -/
theorem pay (h : m₀.Readied costs ws m) {amount : Gas} {label : String} {gas : Meter}
    {ledger : Meter} (hlabel : label ≠ "memory") (hgas : m.gas.consume amount label = .ok gas) :
    m₀.Readied costs ws { m with gas, world := { m.world with ledger } } := by
  refine ⟨h.words, h.frame, h.view, h.memory, fun hp => ⟨(h.paid hp).1, ?_⟩⟩
  rw [Meter.labelled_consume hgas, if_neg (Ne.symm hlabel)]
  exact (h.paid hp).2

end Machine.Readied

/-- **Growing is paid for**: the difference is what there was to pay. -/
theorem Memory.PaidBy.grow {costs : EffectCosts} {memory memory' : Memory} {gas gas' : Meter}
    {limit : Nat} {cost : Gas} (h : memory.PaidBy costs gas)
    (hcost : growthCost costs memory.size limit = .ok cost)
    (hgas : gas.consume cost "memory" = .ok gas') (hgrow : memory.grow limit = .ok memory') :
    memory'.PaidBy costs gas' := by
  have hsize := size_grow hgrow
  obtain ⟨⟨words, hwords⟩, hpaid⟩ := h
  have hcount : wordsFor memory.size = words := by
    unfold wordsFor
    omega
  rw [hwords, Nat.mul_div_cancel_left words (by omega)] at hpaid
  rw [PaidBy, Meter.labelled_consume hgas, if_pos rfl, hpaid, hsize, hwords, Nat.mul_max_mul_left,
    Nat.mul_div_cancel_left _ (by omega)]
  refine ⟨Nat.dvd_mul_right _ _, ?_⟩
  unfold growthCost at hcost
  rw [hcount] at hcost
  dsimp only at hcost
  split_ifs at hcost with hfew hle
  · cases hcost
    rw [Nat.max_eq_left hfew]
    exact UInt64.add_zero _
  · cases hcost
    rw [Nat.max_eq_right (Nat.le_of_not_le hfew), UInt64.add_comm, UInt64.sub_add_cancel]

section

variable {env : Setting} {op : Opcode} {m mid m' : Machine} {ws : List Word} {ctl : Control}

/-- The operands are the words on top of the stack. -/
theorem Performed.operands (h : Performed env op m ws mid ctl m') :
    ws = m.frame.stack.words.take op.takes ∧
      mid.frame.stack.words = m.frame.stack.words.drop op.takes := by
  rw [h.ready.words, ← h.count, List.take_left, List.drop_left]
  exact ⟨rfl, rfl⟩

end

namespace Exec

variable {α : Type} {env : Setting} {op : Opcode} {m₀ m : Machine} {ws : List Word}

/-- **The rest of an instruction** that has been begun on a machine `m₀` and has come to `m`. -/
def Carries (env : Setting) (op : Opcode) (m₀ : Machine) (x : Exec Control) (m : Machine) : Prop :=
  Meets x m (fun ctl m' => ∃ ws mid, Performed env op m₀ ws mid ctl m')
    (Stumbles env.params.effects op m₀)

theorem Carries.inspect {g : Machine → α} {f : α → Exec Control}
    (h : Carries env op m₀ (f (g m)) m) : Carries env op m₀ (inspect g >>= f) m := meets_inspect h

/-- An instruction that has done what it does. -/
theorem Carries.done {ctl : Control} (h : m₀.Readied env.params.effects ws m)
    (count : ws.length = op.takes)
    (covered : ∀ region ∈ op.regions ws, m.frame.memory.Covers region)
    (acts : Acts env m op ws ctl m) : Carries env op m₀ (pure ctl) m :=
  Meets.pure ⟨ws, m, count, h, covered, acts⟩

/-! ### Gas -/

/-- A charge is made, or it stops the machine as it is. -/
theorem meets_charge {amount : Gas} {label : String} {Q : Unit → Machine → Prop}
    {S : Stop → Machine → Prop}
    (paid : ∀ gas, m.gas.consume amount label = .ok gas → Q () (m.charged gas amount label))
    (unpaid : (∀ gas, m.gas.consume amount label ≠ .ok gas) → ∀ stop, S stop m) :
    Meets (charge amount label) m Q S := by
  unfold Meets charge
  cases hgas : m.gas.consume amount label with
  | ok gas => exact paid gas hgas
  | error stop => exact unpaid (fun _ => by rw [hgas]; exact nofun) stop

theorem stumbles_consume {amount : Gas} {label : String} {stop : Stop}
    (h : m₀.Readied env.params.effects ws m) (hgas : m.gas.consume amount label = .error stop) :
    Stumbles env.params.effects op m₀ stop m := by
  obtain ⟨available, rfl⟩ | rfl := consume_error hgas
  · exact h.stumbles nofun nofun
  · exact stumbles_abort _

/-- Something else than memory is paid for, by an action that changes the meters alone. -/
theorem Carries.pays {x : Exec Unit} {ledger : Meter} {amount : Gas} {label : String}
    {f : Unit → Exec Control}
    (hx : x m = match m.gas.consume amount label with
      | .ok gas => .ok () { m with gas, world := { m.world with ledger } }
      | .error stop => .error stop m)
    (hlabel : label ≠ "memory") (h : m₀.Readied env.params.effects ws m)
    (next : ∀ m₁, m₀.Readied env.params.effects ws m₁ → m₁.frame = m.frame →
      Carries env op m₀ (f ()) m₁) : Carries env op m₀ (x >>= f) m := by
  refine Meets.bind ?_
  unfold Meets
  rw [hx]
  cases hgas : m.gas.consume amount label with
  | ok gas => exact next _ (h.pay hlabel hgas) rfl
  | error stop => exact stumbles_consume h hgas

theorem Carries.charge {amount : Gas} {label : String} {f : Unit → Exec Control}
    (hlabel : label ≠ "memory") (h : m₀.Readied env.params.effects ws m)
    (next : ∀ m₁, m₀.Readied env.params.effects ws m₁ → m₁.frame = m.frame →
      Carries env op m₀ (f ()) m₁) : Carries env op m₀ (charge amount label >>= f) m :=
  .pays rfl hlabel h next

theorem Carries.setAside {amount : Gas} {label : String} {f : Unit → Exec Control}
    (hlabel : label ≠ "memory") (h : m₀.Readied env.params.effects ws m)
    (next : ∀ m₁, m₀.Readied env.params.effects ws m₁ → m₁.frame = m.frame →
      Carries env op m₀ (f ()) m₁) : Carries env op m₀ (setAside amount label >>= f) m :=
  .pays rfl hlabel h next

/-! ### The stack -/

/-- There are so many words, or too few. -/
theorem popMany_cases (stack : Stack) (n : Nat) :
    (∃ v stack', stack.popMany n = .ok (v, stack') ∧ stack.words = v.toList ++ stack'.words) ∨
      stack.popMany n = .error .stackUnderflow ∧ stack.height < n := by
  unfold Stack.popMany
  split_ifs with henough
  · exact .inl ⟨_, _, rfl, (List.take_append_drop n stack.words).symm⟩
  · exact .inr ⟨rfl, Nat.lt_of_not_le henough⟩

theorem pop_cases (stack : Stack) :
    (∃ w stack', stack.pop = .ok (w, stack') ∧ stack.words = w :: stack'.words) ∨
      stack.pop = .error .stackUnderflow ∧ stack.height < 1 := by
  obtain ⟨words, hle⟩ := stack
  cases words with
  | nil => exact .inr ⟨rfl, Nat.one_pos⟩
  | cons w rest => exact .inl ⟨w, _, rfl, rfl⟩

/-- There is room for a word, or the stack is full. -/
theorem push_cases (stack : Stack) (w : Word) :
    (∃ stack', stack.push w = .ok stack' ∧ stack'.words = w :: stack.words) ∨
      stack.push w = .error .stackOverflow ∧ stack.height = Stack.capacity := by
  unfold Stack.push
  split_ifs with hroom
  · exact .inl ⟨_, rfl, rfl⟩
  · exact .inr ⟨rfl, Nat.le_antisymm stack.height_le (Nat.le_of_not_lt hroom)⟩

theorem toList_eq_ofFn {n : Nat} (v : Vector Word n) : v.toList = List.ofFn v.get := by
  refine List.ext_getElem ?_ fun i h h' => ?_
  · rw [Vector.length_toList, List.length_ofFn]
  · rw [Vector.getElem_toList, List.getElem_ofFn]
    rfl

/-- An instruction stops that finds too few words. -/
theorem stumbles_underflow {n : Nat} (h : m₀.Readied env.params.effects ws m)
    (hn : ws.length + n ≤ op.takes) (hfew : m.frame.stack.height < n) :
    Stumbles env.params.effects op m₀ (.error .stackUnderflow) m := by
  refine ⟨fun _ => ?_, nofun, fun _ _ => h.paid⟩
  have hheight := congrArg List.length h.words
  rw [List.length_append] at hheight
  unfold Stack.height at hfew ⊢
  omega

/-- Words are taken that the instruction takes. -/
theorem Carries.popMany {n : Nat} {f : Vector Word n → Exec Control}
    (h : m₀.Readied env.params.effects ws m) (hn : ws.length + n ≤ op.takes)
    (next : ∀ v m₁, m₀.Readied env.params.effects (ws ++ Vector.toList v) m₁ →
      Carries env op m₀ (f v) m₁) : Carries env op m₀ (popMany n >>= f) m := by
  refine Meets.bind (meets_inspect ?_)
  obtain ⟨v, stack, hpop, hwords⟩ | ⟨hpop, hfew⟩ := popMany_cases m.frame.stack n
  · rw [hpop]
    exact next v _ (h.take hwords)
  · rw [hpop]
    exact stumbles_underflow h hn hfew

theorem Carries.popTwo {f : Word × Word → Exec Control} (h : m₀.Readied env.params.effects ws m)
    (hn : ws.length + 2 ≤ op.takes)
    (next : ∀ a b m₁, m₀.Readied env.params.effects (ws ++ [a, b]) m₁ →
      Carries env op m₀ (f (a, b)) m₁) : Carries env op m₀ (popTwo >>= f) m := by
  unfold Exec.popTwo
  rw [bind_assoc]
  refine Carries.popMany h hn fun v m₁ hv => next _ _ m₁ ?_
  rwa [toList_eq_ofFn] at hv

theorem Carries.popThree {f : Word × Word × Word → Exec Control}
    (h : m₀.Readied env.params.effects ws m) (hn : ws.length + 3 ≤ op.takes)
    (next : ∀ a b c m₁, m₀.Readied env.params.effects (ws ++ [a, b, c]) m₁ →
      Carries env op m₀ (f (a, b, c)) m₁) : Carries env op m₀ (popThree >>= f) m := by
  unfold Exec.popThree
  rw [bind_assoc]
  refine Carries.popMany h hn fun v m₁ hv => next _ _ _ m₁ ?_
  rwa [toList_eq_ofFn] at hv

theorem Carries.pop {f : Word → Exec Control} (h : m₀.Readied env.params.effects ws m)
    (hn : ws.length + 1 ≤ op.takes)
    (next : ∀ w m₁, m₀.Readied env.params.effects (ws ++ [w]) m₁ → Carries env op m₀ (f w) m₁) :
    Carries env op m₀ (pop >>= f) m := by
  refine Meets.bind (meets_inspect ?_)
  obtain ⟨w, stack, hpop, hwords⟩ | ⟨hpop, hfew⟩ := pop_cases m.frame.stack
  · rw [hpop]
    exact next w _ (h.take hwords)
  · rw [hpop]
    exact stumbles_underflow h hn hfew

/-- A word is put on a stack that has room for it. -/
theorem meets_push {m : Machine} {w : Word} {stack : Stack} {Q : Unit → Machine → Prop}
    {S : Stop → Machine → Prop} (h : m.frame.stack.push w = .ok stack)
    (next : Q () { m with frame := { m.frame with stack } }) : Meets (push w) m Q S := by
  refine meets_inspect ?_
  rw [h]
  exact next

/-- The top is taken from a stack that has one. -/
theorem meets_pop {w : Word} {rest : List Word} {Q : Word → Machine → Prop}
    {S : Stop → Machine → Prop} (h : m.frame.stack.words = w :: rest)
    (next : ∀ stack, Stack.words stack = rest → Q w { m with frame := { m.frame with stack } }) :
    Meets pop m Q S := by
  refine meets_inspect ?_
  obtain ⟨w', stack, hpop, hwords⟩ | ⟨-, hnone⟩ := pop_cases m.frame.stack
  · obtain ⟨rfl, rfl⟩ := List.cons.inj (hwords.symm.trans h)
    rw [hpop]
    exact next stack rfl
  · rw [Stack.height, h] at hnone
    exact absurd hnone (Nat.not_lt_of_le (Nat.succ_le_succ (Nat.zero_le _)))

/-- Two words are taken from a stack that has them. -/
theorem meets_popTwo {a b : Word} {rest : List Word} {Q : Word × Word → Machine → Prop}
    {S : Stop → Machine → Prop} (h : m.frame.stack.words = a :: b :: rest)
    (next : ∀ stack, Stack.words stack = rest →
      Q (a, b) { m with frame := { m.frame with stack } }) : Meets popTwo m Q S := by
  refine Meets.bind (meets_inspect ?_)
  obtain ⟨v, stack, hpop, hwords⟩ | ⟨-, hfew⟩ := popMany_cases m.frame.stack 2
  · rw [h, toList_eq_ofFn] at hwords
    obtain ⟨rfl, htail⟩ := List.cons.inj hwords
    obtain ⟨rfl, rfl⟩ := List.cons.inj htail
    rw [hpop]
    exact next stack rfl
  · rw [Stack.height, h, List.length_cons, List.length_cons] at hfew
    omega

/-- There is room for a word in the place of another one. -/
theorem room_of_pop {stack left : Stack} {w : Word} {rest : List Word}
    (h : stack.words = w :: rest) (hleft : left.words = rest) (w' : Word) :
    ∃ stack', left.push w' = .ok stack' ∧ stack'.words = w' :: rest := by
  obtain ⟨stack', hpush, hwords⟩ | ⟨-, hfull⟩ := push_cases left w'
  · exact ⟨stack', hpush, hleft ▸ hwords⟩
  · have hheight := stack.height_le
    rw [h, List.length_cons, ← hleft] at hheight
    unfold Stack.height at hfull
    omega

/-- An instruction stops that finds the stack full. -/
theorem stumbles_overflow (h : m₀.Readied env.params.effects ws m)
    (more : op.takes < ws.length + op.gives) (hfull : m.frame.stack.height = Stack.capacity) :
    Stumbles env.params.effects op m₀ (.error .stackOverflow) m := by
  refine ⟨nofun, fun _ => ?_, fun _ _ => h.paid⟩
  have hheight := congrArg List.length h.words
  rw [List.length_append] at hheight
  unfold Stack.height at hfull ⊢
  omega

/-- The last that an instruction does is to put a word on the stack. -/
theorem Carries.push {w : Word} {f : Unit → Exec Control} (h : m₀.Readied env.params.effects ws m)
    (count : ws.length = op.takes) (gives : op.gives = 1)
    (next : ∀ stack, Stack.words stack = w :: m.frame.stack.words →
      Carries env op m₀ (f ()) { m with frame := { m.frame with stack } }) :
    Carries env op m₀ (push w >>= f) m := by
  refine Meets.bind (meets_inspect ?_)
  obtain ⟨stack, hpush, hwords⟩ | ⟨hpush, hfull⟩ := push_cases m.frame.stack w
  · rw [hpush]
    exact next stack hwords
  · rw [hpush]
    exact stumbles_overflow h (by omega) hfull

/-! ### Memory -/

/-- **A region is there once it is paid for.** -/
theorem Carries.region {offset size : Word} {f : Nat × Nat → Exec Control}
    (h : m₀.Readied env.params.effects ws m)
    (next : ∀ start m₁, start = regionStart offset size → m₀.Readied env.params.effects ws m₁ →
      m.frame.memory.size ≤ m₁.frame.memory.size →
      m₁.frame.memory.Covers (offset.toNat, size.toNat) →
      Carries env op m₀ (f (start, size.toNat)) m₁) :
    Carries env op m₀ (region env.params.effects offset size >>= f) m := by
  refine Meets.bind ?_
  unfold Exec.region
  by_cases hzero : size = 0
  · subst hzero
    exact next 0 m rfl h (Nat.le_refl _) (.inl rfl)
  · have hstart : offset.toNat = regionStart offset size := (if_neg hzero).symm
    rw [if_neg hzero]
    by_cases hfar : regionBound < offset.toNat ∨ regionBound < size.toNat
    · rw [if_pos hfar]
      exact meets_inspect (Meets.bind (Meets.throw (h.stumbles nofun nofun)))
    · rw [if_neg hfar]
      refine meets_inspect ?_
      obtain ⟨cost, hcost⟩ := Memory.growthCost_ok env.params.effects m.frame.memory.size
        (offset.toNat + size.toNat)
      rw [hcost]
      refine Meets.bind (show Meets (pure cost) m _ _ from Meets.pure (Meets.bind ?_))
      unfold Meets Exec.charge
      cases hgas : m.gas.consume cost "memory" with
      | error stop => exact stumbles_consume h hgas
      | ok gas =>
        have hnear : offset.toNat + size.toNat ≤ 2 * regionBound := by omega
        obtain ⟨memory, hgrow, hin, hmore⟩ := m.frame.memory.grow_ok hnear
        refine Meets.bind ?_
        unfold Meets onMemory
        simp only [hgrow]
        have hgrown : m.Readied env.params.effects []
            { m with
              gas
              world := { m.world with ledger := m.world.ledger.record cost "memory" }
              frame := { m.frame with memory } } :=
          ⟨rfl, rfl, rfl, Memory.grows_of_grow hgrow, fun hp => hp.grow hcost hgas hgrow⟩
        have hready := h.trans hgrown
        rw [List.append_nil] at hready
        exact next _ _ hstart hready hmore (.inr hin)

/-- What is read from a region that is paid for is a stretch of the memory. -/
theorem Carries.readMemory {start : Nat} {offset size : Word} {f : Bytes → Exec Control}
    (hstart : start = regionStart offset size)
    (next : Carries env op m₀ (f (stretch m.frame.memory.byte offset.toNat size.toNat)) m) :
    Carries env op m₀ (readMemory start size.toNat >>= f) m := by
  refine Meets.bind (meets_inspect ?_)
  cases hread : m.frame.memory.read start size.toNat with
  | error fault => exact stumbles_abort _
  | ok bs =>
    obtain ⟨rfl, -⟩ := Memory.eq_stretch_of_read hread
    unfold regionStart at hstart
    split_ifs at hstart with hzero
    · rw [hzero] at next ⊢
      exact next
    · rw [hstart]
      exact next

/-- The last that an instruction does is to write to a region that is paid for. -/
theorem Carries.writeMemory {start : Nat} {offset size : Word} {bs : Bytes}
    (hstart : start = regionStart offset size) (h : m₀.Readied env.params.effects ws m)
    (count : ws.length = op.takes)
    (covered : ∀ region ∈ op.regions ws, m.frame.memory.Covers region)
    (length : bs.length = size.toNat) (bytes : op.stored? m.frame ws = some (offset.toNat, bs)) :
    Carries env op m₀ (writeMemory start bs >>= fun _ => pure .next) m := by
  have hwrite : m.frame.memory.write start bs = m.frame.memory.write offset.toNat bs := by
    unfold regionStart at hstart
    split_ifs at hstart with hzero
    · rw [hzero] at length
      rw [List.length_eq_zero_iff.1 length]
      rfl
    · rw [hstart]
  refine Meets.bind ?_
  unfold Meets Exec.writeMemory onMemory
  simp only [hwrite]
  cases hw : m.frame.memory.write offset.toNat bs with
  | error fault => exact stumbles_abort _
  | ok memory => exact ⟨ws, m, count, h, covered, .stores bytes hw⟩

/-! ### Instructions with a part of their own -/

theorem Carries.jumpTo {dest : Word} {rest : List Word}
    (h : m₀.Readied env.params.effects (dest :: rest) m) (count : (dest :: rest).length = op.takes)
    (covered : ∀ region ∈ op.regions (dest :: rest), m.frame.memory.Covers region)
    (jump : op = .jump ∧ rest = [] ∨
      op = .jumpi ∧ ∃ condition, condition ≠ 0 ∧ rest = [condition]) :
    Carries env op m₀ (jumpTo dest) m := by
  refine Carries.inspect (Meets.bind ?_)
  cases htarget : m.frame.jumpTarget dest with
  | error e =>
    unfold Frame.jumpTarget at htarget
    dsimp only at htarget
    split_ifs at htarget
    cases htarget
    exact h.stumbles nofun nofun
  | ok target => exact ⟨_, m, count, h, covered, .jumps jump htarget⟩

theorem Carries.depthBelow {f : Nat → Exec Control}
    (next : Carries env op m₀ (f (m.frame.depth + 1)) m) :
    Carries env op m₀ (depthBelow >>= f) m := by
  refine Meets.bind (meets_inspect ?_)
  split_ifs with hroom
  · exact next
  · exact stumbles_abort _

theorem Carries.decline (h : m₀.Readied env.params.effects ws m) (count : ws.length = op.takes)
    (covered : ∀ region ∈ op.regions ws, m.frame.memory.Covers region)
    (asks : op = .create ∨ op = .call) : Carries env op m₀ decline m := by
  have gives : op.gives = 1 := by
    obtain rfl | rfl := asks <;> rfl
  refine Meets.bind (show Meets (modifyFrame _) m _ _ from Meets.bind (meets_inspect ?_))
  obtain ⟨stack, hpush, hwords⟩ | ⟨hpush, hfull⟩ := push_cases m.frame.stack 0
  · simp only [hpush]
    exact ⟨ws, m, count, h, covered, .declines asks hwords⟩
  · simp only [hpush]
    obtain ⟨underflow, overflow, paid⟩ := stumbles_overflow h (by omega : op.takes < _) hfull
    exact ⟨underflow, overflow, paid⟩

theorem carries_finish (how : Bytes → Exit) (h : m₀.Readied env.params.effects [] m)
    (takes : op.takes = 2) (regions : ∀ offset size : Word,
      op.regions [offset, size] = [(offset.toNat, size.toNat)])
    (acts : ∀ (m : Machine) (offset size : Word), Acts env m op [offset, size]
      (.exit (how (stretch m.frame.memory.byte offset.toNat size.toNat))) m) :
    Carries env op m₀ (finish env.params.effects how) m := by
  refine .popTwo h (by rw [takes]; rfl) fun offset size m₁ h₁ => ?_
  refine .region h₁ fun start m₂ hstart h₂ _ hcovers => ?_
  refine .readMemory hstart (.done h₂ takes.symm ?_ (acts m₂ offset size))
  rw [show [] ++ [offset, size] = [offset, size] from rfl, regions]
  exact List.forall_mem_singleton.2 hcovers

theorem carries_create (h : m₀.Readied env.params.effects [] m) :
    Carries env .create m₀ (create env.params.effects) m := by
  refine .popThree h (Nat.le_refl _) fun value offset size m₁ h₁ => ?_
  refine .region h₁ fun start m₂ hstart h₂ _ hcovers => .readMemory hstart ?_
  have hcovered : ∀ m' : Machine, m'.frame = m₂.frame →
      ∀ region ∈ Opcode.create.regions [value, offset, size], m'.frame.memory.Covers region := by
    intro m' hframe
    rw [hframe]
    exact List.forall_mem_singleton.2 hcovers
  cases hvalue : wordWei? value with
  | none => exact .decline h₂ rfl (hcovered m₂ rfl) (.inl rfl)
  | some amount =>
    refine .inspect (.setAside (Opcode.label_ne_memory _) h₂ fun m₃ h₃ hframe => ?_)
    refine .depthBelow (.inspect ?_)
    rw [← hframe]
    exact .done h₃ rfl (hcovered m₃ hframe) (.creates rfl rfl hvalue rfl)

theorem carries_call (h : m₀.Readied env.params.effects [] m) :
    Carries env .call m₀ (call env.params.effects) m := by
  refine .popMany h (Nat.le_refl _) fun v m₁ h₁ => ?_
  rw [toList_eq_ofFn] at h₁
  refine .region h₁ fun inStart m₂ hin h₂ _ hinput => ?_
  refine .region h₂ fun outStart m₃ hout h₃ hmore houtput => .readMemory hin ?_
  have hcovered : ∀ m' : Machine, m'.frame = m₃.frame →
      ∀ region ∈ Opcode.call.regions (List.ofFn v.get), m'.frame.memory.Covers region := by
    intro m' hframe
    rw [hframe]
    exact List.forall_mem_cons.2 ⟨hinput.of_le hmore, List.forall_mem_singleton.2 houtput⟩
  cases hvalue : wordWei? (v.get 2) with
  | none => exact .decline h₃ rfl (hcovered m₃ rfl) (.inr rfl)
  | some amount =>
    refine .inspect (.setAside (Opcode.label_ne_memory _) h₃ fun m₄ h₄ hframe => ?_)
    refine .depthBelow (.inspect ?_)
    rw [← hframe, hout]
    exact .done h₄ rfl (hcovered m₄ hframe) (.calls rfl rfl rfl hvalue rfl)

theorem carries_log (count : Nat) (h : m₀.Readied env.params.effects [] m) :
    Carries env (.log count) m₀ (log env.params.effects count >>= fun _ => pure .next) m := by
  simp only [log, bind_assoc]
  refine .popTwo h (Nat.le_add_left _ _) fun offset size m₁ h₁ => ?_
  refine .popMany h₁ (Nat.add_comm _ _).le fun topics m₂ h₂ => ?_
  refine .region h₂ fun start m₃ hstart h₃ _ hcovers => ?_
  refine .charge (Opcode.label_ne_memory _) h₃ fun m₄ h₄ hframe => .readMemory hstart (.inspect ?_)
  obtain ⟨⟨topics⟩, rfl⟩ := topics
  refine ⟨_, m₄, rfl, h₄, ?_, .leaves offset size topics⟩
  rw [hframe]
  exact List.forall_mem_singleton.2 hcovers

theorem carries_sstore (h : m₀.Readied env.params.effects [] m) :
    Carries env .sstore m₀ (sstore env >>= fun _ => pure .next) m := by
  simp only [sstore, bind_assoc]
  refine .popTwo h (Nat.le_refl _) fun key value m₁ h₁ => .inspect (.inspect ?_)
  refine .charge (Opcode.label_ne_memory _) h₁ fun m₂ h₂ hframe => ?_
  rw [← hframe]
  exact ⟨_, m₂, rfl, h₂, nofun, .writes key value⟩

theorem carries_copy (source : Frame → Array UInt8) (h : m₀.Readied env.params.effects [] m)
    (takes : op.takes = 3)
    (regions : ∀ target start size : Word,
      op.regions [target, start, size] = [(target.toNat, size.toNat)])
    (stored : ∀ f (target start size : Word), op.stored? f [target, start, size] = some
      (target.toNat, zeroExtended (source f) (clampOffset start (source f).size) size.toNat)) :
    Carries env op m₀ (copyToMemory env.params.effects op source >>= fun _ => pure .next) m := by
  simp only [copyToMemory_eq, chargeWords, bind_assoc]
  refine .popThree h (by rw [takes]; rfl) fun target start size m₁ h₁ => ?_
  refine .region h₁ fun place m₂ hplace h₂ _ hcovers => ?_
  refine .charge (Opcode.label_ne_memory _) h₂ fun m₃ h₃ hframe => .inspect ?_
  refine .writeMemory hplace h₃ takes.symm ?_ (length_zeroExtended _ _ _) (stored _ _ _ _)
  rw [show [] ++ [target, start, size] = [target, start, size] from rfl, regions, hframe]
  exact List.forall_mem_singleton.2 hcovers

/-! ### Instructions that move words on the stack -/

/-- There are two words to exchange, or too few. -/
theorem swap_cases (stack : Stack) {position : Nat} (hpos : position ≠ 0) :
    (∃ top other stack', stack.swap position = .ok stack' ∧ stack.words[0]? = some top ∧
      stack.words[position]? = some other ∧
      stack'.words = (stack.words.set 0 other).set position top) ∨
    stack.swap position = .error .stackUnderflow ∧ stack.height < position + 1 := by
  unfold Stack.swap
  rw [if_neg hpos]
  split
  · rename_i top other htop hother
    exact .inl ⟨top, other, _, rfl, htop, hother, rfl⟩
  · rename_i hmissing
    refine .inr ⟨rfl, Nat.lt_of_not_le fun henough => ?_⟩
    unfold Stack.height at henough
    exact hmissing _ _ (List.getElem?_eq_getElem (by omega)) (List.getElem?_eq_getElem henough)

theorem carries_swap {position : Nat} (hpos : position ≠ 0)
    (h : m₀.Readied env.params.effects [] m) : Carries env (.swap position) m₀ (do
      let stack ← orFail ((← inspect (·.frame.stack)).swap position)
      modifyFrame fun f => { f with stack }
      return .next) m := by
  refine .inspect (Meets.bind ?_)
  obtain ⟨top, other, stack, hswap, htop, hother, hstack⟩ | ⟨hswap, hfew⟩ :=
    swap_cases m.frame.stack hpos
  · rw [hswap]
    obtain ⟨v, rest, -, hwords⟩ | ⟨-, hfew⟩ := popMany_cases m.frame.stack (position + 1)
    · have hlength : v.toList.length = position + 1 := Vector.length_toList
      rw [hwords, List.getElem?_append_left (by omega)] at htop hother
      rw [hwords, List.set_append_left _ _ (by omega),
        List.set_append_left _ _ (by rw [List.length_set]; omega)] at hstack
      exact ⟨_, _, hlength, h.take hwords, nofun, .exchanges htop hother hstack⟩
    · rw [List.getElem?_eq_none (Nat.le_of_lt_succ hfew)] at hother
      cases hother
  · rw [hswap]
    exact stumbles_underflow h (Nat.zero_add _).le hfew

/-- There is a word to copy, or there are too few. -/
theorem dup_cases (stack : Stack) {position : Nat} (hpos : position ≠ 0) :
    (∃ w, stack.dup position = stack.push w ∧ stack.words[position - 1]? = some w) ∨
      stack.dup position = .error .stackUnderflow ∧ stack.height < position := by
  unfold Stack.dup
  rw [if_neg hpos]
  split
  · rename_i w hw
    exact .inl ⟨w, rfl, hw⟩
  · rename_i hmissing
    have hfew := List.getElem?_eq_none_iff.1 hmissing
    exact .inr ⟨rfl, by unfold Stack.height; omega⟩

theorem carries_dup {position : Nat} (hpos : position ≠ 0)
    (h : m₀.Readied env.params.effects [] m) : Carries env (.dup position) m₀ (do
      let stack ← orFail ((← inspect (·.frame.stack)).dup position)
      modifyFrame fun f => { f with stack }
      return .next) m := by
  refine .inspect (Meets.bind ?_)
  obtain ⟨w, hdup, hw⟩ | ⟨hdup, hfew⟩ := dup_cases m.frame.stack hpos
  · rw [hdup]
    obtain ⟨stack, hpush, hstack⟩ | ⟨hpush, hfull⟩ := push_cases m.frame.stack w
    · rw [hpush]
      obtain ⟨v, rest, -, hwords⟩ | ⟨-, hfew⟩ := popMany_cases m.frame.stack position
      · have hlength : v.toList.length = position := Vector.length_toList
        rw [hwords, List.getElem?_append_left (by omega)] at hw
        rw [hwords] at hstack
        exact ⟨_, _, hlength, h.take hwords, nofun, .copies hw hstack⟩
      · rw [List.getElem?_eq_none (by unfold Stack.height at hfew; omega)] at hw
        cases hw
    · rw [hpush]
      exact stumbles_overflow h (by simp [Opcode.takes, Opcode.gives]) hfull
  · rw [hdup]
    exact stumbles_underflow h (Nat.zero_add _).le hfew

/-! ### All instructions -/

theorem Carries.puts {w : Word} (h : m₀.Readied env.params.effects ws m)
    (count : ws.length = op.takes) (gives : op.gives = 1) (carried : op.carried = 0)
    (covered : ∀ region ∈ op.regions ws, m.frame.memory.Covers region)
    (word : op.word? env m ws = some w) :
    Carries env op m₀ (Exec.push w >>= fun _ => pure .next) m := by
  refine .push h count gives fun stack hstack => ⟨ws, m, count, h, covered, ?_⟩
  have hputs := Acts.puts word hstack
  rwa [carried] at hputs

/-- What an instruction does once its constant cost is paid. -/
theorem perform_carries (hop : op.Proper) (h : m₀.Readied env.params.effects [] m) :
    Carries env op m₀ (perform env op) m := by
  cases op with
  | stop => exact .done h rfl nofun .stops
  | binary f =>
    exact .popTwo h (Nat.le_refl _) fun a b m₁ h₁ => .puts h₁ rfl rfl rfl nofun rfl
  | unary f => exact .pop h (Nat.le_refl _) fun a m₁ h₁ => .puts h₁ rfl rfl rfl nofun rfl
  | keccak256 =>
    refine .popTwo h (Nat.le_refl _) fun offset size m₁ h₁ => ?_
    refine .region h₁ fun start m₂ hstart h₂ _ hcovers => ?_
    refine .charge (Opcode.label_ne_memory _) h₂ fun m₃ h₃ hframe => .readMemory hstart ?_
    refine .puts h₃ rfl rfl rfl ?_ rfl
    rw [hframe]
    exact List.forall_mem_singleton.2 hcovers
  | reading r => exact .inspect (.puts h rfl rfl rfl nofun rfl)
  | balance =>
    exact .pop h (Nat.le_refl _) fun a m₁ h₁ => .inspect (.puts h₁ rfl rfl rfl nofun rfl)
  | callDataLoad =>
    exact .pop h (Nat.le_refl _) fun a m₁ h₁ => .inspect (.puts h₁ rfl rfl rfl nofun rfl)
  | callDataCopy =>
    exact carries_copy _ h rfl (fun _ _ _ => by rfl) fun _ _ _ _ => by rfl
  | codeCopy => exact carries_copy _ h rfl (fun _ _ _ => by rfl) fun _ _ _ _ => by rfl
  | blockHash => exact .pop h (Nat.le_refl _) fun a m₁ h₁ => .puts h₁ rfl rfl rfl nofun rfl
  | pop => exact .pop h (Nat.le_refl _) fun a m₁ h₁ => .done h₁ rfl nofun (.drops a)
  | mload =>
    refine .pop h (Nat.le_refl _) fun offset m₁ h₁ => ?_
    refine .region h₁ fun start m₂ hstart h₂ _ hcovers => .inspect (Meets.bind ?_)
    have hoffset : start = offset.toNat := hstart.trans (if_neg (by decide))
    unfold Memory.readWord
    cases hread : m₂.frame.memory.read start 32 with
    | error fault => exact stumbles_abort _
    | ok bs =>
      obtain ⟨rfl, -⟩ := Memory.eq_stretch_of_read hread
      rw [hoffset]
      exact Carries.puts h₂ rfl rfl rfl (List.forall_mem_singleton.2 hcovers) rfl
  | mstore =>
    refine .popTwo h (Nat.le_refl _) fun offset value m₁ h₁ => ?_
    refine .region h₁ fun start m₂ hstart h₂ _ hcovers => ?_
    exact .writeMemory hstart h₂ rfl (List.forall_mem_singleton.2 hcovers)
      (Bytes.length_bigEndian _ _) rfl
  | mstore8 =>
    refine .popTwo h (Nat.le_refl _) fun offset value m₁ h₁ => ?_
    refine .region h₁ fun start m₂ hstart h₂ _ hcovers => ?_
    exact .writeMemory hstart h₂ rfl (List.forall_mem_singleton.2 hcovers) rfl rfl
  | sload =>
    refine .charge (Opcode.label_ne_memory _) h fun m₁ h₁ _ => ?_
    exact .pop h₁ (Nat.le_refl _) fun key m₂ h₂ => .inspect (.puts h₂ rfl rfl rfl nofun rfl)
  | sstore => exact carries_sstore h
  | jump =>
    exact .pop h (Nat.le_refl _) fun dest m₁ h₁ => .jumpTo h₁ rfl nofun (.inl ⟨rfl, rfl⟩)
  | jumpi =>
    refine .popTwo h (Nat.le_refl _) fun dest condition m₁ h₁ => ?_
    show Carries _ _ _ (if condition = 0 then pure .next else jumpTo dest) m₁
    split_ifs with hzero
    · subst hzero
      exact .done h₁ rfl nofun (.passes dest)
    · exact .jumpTo h₁ rfl nofun (.inr ⟨rfl, condition, hzero, rfl⟩)
  | jumpdest => exact .done h rfl nofun .marks
  | push size =>
    refine .inspect (.push h rfl rfl fun stack hstack => ?_)
    exact ⟨[], m, rfl, h, nofun, .puts rfl hstack⟩
  | dup position => exact carries_dup (fun hzero => hop.1 (by rw [hzero])) h
  | swap position => exact carries_swap (fun hzero => hop.2 (by rw [hzero])) h
  | log count => exact carries_log count h
  | create => exact carries_create h
  | call => exact carries_call h
  | ret => exact carries_finish _ h rfl (fun _ _ => by rfl) fun _ => .returns
  | revert => exact carries_finish _ h rfl (fun _ _ => by rfl) fun _ => .reverts
  | invalid byte => exact Meets.throw (h.stumbles nofun nofun)

/-- **What an instruction does**: it takes its operands and is made ready, and then it acts; or it
fails, and is short of words, or of room, only if they are missing. -/
theorem step_performs_acts (env : Setting) (byte : UInt8) (m : Machine) :
    Meets (step env byte) m
      (fun ctl m' => ∃ ws mid, Performed env (.ofByte byte) m ws mid ctl m')
      (Stumbles env.params.effects (.ofByte byte) m) := by
  have hready := Machine.Readied.refl env.params.effects m
  unfold step
  dsimp only
  split
  · exact Meets.throw (hready.stumbles nofun nofun)
  · exact Carries.charge (Opcode.label_ne_memory _) hready fun m₁ h₁ _ =>
      perform_carries (Opcode.proper_ofByte byte) h₁

/-- An instruction that does not fail, with the operands that it finds. -/
theorem performed_of_step {byte : UInt8} {rest : List Word} {ctl : Control} {m' : Machine}
    (h : step env byte m = .ok ctl m') (hop : .ofByte byte = op) (count : ws.length = op.takes)
    (hm : m.frame.stack.words = ws ++ rest) :
    ∃ mid, Performed env op m ws mid ctl m' ∧ mid.frame.stack.words = rest := by
  obtain ⟨found, mid, hperformed⟩ := (step_performs_acts env byte m).of_ok h
  rw [hop] at hperformed
  obtain ⟨hfound, hrest⟩ := hperformed.operands
  rw [hm, ← count, List.take_left] at hfound
  rw [hm, ← count, List.drop_left] at hrest
  exact ⟨mid, hfound ▸ hperformed, hrest⟩

end Exec

end MeteredLedger
