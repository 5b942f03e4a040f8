import MeteredLedger.Proofs.Frame.Turns

/-!
# Stack discipline

A turn that is not refused has found the operands of its instruction, and leaves their results in
their place, on top of the words below, which it does not touch (`Opcode.results`). What the results
are of a call and of a creation, the frame below has a part in. A turn is refused for words that are
missing only if they are missing, and for want of room only if there would be more than
`Stack.capacity` words; and so are runs and frames, as they are refused for nothing else than one of
their turns is (`stack_discipline`).
-/

namespace MeteredLedger

/-! ### Results -/

/-- The words that an instruction leaves in place of its operands, on a machine that has been made
ready for it, with what the frame below has handed back, if there was one. -/
def Opcode.results (env : Setting) (m : Machine) (below : Option FrameResult) :
    Opcode → List Word → List Word
  | dup position, ws => ws[position - 1]?.toList ++ ws
  | swap position, ws => (ws.set 0 (ws.getD position 0)).set position (ws.getD 0 0)
  | call, _ => [boolWord (below.any (·.error.isNone))]
  | create, _ => [(below.bind (·.address)).elim 0 addressWord]
  | op, ws => (op.word? env m ws).toList

/-- The machine with the gas and the memory that another one has. -/
def Machine.spent (m m' : Machine) : Machine :=
  { m with gas := m'.gas, frame := { m.frame with memory := m'.frame.memory } }

/-- An instruction reads of a machine that has been made ready for it what was there, the gas that
is left and the memory. -/
theorem Machine.Readied.word?_eq {costs : EffectCosts} {words ws : List Word} {m mid m' : Machine}
    (h : m.Readied costs words mid) (hgas : m'.gas = mid.gas)
    (hmemory : m'.frame.memory = mid.frame.memory) (env : Setting) (op : Opcode) :
    op.word? env (m.spent m') ws = op.word? env mid ws := by
  obtain ⟨world, gas, frame⟩ := mid
  obtain ⟨view, ledger⟩ := world
  obtain ⟨-, hframe, rfl, -, -⟩ := h
  dsimp only at hframe hgas hmemory
  rw [hframe, Machine.spent, hgas, hmemory]
  cases op with
  | reading r => cases r <;> rfl
  | _ => rfl

/-- An instruction that computes a word leaves it and nothing else. -/
theorem Opcode.results_of_word {env : Setting} {m : Machine} {op : Opcode} {ws : List Word}
    {w : Word} (h : op.word? env m ws = some w) (below : Option FrameResult) :
    op.results env m below ws = [w] := by
  have hlist : (op.word? env m ws).toList = [w] := by rw [h]; rfl
  cases op with
  | dup | swap | call | create => cases h
  | _ => exact hlist

/-- An instruction that writes to memory leaves nothing. -/
theorem Opcode.results_of_stored {f : Frame} {op : Opcode} {ws : List Word} {stored : Nat × Bytes}
    (h : op.stored? f ws = some stored) (env : Setting) (m : Machine) (below : Option FrameResult) :
    op.results env m below ws = [] := by
  cases op <;> first | rfl | cases h

/-- **The results stand in place of the operands.** -/
theorem Performed.results {env : Setting} {body : Exec Exit} {op : Opcode} {m mid m₁ m' : Machine}
    {ws : List Word} {ctl : Control} {below : Option FrameResult} {exit : Option Exit}
    (h : Performed env op m ws mid ctl m₁) (h' : Concludes env body m₁ ctl below exit m') :
    m'.frame.stack.words = op.results env (m.spent m') below ws ++ mid.frame.stack.words := by
  have hacts := h.acts
  cases hacts with
  | stops | returns | reverts | drops | marks | passes | writes | leaves =>
    cases h'
    rfl
  | puts word pushed =>
    cases h'
    have hresults := Opcode.results_of_word ((h.ready.word?_eq rfl rfl env op).trans word) none
    exact pushed.trans (congrArg (· ++ mid.frame.stack.words) hresults.symm)
  | @copies position ws w stack word pushed =>
    cases h'
    rw [Opcode.results, word]
    exact pushed
  | @exchanges position ws top other stack first last pushed =>
    cases h'
    rw [Opcode.results, List.getD_eq_getElem?_getD, List.getD_eq_getElem?_getD, first, last]
    exact pushed
  | jumps jump place =>
    cases h'
    obtain ⟨rfl, rfl⟩ | ⟨rfl, condition, -, rfl⟩ := jump <;> rfl
  | stores bytes written =>
    cases h'
    rw [Opcode.results_of_stored bytes]
    rfl
  | calls =>
    cases h' with
    | call answer written pushed => exact pushed
  | creates =>
    cases h' with
    | create answer pushed => exact pushed
  | declines asks pushed =>
    cases h'
    obtain rfl | rfl := asks <;> exact pushed

/-! ### Copies and exchanges -/

/-- Two words are exchanged, and no other is moved. -/
theorem getElem?_exchange {ws : List Word} {n : Nat} {top other : Word} (first : ws[0]? = some top)
    (last : ws[n]? = some other) (i : Nat) :
    ((ws.set 0 other).set n top)[i]? = ws[Equiv.swap 0 n i]? := by
  obtain ⟨hn, -⟩ := List.getElem?_eq_some_iff.1 last
  rw [List.getElem?_set, List.getElem?_set, List.length_set]
  by_cases hi : n = i
  · rw [if_pos hi, if_pos hn, ← hi, Equiv.swap_apply_right, first]
  · rw [if_neg hi]
    by_cases hzero : 0 = i
    · rw [if_pos hzero, if_pos (Nat.zero_lt_of_lt hn), ← hzero, Equiv.swap_apply_left, last]
    · rw [if_neg hzero, Equiv.swap_apply_of_ne_of_ne (Ne.symm hzero) (Ne.symm hi)]

/-- A turn that copies a word adds it to the others. -/
theorem Performed.copies {env : Setting} {body : Exec Exit} {position : Nat} {m mid m₁ m' : Machine}
    {ws : List Word} {ctl : Control} {below : Option FrameResult} {exit : Option Exit}
    (h : Performed env (.dup position) m ws mid ctl m₁)
    (h' : Concludes env body m₁ ctl below exit m') : ∃ w,
      m.frame.stack.words[position - 1]? = some w ∧
        m'.frame.stack.words = w :: m.frame.stack.words := by
  have hacts := h.acts
  cases hacts with
  | @copies _ _ w stack word pushed =>
    cases h'
    obtain ⟨hlt, -⟩ := List.getElem?_eq_some_iff.1 word
    rw [h.ready.words, List.getElem?_append_left hlt]
    exact ⟨w, word, pushed⟩
  | _ => simp_all [Opcode.word?, Opcode.stored?]

/-- A turn that exchanges two words leaves the others where they are. -/
theorem Performed.exchanges {env : Setting} {body : Exec Exit} {position : Nat}
    {m mid m₁ m' : Machine} {ws : List Word} {ctl : Control} {below : Option FrameResult}
    {exit : Option Exit} (h : Performed env (.swap position) m ws mid ctl m₁)
    (h' : Concludes env body m₁ ctl below exit m') (i : Nat) :
    m'.frame.stack.words[i]? = m.frame.stack.words[Equiv.swap 0 position i]? := by
  have hacts := h.acts
  cases hacts with
  | @exchanges _ _ top other stack first last pushed =>
    cases h'
    have hlength : ws.length = position + 1 := h.count
    have hfirst : m.frame.stack.words[0]? = some top := by
      rw [h.ready.words, List.getElem?_append_left (by omega), first]
    have hlast : m.frame.stack.words[position]? = some other := by
      rw [h.ready.words, List.getElem?_append_left (by omega), last]
    rw [← getElem?_exchange hfirst hlast, h.ready.words, List.set_append_left _ _ (by omega),
      List.set_append_left _ _ (by rw [List.length_set]; omega)]
    exact congrArg (·[i]?) pushed
  | _ => simp_all [Opcode.word?, Opcode.stored?]

/-! ### Failing -/

/-- The next instruction has too few words. -/
def Machine.Short (m : Machine) : Prop :=
  ∃ byte, m.frame.code[m.frame.pc]? = some byte ∧
    m.frame.stack.height < (Opcode.ofByte byte).takes

/-- The next instruction would leave more words than a stack may hold. -/
def Machine.Crowded (m : Machine) : Prop :=
  ∃ byte, m.frame.code[m.frame.pc]? = some byte ∧
    Stack.capacity + (Opcode.ofByte byte).takes < m.frame.stack.height + (Opcode.ofByte byte).gives

/-- **The machine is a reason for an error** that is about the words of its stack. -/
structure Machine.Explains (m : Machine) (e : LedgerError) : Prop where
  short : e = .stackUnderflow → m.Short
  crowded : e = .stackOverflow → m.Crowded

namespace Exec

variable {env : Setting}

/-- A run that fails has come to a machine that is the reason, and no farther. -/
theorem run_explained {steps : Nat} {m m' : Machine} {e : LedgerError}
    (h : run env steps m = .error (.error e) m') :
    ∃ mid, (traced env steps m).1.getLast? = some mid ∧ mid.Explains e := by
  obtain hcut | ⟨mid, hmid, byte, few, next, hturn⟩ := (run_traced env steps m).of_error h
  · cases hcut
  · have hstumbles := (turn_meets env _ byte mid).of_error hturn
    refine ⟨mid, hmid, ?_, ?_⟩
    · rintro rfl
      exact ⟨byte, next, hstumbles.underflow rfl⟩
    · rintro rfl
      exact ⟨byte, next, hstumbles.overflow rfl⟩

end Exec

open Exec in
/-- **Stack discipline.** A turn that is not refused, of any byte, in any frame and setting, has
found its operands and leaves the results on the words below them, at most `Stack.capacity` in
all: `DUPn` only adds a copy of the word at position `n`, and `SWAPn` exchanges the first word with
the one `n` below it and moves no other. A turn is refused for an underflow only if there are fewer
words than operands, and for an overflow only if there would be more than `Stack.capacity` words;
runs fail for them only where such a turn is next, and frames only if the runs of their code do. -/
theorem stack_discipline :
    (∀ env body byte m exit m', turn env body byte m = .ok exit m' →
      (Opcode.ofByte byte).takes ≤ m.frame.stack.height ∧
      m'.frame.stack.words =
        (Opcode.ofByte byte).results env (m.spent m') (below env body byte m)
            (m.frame.stack.words.take (Opcode.ofByte byte).takes)
          ++ m.frame.stack.words.drop (Opcode.ofByte byte).takes ∧
      m'.frame.stack.height ≤ Stack.capacity ∧
      (∀ n, Opcode.ofByte byte = .dup n → ∃ w, m.frame.stack.words[n - 1]? = some w ∧
        m'.frame.stack.words = w :: m.frame.stack.words) ∧
      ∀ n, Opcode.ofByte byte = .swap n → ∀ i,
        m'.frame.stack.words[i]? = m.frame.stack.words[Equiv.swap 0 n i]?) ∧
    (∀ env body byte m m',
      (turn env body byte m = .error (.error .stackUnderflow) m' →
        m.frame.stack.height < (Opcode.ofByte byte).takes) ∧
      (turn env body byte m = .error (.error .stackOverflow) m' →
        Stack.capacity + (Opcode.ofByte byte).takes
          < m.frame.stack.height + (Opcode.ofByte byte).gives)) ∧
    (∀ env steps m m' e, run env steps m = .error (.error e) m' →
      ∃ mid, (traced env steps m).1.getLast? = some mid ∧ mid.Explains e) ∧
    ∀ env steps w r w' e, r.error = some e → e.isOfStack = true →
      (∀ c : Call, callIn steps env c w = .ok (r, w') →
        ∃ m, c.Starts env w m ∧
          ∃ mid, (traced env steps m).1.getLast? = some mid ∧ mid.Explains e) ∧
      ∀ c : Creation, createIn steps env c w = .ok (r, w') →
        ∃ m, c.Starts env w m ∧
          ∃ mid, (traced env steps m).1.getLast? = some mid ∧ mid.Explains e := by
  refine ⟨fun env body byte m exit m' h => ?_, fun env body byte m m' => ⟨fun h => ?_, fun h => ?_⟩,
    fun env steps m m' e h => run_explained h, fun env steps w r w' e he hstack =>
      ⟨fun c h => ?_, fun c h => ?_⟩⟩
  · obtain ⟨ctl, m₁, hstep, hconcludes⟩ := (turn_meets env body byte m).of_ok h
    obtain ⟨ws, mid, hperformed⟩ := (step_performs_acts env byte m).of_ok hstep
    obtain ⟨hws, hrest⟩ := hperformed.operands
    refine ⟨?_, ?_, m'.frame.stack.height_le, fun n hn => ?_, fun n hn => ?_⟩
    · rw [← hperformed.count, Stack.height, hperformed.ready.words, List.length_append]
      exact Nat.le_add_right _ _
    · rw [← hws, ← hrest]
      exact hperformed.results hconcludes
    · rw [hn] at hperformed
      exact hperformed.copies hconcludes
    · rw [hn] at hperformed
      exact hperformed.exchanges hconcludes
  · exact ((turn_meets env body byte m).of_error h).underflow rfl
  · exact ((turn_meets env body byte m).of_error h).overflow rfl
  · obtain ⟨m, hstarts, m', hm'⟩ := callWith_stack_error h he hstack
    exact ⟨m, hstarts, run_explained hm'⟩
  · obtain ⟨m, hstarts, m', hm'⟩ := createWith_stack_error h he hstack
    exact ⟨m, hstarts, run_explained hm'⟩

/-! ### Stacks at both limits -/

namespace StackLimits

/-- Adds a word to nothing. -/
def code : Bytes := [0x60, 1, 0x01]

/-- The account `2` has the code. -/
def env : Setting := ⟨.standard, .ofHeader .genesis ⟨1⟩ 1000, Store.empty.putCode ⟨2⟩ code⟩

/-- Nothing has been changed or counted. -/
def world : World := ⟨.fresh, .untracked⟩

/-- A call of the account. -/
def request : Call := ⟨⟨1⟩, ⟨2⟩, [], 1000, 0, 0⟩

/-- A machine with some words at hand. -/
def holding (stack : Stack) : Machine :=
  ⟨world, .bounded 1000, { Frame.fresh ⟨2⟩ ⟨1⟩ 0 [] 0 with stack }⟩

/-- Four words. -/
def four : Stack := ⟨[1, 2, 3, 4], by decide⟩

/-- As many words as there may be. -/
def full : Stack := ⟨List.replicate Stack.capacity 0, by rw [List.length_replicate]⟩

/-- The words behind the turn of a byte that does not end the frame. -/
def wordsAfter (byte : UInt8) (stack : Stack) : Option (List Word) :=
  match Exec.turn env (Exec.run env 0) byte (holding stack) with
  | .ok none m => some m.frame.stack.words
  | _ => none

/-- Why the turn of a byte is refused. -/
def refused (byte : UInt8) (stack : Stack) : Option LedgerError :=
  match Exec.turn env (Exec.run env 0) byte (holding stack) with
  | .error (.error e) _ => some e
  | _ => none

end StackLimits

open StackLimits Exec in
/-- `SWAP2` exchanges the first word and the third of four, `DUP2` finds no room on a full stack,
and an `ADD` of one word ends the call. -/
theorem stack_discipline_at_limits :
    (∃ m', turn env (run env 0) 0x91 (holding four) = .ok none m' ∧
      m'.frame.stack.words = [3, 2, 1, 4] ∧
      ∀ i, m'.frame.stack.words[i]? = (holding four).frame.stack.words[Equiv.swap 0 2 i]?) ∧
    (∃ m', turn env (run env 0) 0x81 (holding full) = .error (.error .stackOverflow) m' ∧
      Stack.capacity + (Opcode.ofByte 0x81).takes
        < (holding full).frame.stack.height + (Opcode.ofByte 0x81).gives) ∧
    ∃ r w', callIn 5 env request world = .ok (r, w') ∧ r.error = some .stackUnderflow ∧
      ∃ m, request.Starts env world m ∧
        ∃ mid, (traced env 5 m).1.getLast? = some mid ∧ mid.Explains .stackUnderflow := by
  have hswap : wordsAfter 0x91 four = some [3, 2, 1, 4] := by decide +kernel
  have hdup : refused 0x81 full = some .stackOverflow := by decide +kernel
  have hadd : (callIn 5 env request world).toOption.bind (·.1.error) = some .stackUnderflow := by
    decide +kernel
  obtain ⟨turns, failures, -, frames⟩ := stack_discipline
  refine ⟨?_, ?_, ?_⟩
  · unfold wordsAfter at hswap
    split at hswap
    · rename_i m' hturn
      obtain ⟨-, -, -, -, hexchange⟩ := turns env _ 0x91 _ _ _ hturn
      exact ⟨m', hturn, Option.some.inj hswap, hexchange 2 rfl⟩
    · cases hswap
  · unfold refused at hdup
    split at hdup
    · rename_i e m' hturn
      rw [Option.some.inj hdup] at hturn
      exact ⟨m', hturn, (failures env _ 0x81 _ m').2 hturn⟩
    · cases hdup
  · obtain ⟨⟨r, w'⟩, hcall, herror⟩ := exists_of_read hadd
    exact ⟨r, w', hcall, herror, (frames env 5 world r w' _ herror rfl).1 request hcall⟩

end MeteredLedger
