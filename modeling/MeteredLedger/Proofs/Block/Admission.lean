import MeteredLedger.Proofs.Block.Steps
import MeteredLedger.Proofs.Faults
import MeteredLedger.Proofs.Frame.Termination

/-!
# Blocks that are let in

A block is refused for its transactions as they stand, before the first of them is carried
out: because its header does not commit to them or one of them has no signer
(`Block.Malformed`), or because they declare more gas together than the header allows
(`Block.Exceeds`). A block that is let in is executed to its end, with one receipt for each
transaction (`Course.receipts`): a transition that fails is no reason to stop. There are two other
things that may become of it (`Fate`): one of its transactions is abandoned, for a nonce that
overflows or for a depth that is the largest number; or it never ends (`Endless`). The latter is
possible only where jumps cost nothing, and there it is (`loop_never_ends`). Else it is all or
nothing (`all_or_nothing`).
-/

namespace MeteredLedger

/-! ### Receipts -/

/-- **What the receipt of a transaction says of it**, if it stands at a place in a block with a
header. -/
structure Receipt.IsOf (h : Header) (place : Nat) (t : Transaction) (r : Receipt) : Prop where
  /-- It carries the hash of the transaction. -/
  hash : r.transactionHash = t.hash
  /-- It stands at the place. -/
  place : r.transactionIndex = UInt64.ofNat place
  /-- It belongs to the block. -/
  number : r.blockNumber = h.number
  /-- It names whoever has signed. -/
  sender : t.sender = .ok r.sender
  /-- It names the recipient. -/
  recipient : r.recipient = t.recipient
  /-- It charges no more than is declared. -/
  gas : r.gasUsed ≤ t.gasLimit

/-- A message names the signer and the recipient of its transaction. -/
theorem Message.of_ofTransaction {t : Transaction} {m : Message} (h : ofTransaction t = .ok m) :
    t.sender = .ok m.sender ∧ m.recipient? = t.recipient := by
  unfold ofTransaction at h
  split at h
  · cases h
  · rename_i signer hs
    split at h
    · rename_i hr
      cases h
      exact ⟨hs, hr.symm⟩
    · rename_i recipient hr
      cases h
      exact ⟨hs, hr.symm⟩

namespace BlockExecution

variable {p : Processor}

/-- What is written down of a transaction that is carried out. -/
theorem receipt_isOf {h : Header} {n : Nat} {t : Transaction} {q : Prepared} {s : Store}
    {x : Transition} {a : Ambient} (hq : Prepared.Of t q)
    (hx : p.execute q.message ⟨.bounded q.transaction.gasLimit, h, q.bytes, s⟩ = .ok (x, a)) :
    (receipt h n q x (settledMeter x a.meter).consumed).IsOf h n t := by
  cases hq with
  | intro hm =>
    obtain ⟨hsender, hrecipient⟩ := Message.of_ofTransaction hm
    exact ⟨rfl, rfl, rfl, hsender, hrecipient, execute_charge rfl hx⟩

/-- **Transactions one after another** leave one receipt each, in order. -/
theorem Course.receipts {h : Header} {n : Nat} {s s' : Store} {ps : List Prepared}
    {rs : List Receipt} {es : List Event} (hc : Course p h n s ps rs es s')
    {ts : List Transaction} (hts : List.Forall₂ Prepared.Of ts ps) :
    rs.length = ts.length ∧
      ∀ (i : Nat) (t : Transaction) (r : Receipt),
        ts[i]? = some t → rs[i]? = some r → r.IsOf h (n + i) t := by
  induction hc generalizing ts with
  | nil =>
    cases hts
    exact ⟨rfl, fun i t r ht => nomatch ht⟩
  | @cons n s s' q qs x a rs es head tail ih =>
    cases hts with
    | cons hq hqs =>
      obtain ⟨hlength, hrest⟩ := ih hqs
      refine ⟨congrArg Nat.succ hlength, fun i t r ht hr => ?_⟩
      cases i with
      | zero =>
        cases ht
        cases hr
        exact receipt_isOf hq head
      | succ i =>
        rw [← Nat.succ_add_eq_add_succ]
        exact hrest i t r ht hr

end BlockExecution

/-! ### Refusals -/

/-- **The block is malformed**: its header does not commit to its transactions, or no key is
recovered from the signature of one of them. -/
def Block.Malformed (b : Block) : Prop :=
  Block.rootOf b.transactions ≠ b.header.transactionsRoot ∨
    ∃ t ∈ b.transactions, ∀ key, t.recover ≠ .ok key

/-- **The block exceeds its limit**: the gas that its transactions declare, counted to the
largest amount, is more than the header allows. -/
def Block.Exceeds (b : Block) : Prop :=
  b.header.gasLimit.toNat < min (BlockExecution.declaredTotal b.transactions) maxGas.toNat

theorem Transaction.isSigned_iff (t : Transaction) :
    t.isSigned = true ↔ ∃ key, t.recover = .ok key := by
  unfold isSigned
  cases t.recover with
  | ok key => simp
  | error e => simp

theorem Block.malformed_iff (b : Block) : b.Malformed ↔ b.isValid = false := by
  unfold Malformed isValid
  rw [Bool.and_eq_false_iff, beq_eq_false_iff_ne, List.all_eq_false]
  refine or_congr_right (exists_congr fun t => and_congr_right fun _ => ?_)
  rw [Transaction.isSigned_iff]
  push Not
  rfl

/-- The signer of a transaction is known from its signature. -/
theorem Message.exists_ofTransaction {t : Transaction} (h : t.isSigned = true) :
    ∃ m, ofTransaction t = .ok m := by
  obtain ⟨key, hkey⟩ := t.isSigned_iff.1 h
  unfold ofTransaction Transaction.sender
  rw [hkey]
  cases t.recipient with
  | none => exact ⟨_, rfl⟩
  | some recipient => exact ⟨_, rfl⟩

namespace BlockExecution

variable {p : Processor}

/-- Signed transactions can be made ready. -/
theorem exists_prepared {ts : List Transaction} (h : ∀ t ∈ ts, t.isSigned = true) :
    ∃ ps, List.Forall₂ Prepared.Of ts ps := by
  induction ts with
  | nil => exact ⟨[], .nil⟩
  | cons t ts ih =>
    obtain ⟨m, hm⟩ := Message.exists_ofTransaction (h t List.mem_cons_self)
    obtain ⟨ps, hps⟩ := ih fun t ht => h t (List.mem_cons_of_mem _ ht)
    exact ⟨_, .cons (.intro hm) hps⟩

/-- A malformed block is refused, whatever it declares. -/
theorem prepare_of_malformed {r : Router} {b : Block} (h : b.Malformed) :
    ∃ reason, prepare r b = .error (.invalidBlock b.header.number reason) :=
  ⟨_, by rw [prepare, b.malformed_iff.1 h]; rfl⟩

/-- A block that is not malformed is refused only for the gas that it declares. -/
theorem prepare_of_wellFormed {b : Block} (h : ¬ b.Malformed) :
    ∃ ps, List.Forall₂ Prepared.Of b.transactions ps ∧
      prepare (.ofProcessor p) b = if b.header.gasLimit < declaredGas b.transactions then
        .error (.blockGasExceeded (declaredGas b.transactions) b.header.gasLimit) else .ok ps := by
  rw [b.malformed_iff, Bool.not_eq_false] at h
  have hsigned : ∀ t ∈ b.transactions, t.isSigned = true := by
    unfold Block.isValid at h
    exact List.all_eq_true.1 (Bool.and_eq_true_iff.1 h).2
  obtain ⟨ps, hps⟩ := exists_prepared hsigned
  have hready : prepareAll (.ofProcessor p) b.header.number b.transactions = .ok ps :=
    prepareAll_eq_ok_iff.2 hps
  refine ⟨ps, hps, ?_⟩
  unfold prepare
  rw [h, hready]
  rfl

theorem exceeds_iff (b : Block) : b.Exceeds ↔ b.header.gasLimit < declaredGas b.transactions := by
  rw [UInt64.lt_iff_toNat_lt, toNat_declaredGas]
  rfl

/-! ### Blocks that are not executed to their end -/

/-- **A transaction is abandoned**: those before it are carried out, and its own transition
comes to no end. -/
inductive Abandons (p : Processor) (h : Header) (n : Nat) (s : Store) :
    List Prepared → Prepared → Ambient → Abort → Prop where
  | intro {done rest : List Prepared} {q : Prepared} {rs : List Receipt} {es : List Event}
      {s' : Store} {f : Abort} (course : Course p h n s done rs es s')
      (stops : p.execute q.message ⟨.bounded q.transaction.gasLimit, h, q.bytes, s'⟩ = .error f) :
      Abandons p h n s (done ++ q :: rest) q ⟨.bounded q.transaction.gasLimit, h, q.bytes, s'⟩ f

/-- Transactions are executed to the end of the list, or one of them is abandoned. -/
theorem executeAll_cases (p : Processor) (h : Header) (ps : List Prepared) (done : Progress) :
    (∃ done' s', executeAll (.ofProcessor p) h ps done = .ok (.ok done', s')) ∨
      ∃ q a f, executeAll (.ofProcessor p) h ps done = .error f ∧
        Abandons p h done.receipts.length done.store ps q a f := by
  induction ps generalizing done with
  | nil => exact .inl ⟨done, done.store, rfl⟩
  | cons q qs ih =>
    rw [executeAll_cons]
    cases hx : p.execute q.message ⟨.bounded q.transaction.gasLimit, h, q.bytes, done.store⟩ with
    | error f =>
      have habandons : Abandons p h done.receipts.length done.store ([] ++ q :: qs) q _ f :=
        .intro .nil hx
      exact .inr ⟨q, _, f, rfl, habandons⟩
    | ok answer =>
      refine (ih _).imp_right ?_
      rintro ⟨q', a, f, hf, habandons⟩
      refine ⟨q', a, f, hf, ?_⟩
      cases habandons with
      | intro course stops => exact .intro (.cons hx course) stops

/-- **A block that is let in** is executed to its end, unless one of its transactions is
abandoned. -/
theorem executeWith_cases {b : Block} {ps : List Prepared}
    (hp : prepare (.ofProcessor p) b = .ok ps) (s : Store) :
    (∃ e s', executeWith (.ofProcessor p) b s = .ok (.ok e, s')) ∨
      ∃ q a f, executeWith (.ofProcessor p) b s = .error f ∧ Abandons p b.header 0 s ps q a f := by
  obtain ⟨done, s', hdone⟩ | ⟨q, a, f, hf, habandons⟩ :=
    executeAll_cases p b.header ps ⟨[], 0, [], s⟩
  · exact .inl ⟨_, s', by simp only [executeWith, hp, hdone, bind, Except.bind]; rfl⟩
  · exact .inr ⟨q, a, f, by simp only [executeWith, hp, hf, bind, Except.bind], habandons⟩

end BlockExecution

/-! ### What transactions are abandoned for -/

/-- Where every jump costs gas, the engine that runs code does not cut runs off. -/
theorem Engine.machine_ends {params : Params} (hj : params.JumpsCost) (context : Context)
    (store : Store) (m : Message) (gas : Gas) (w : World) :
    (machine params).run context store m gas w ≠ .error .unfinished := by
  cases m with
  | create => exact Creation.perform_ends ⟨params, context, store⟩ hj _ w
  | invoke => exact Call.perform_ends ⟨params, context, store⟩ hj _ w

namespace Processor

/-- An attempt is cut off only if its run is. -/
theorem run_of_attempt_unfinished {p : Processor} {m : Message} {header : Header} {store : Store}
    {view : View} {g : Grant} (h : p.attempt m header store view g = .error .unfinished) :
    p.engine.run (.ofHeader header m.sender g.gas) store m g.gas ⟨view.resync, g.inner⟩
      = .error .unfinished := by
  unfold attempt at h
  dsimp only at h
  split at h
  · rename_i hr
    cases h
    exact hr
  · unfold classify at h
    split at h
    · rename_i hrec
      cases h
      cases Grant.reconcile_abort hrec
    · cases h
    · split at h
      · cases h
      · split_ifs at h

/-- A transition meets a fault only for a nonce that overflows, or a depth without a number below
it. -/
theorem execute_fault {p : Processor} (he : p.engine.RunsCode p.params) {m : Message} {a : Ambient}
    {f : Fault} (hbalanced : a.meter.Balanced) (h : p.execute m a = .error (.fault f)) :
    m.Overflows (p.settingOf m a) (Grant.ofMeter a.meter m.gasLimit).gas
        ⟨startView a, .untracked⟩ f ∨
      f = .depthOverflow ∧ p.params.Bottomless :=
  attempt_faults he rfl (attemptOf_of_execute_error hbalanced h)

/-- Where every jump costs gas, a transition is not cut off. -/
theorem execute_ends {params : Params} (hj : params.JumpsCost) {m : Message} {a : Ambient}
    (hbalanced : a.meter.Balanced) : (ofParams params).execute m a ≠ .error .unfinished := fun h =>
  Engine.machine_ends hj _ _ _ _ _
    (run_of_attempt_unfinished (attemptOf_of_execute_error hbalanced h))

end Processor

/-! ### All or nothing -/

namespace BlockExecution

variable {p : Processor} {b : Block} {s : Store}

/-- A block is abandoned with the first of its transactions. -/
theorem executeWith_of_first {q : Prepared} {qs : List Prepared} {f : Abort}
    (hp : prepare (.ofProcessor p) b = .ok (q :: qs))
    (hq : p.execute q.message ⟨.bounded q.transaction.gasLimit, b.header, q.bytes, s⟩ = .error f) :
    executeWith (.ofProcessor p) b s = .error f := by
  have hall : executeAll (.ofProcessor p) b.header (q :: qs) ⟨[], 0, [], s⟩ = .error f := by
    rw [executeAll_cons, hq]
  simp only [executeWith, hp, hall]
  rfl

theorem executeWith_of_refused {r : Router} {e : LedgerError} (h : prepare r b = .error e) :
    executeWith r b s = .ok (.error e, s) := by
  simp only [executeWith, h]

/-- A malformed block is refused, whatever it declares. -/
theorem executeWith_of_malformed {r : Router} (h : b.Malformed) : ∃ reason,
    executeWith r b s = .ok (.error (.invalidBlock b.header.number reason), s) := by
  obtain ⟨reason, hp⟩ := prepare_of_malformed (r := r) h
  exact ⟨reason, executeWith_of_refused hp⟩

/-- A block that is not malformed, and exceeds its limit, is refused for that. -/
theorem executeWith_of_exceeds (h : ¬ b.Malformed) (hover : b.Exceeds) :
    executeWith (.ofProcessor p) b s
      = .ok (.error (.blockGasExceeded (declaredGas b.transactions) b.header.gasLimit), s) := by
  obtain ⟨ps, -, hp⟩ := prepare_of_wellFormed (p := p) h
  rw [if_pos ((exceeds_iff b).1 hover)] at hp
  exact executeWith_of_refused hp

/-- Any other block is let in. -/
theorem exists_prepare (p : Processor) (h : ¬ b.Malformed) (hover : ¬ b.Exceeds) :
    ∃ ps, List.Forall₂ Prepared.Of b.transactions ps ∧ prepare (.ofProcessor p) b = .ok ps := by
  obtain ⟨ps, hps, hp⟩ := prepare_of_wellFormed (p := p) h
  rw [if_neg fun hlt => hover ((exceeds_iff b).2 hlt)] at hp
  exact ⟨ps, hps, hp⟩

/-- **Which blocks are refused.** -/
theorem executeWith_refuses_iff :
    (∃ e s', executeWith (.ofProcessor p) b s = .ok (.error e, s')) ↔ b.Malformed ∨ b.Exceeds := by
  constructor
  · rintro ⟨e, s', he⟩
    by_contra hn
    obtain ⟨h, hover⟩ := not_or.1 hn
    obtain ⟨ps, -, hp⟩ := exists_prepare p h hover
    obtain ⟨_, _, hdone⟩ | ⟨_, _, _, hf, -⟩ := executeWith_cases hp s
    · cases hdone.symm.trans he
    · cases hf.symm.trans he
  · intro h
    by_cases hm : b.Malformed
    · obtain ⟨reason, he⟩ := executeWith_of_malformed hm
      exact ⟨_, s, he⟩
    · exact ⟨_, s, executeWith_of_exceeds hm (h.resolve_left hm)⟩

/-- **What may become of a block that is let in**, but for being cut off, and what it is answered
with then. -/
inductive Fate (p : Processor) (b : Block) (s : Store) :
    Except Abort (Except LedgerError BlockExecution × Store) → Prop where
  /-- It is executed to its end, and has one receipt for each of its transactions, in order. -/
  | executed {ps : List Prepared} {e : BlockExecution} {s' : Store}
      (ready : List.Forall₂ Prepared.Of b.transactions ps)
      (course : Course p b.header 0 s ps e.receipts e.events s')
      (length : e.receipts.length = b.transactions.length)
      (receipts : ∀ (i : Nat) (t : Transaction) (r : Receipt), b.transactions[i]? = some t →
        e.receipts[i]? = some r → r.IsOf b.header i t) : Fate p b s (.ok (.ok e, s'))
  /-- A transaction is abandoned that comes to ask for a creation by an account at the largest
  nonce. -/
  | overflown {ps : List Prepared} {q : Prepared} {a : Ambient}
      (ready : List.Forall₂ Prepared.Of b.transactions ps)
      (abandons : Abandons p b.header 0 s ps q a (.fault .nonceOverflow))
      (overflows : q.message.Overflows (p.settingOf q.message a)
        (Grant.ofMeter a.meter q.message.gasLimit).gas ⟨Processor.startView a, .untracked⟩
        .nonceOverflow) : Fate p b s (.error (.fault .nonceOverflow))
  /-- Frames may nest to the largest number, and a transaction is abandoned that asks for one
  below. -/
  | tooDeep {ps : List Prepared} {q : Prepared} {a : Ambient}
      (ready : List.Forall₂ Prepared.Of b.transactions ps)
      (abandons : Abandons p b.header 0 s ps q a (.fault .depthOverflow))
      (bottomless : p.params.Bottomless) : Fate p b s (.error (.fault .depthOverflow))

/-- **A block that is let in has a fate**, or is cut off. -/
theorem fate_or_cutOff (he : p.engine.RunsCode p.params) (h : ¬ b.Malformed) (hover : ¬ b.Exceeds)
    (s : Store) : Fate p b s (executeWith (.ofProcessor p) b s) ∨
      executeWith (.ofProcessor p) b s = .error .unfinished := by
  obtain ⟨ps, hps, hp⟩ := exists_prepare p h hover
  obtain ⟨e, s', hdone⟩ | ⟨q, a, f, hf, habandons⟩ := executeWith_cases hp s
  · obtain ⟨ps', rs, es, hp', hcourse, rfl⟩ := executeWith_eq_ok_iff.1 hdone
    cases hp.symm.trans hp'
    obtain ⟨hlength, hall⟩ := hcourse.receipts hps
    rw [hdone]
    refine .inl (.executed hps hcourse hlength fun i t r ht hr => ?_)
    rw [← Nat.zero_add i]
    exact hall i t r ht hr
  · rw [hf]
    cases f with
    | unfinished => exact .inr rfl
    | fault f =>
      have hwhy : q.message.Overflows (p.settingOf q.message a)
          (Grant.ofMeter a.meter q.message.gasLimit).gas ⟨Processor.startView a, .untracked⟩ f ∨
            f = .depthOverflow ∧ p.params.Bottomless := by
        cases habandons with
        | intro _ stops => exact Processor.execute_fault he (Meter.balanced_fresh _) stops
      obtain hwhy | ⟨rfl, hbottomless⟩ := hwhy
      · obtain rfl := hwhy.1
        exact .inl (.overflown hps habandons hwhy)
      · exact .inl (.tooDeep hps habandons hbottomless)

/-- Where every jump costs gas, no block is cut off. -/
theorem execute_ne_unfinished {params : Params} (hj : params.JumpsCost) (h : ¬ b.Malformed)
    (hover : ¬ b.Exceeds) : execute params b s ≠ .error .unfinished := by
  intro hcut
  obtain ⟨ps, -, hp⟩ := exists_prepare (.ofParams params) h hover
  obtain ⟨e, s', hdone⟩ | ⟨q, a, f, hf, habandons⟩ := executeWith_cases hp s
  · cases hdone.symm.trans hcut
  · cases hf.symm.trans hcut
    cases habandons with
    | intro _ stops => exact Processor.execute_ends hj (Meter.balanced_fresh _) stops

/-- **What becomes of a block that is let in**, with the processor of some parameters. -/
structure Settled (params : Params) (b : Block) (s : Store) : Prop where
  /-- It meets its fate in any number of steps that is large enough. Or it never ends, and then
  there are jumps that cost nothing. -/
  inSteps : (∃ answer few, ∀ steps, few ≤ steps →
      executeIn params steps b s = answer ∧ Fate (.inSteps params steps) b s answer) ∨
    Endless params b s ∧ ¬ params.JumpsCost
  /-- The processor comes to the same in the steps that it allows itself. Or these are not enough,
  and then there are jumps that cost nothing. -/
  machine : (Fate (.ofParams params) b s (execute params b s) ∧
      ∃ few, ∀ steps, few ≤ steps → executeIn params steps b s = execute params b s) ∨
    execute params b s = .error .unfinished ∧ ¬ params.JumpsCost

theorem settled_of_letIn (params : Params) (h : ¬ b.Malformed) (hover : ¬ b.Exceeds) :
    Settled params b s where
  inSteps := by
    refine (ends_or_endless params b s).imp ?_ fun hendless => ⟨hendless, fun hj =>
      execute_ne_unfinished hj h hover hendless.execute⟩
    rintro ⟨answer, few, hends, hsteps⟩
    refine ⟨answer, few, fun steps hle => ⟨hsteps steps hle, ?_⟩⟩
    obtain rfl := hsteps steps hle
    exact (fate_or_cutOff (Engine.runsCode_inSteps params steps) h hover s).resolve_right hends
  machine := by
    by_cases hcut : execute params b s = .error .unfinished
    · exact .inr ⟨hcut, fun hj => execute_ne_unfinished hj h hover hcut⟩
    · exact .inl ⟨(fate_or_cutOff (Engine.runsCode_machine params) h hover s).resolve_right hcut,
        exists_executeIn hcut⟩

/-- **All or nothing.** Whatever the parameters, the block and the store: the block is refused
exactly if it is malformed or exceeds its limit, with an error that says which, the former
before the latter, and the store is left as it was. A block that is not refused is executed
to its end, and has one receipt for each of its transactions, in order; or else a transaction
is abandoned after those before it were carried out, and that only for a nonce that overflows, or
for a depth that does where frames may nest to the largest number; or else it never ends, and that
only where there are jumps that cost nothing. -/
theorem all_or_nothing (params : Params) (b : Block) (s : Store) :
    ((∃ e s', execute params b s = .ok (.error e, s')) ↔ b.Malformed ∨ b.Exceeds) ∧
    (b.Malformed → ∃ reason,
      execute params b s = .ok (.error (.invalidBlock b.header.number reason), s)) ∧
    (¬ b.Malformed → b.Exceeds → ∃ declared : Gas,
      declared.toNat = min (declaredTotal b.transactions) maxGas.toNat ∧
      execute params b s = .ok (.error (.blockGasExceeded declared b.header.gasLimit), s)) ∧
    (¬ b.Malformed → ¬ b.Exceeds → Settled params b s) :=
  ⟨executeWith_refuses_iff, executeWith_of_malformed, fun h hover =>
    ⟨_, toNat_declaredGas _, executeWith_of_exceeds h hover⟩, settled_of_letIn params⟩

/-! ### Blocks without gas -/

namespace BurntBlock

/-- Blocks that may declare no gas. -/
def starved (t : Transaction) : Block := .sealed { Header.genesis with gasLimit := 0 } [t]

/-- The transaction, not signed. -/
def unsigned : Transaction := { spender with signature := none }

theorem malformed_unsigned : (starved unsigned).Malformed :=
  .inr ⟨unsigned, List.mem_singleton_self _, nofun⟩

theorem exceeds_starved : (starved spender).Exceeds ∧ (starved unsigned).Exceeds := by
  constructor <;> exact (exceeds_iff _).2 (by decide)

theorem not_malformed_starved : ¬ (starved spender).Malformed := by
  rw [Block.malformed_iff, Bool.not_eq_false]
  refine Block.isValid_sealed _ fun t ht => ?_
  rw [List.mem_singleton.1 ht]
  exact Transaction.isSigned_of_recover recover_spender

end BurntBlock

open BurntBlock in
/-- One transaction is executed under the largest limit, and has its receipt. Under a limit of
nothing it is refused for its gas, and for its signature before that if it has none. -/
theorem all_or_nothing_burnt :
    (¬ (block 1).Malformed ∧ ¬ (block 1).Exceeds ∧
      ∃ e s' r, execute .standard (block 1) store = .ok (.ok e, s') ∧ e.receipts = [r] ∧
        r.IsOf (block 1).header 0 spender) ∧
    ((starved unsigned).Exceeds ∧ ∃ reason,
      execute .standard (starved unsigned) store = .ok (.error (.invalidBlock 0 reason), store)) ∧
    ∃ declared : Gas, declared.toNat = maxGas.toNat ∧
      execute .standard (starved spender) store
        = .ok (.error (.blockGasExceeded declared 0), store) := by
  obtain ⟨e, he, -⟩ := execute_block 1
  obtain ⟨refused, -, -, letIn⟩ := all_or_nothing .standard (block 1) store
  have hfine : ¬ ((block 1).Malformed ∨ (block 1).Exceeds) := by
    intro h
    obtain ⟨_, _, herror⟩ := refused.2 h
    cases he.symm.trans herror
  obtain ⟨hm, hx⟩ := not_or.1 hfine
  obtain ⟨-, hmalformed, -, -⟩ := all_or_nothing .standard (starved unsigned) store
  obtain ⟨-, -, hexceeds, -⟩ := all_or_nothing .standard (starved spender) store
  obtain ⟨declared, hdeclared, hrefused⟩ := hexceeds not_malformed_starved exceeds_starved.1
  refine ⟨⟨hm, hx, ?_⟩, ⟨exceeds_starved.2, hmalformed malformed_unsigned⟩, declared, ?_, hrefused⟩
  · obtain ⟨hfate, -⟩ | ⟨hcut, -⟩ := (letIn hm hx).machine
    · rw [he] at hfate
      cases hfate with
      | executed _ _ length receipts =>
        obtain ⟨r, hr⟩ := List.length_eq_one_iff.1 length
        exact ⟨e, store, r, he, hr, receipts 0 spender r rfl (by rw [hr]; rfl)⟩
    · cases he.symm.trans hcut
  · rw [hdeclared]
    simp [starved, Block.sealed, declaredTotal, spender]

/-! ### A block that never ends -/

namespace FreeLoop

/-- Parameters under which the place that a jump leads to, a word that is pushed and the jump
cost nothing. -/
def params : Params :=
  { Params.standard with
    instructions := { InstructionCosts.standard with veryLow := 0, mid := 0, jumpdest := 0 } }

/-- A place to jump to, and a jump there. -/
def code : Bytes := [0x5b, 0x60, 0, 0x56]

/-- The account that is called has the code. -/
def store : Store :=
  (Store.ofAccounts [(BurntBlock.target, ⟨1, 0, .digest code⟩)]).putCode BurntBlock.target code

/-- A frame at a place of the code, with some words. -/
def place (f : Frame) (pc : Nat) (stack : Stack) : Frame :=
  { f with
    code := FreeLoop.code.toArray
    targets := (Code.jumpTargets FreeLoop.code).toArray
    pc
    stack }

/-- The stack with a zero on it, which is where the jump leads. -/
def zero : Stack := ⟨[0], by decide⟩

/-- **The machine is at a place of the code**, and its gas can be charged nothing. -/
structure Spins (f : Frame) (pc : Nat) (stack : Stack) (m : Machine) : Prop where
  frame : m.frame = place f pc stack
  within : ∀ limit, m.gas.limit = .bounded limit → m.gas.consumed ≤ limit

variable {context : Context} {s : Store} {m : Machine} {f : Frame} {pc : Nat} {stack : Stack}

open Exec

/-- An instruction that costs nothing is carried out where the machine is. -/
theorem Spins.step (h : Spins f pc stack m) (context : Context) (s : Store) {byte : UInt8}
    {op : Opcode} (hop : Opcode.ofByte byte = op)
    (free : op.cost? params.instructions = some 0) :
    ∃ m₁, step ⟨params, context, s⟩ byte m = perform ⟨params, context, s⟩ op m₁ ∧
      Spins f pc stack m₁ := by
  obtain ⟨gas, hpaid, htally⟩ := Meter.consume_zero h.within op.label
  have hlimit : gas.limit = m.gas.limit := congrArg (·.1) htally
  have hconsumed : gas.consumed = m.gas.consumed := congrArg (·.2.1) htally
  refine ⟨m.charged gas 0 op.label, ?_, h.frame, fun limit hl => ?_⟩
  · unfold Exec.step
    simp only [hop, free]
    rw [bind_apply, charge, hpaid]
    rfl
  · show gas.consumed ≤ limit
    rw [hconsumed]
    exact h.within limit (hlimit.symm.trans hl)

/-- The first turn goes on from the place that the jump leads to. -/
theorem Spins.jumpdest (h : Spins f 0 .empty m) (body : Exec Exit) : ∃ m₁,
    turn ⟨params, context, s⟩ body 0x5b m = .ok none m₁ ∧ Spins f 1 .empty m₁ := by
  obtain ⟨⟨world, gas, _⟩, hstep, rfl, within⟩ :=
    h.step context s (show Opcode.ofByte 0x5b = .jumpdest from rfl) rfl
  have hnext : Exec.step ⟨params, context, s⟩ 0x5b m = .ok .next ⟨world, gas, place f 0 .empty⟩ :=
    hstep
  exact ⟨_, turn_of_next hnext, rfl, within⟩

/-- The second one puts a zero on the stack. -/
theorem Spins.push (h : Spins f 1 .empty m) (body : Exec Exit) : ∃ m₁,
    turn ⟨params, context, s⟩ body 0x60 m = .ok none m₁ ∧ Spins f 3 zero m₁ := by
  obtain ⟨⟨world, gas, _⟩, hstep, rfl, within⟩ :=
    h.step context s (show Opcode.ofByte 0x60 = .push 1 from rfl) rfl
  have hnext : Exec.step ⟨params, context, s⟩ 0x60 m = .ok .next ⟨world, gas, place f 2 zero⟩ :=
    hstep
  exact ⟨_, turn_of_next hnext, rfl, within⟩

/-- The third one jumps back. -/
theorem Spins.jump (h : Spins f 3 zero m) (body : Exec Exit) : ∃ m₁,
    turn ⟨params, context, s⟩ body 0x56 m = .ok none m₁ ∧ Spins f 0 .empty m₁ := by
  obtain ⟨⟨world, gas, _⟩, hstep, rfl, within⟩ :=
    h.step context s (show Opcode.ofByte 0x56 = .jump from rfl) rfl
  have hjumped : Exec.step ⟨params, context, s⟩ 0x56 m
      = .ok .jumped ⟨world, gas, place f 0 .empty⟩ := hstep
  exact ⟨_, turn_of_jumped hjumped, rfl, within⟩

/-- Three turns lead back to the start. -/
theorem Spins.round (h : Spins f 0 .empty m) (context : Context) (s : Store) (steps : Nat) : ∃ m₁,
    run ⟨params, context, s⟩ (steps + 3) m = run ⟨params, context, s⟩ steps m₁ ∧
      Spins f 0 .empty m₁ := by
  obtain ⟨m₁, hjumpdest, h₁⟩ := h.jumpdest (run ⟨params, context, s⟩ (steps + 2))
  obtain ⟨m₂, hpush, h₂⟩ := h₁.push (run ⟨params, context, s⟩ (steps + 1))
  obtain ⟨m₃, hjump, h₃⟩ := h₂.jump (run ⟨params, context, s⟩ steps)
  refine ⟨m₃, ?_, h₃⟩
  rw [run_of_turn (by rw [h.frame]; rfl) hjumpdest, run_of_turn (by rw [h₁.frame]; rfl) hpush,
    run_of_turn (by rw [h₂.frame]; rfl) hjump]

/-- It is cut off after so many rounds. -/
theorem Spins.rounds (h : Spins f 0 .empty m) (context : Context) (s : Store) (rounds : Nat) :
    ∃ m', run ⟨params, context, s⟩ (3 * rounds) m = .error (.abort .unfinished) m' := by
  induction rounds generalizing m with
  | zero => exact ⟨m, rfl⟩
  | succ rounds ih =>
    obtain ⟨m₁, hround, h₁⟩ := h.round context s (3 * rounds)
    obtain ⟨m', hm'⟩ := ih h₁
    exact ⟨m', hround.trans hm'⟩

/-- **The code runs forever**: it is cut off in any number of steps. -/
theorem Spins.run (h : Spins f 0 .empty m) (steps : Nat) :
    ∃ m', run ⟨params, context, s⟩ steps m = .error (.abort .unfinished) m' := by
  -- fewer steps would come to the same if they were enough
  by_contra hends
  obtain ⟨m', hm'⟩ := h.rounds context s steps
  have hsame := run_extends ⟨params, context, s⟩ (show steps ≤ 3 * steps by omega) m
    fun m' hcut => hends ⟨m', hcut⟩
  exact hends ⟨m', hsame.symm.trans hm'⟩

theorem codeAt_target : store.codeAt BurntBlock.target = code := by
  unfold store
  rw [Store.codeAt_putCode, if_pos rfl]

/-- A call of the account comes to the code, and then to no end. -/
theorem callIn_unfinished (context : Context) (hm : context.mayTransfer = View.canTransfer)
    (txHash : Hash) (payer : Address) (steps : Nat) :
    callIn steps ⟨params, context, store⟩ ⟨payer, BurntBlock.target, [], maxGas, 0, 0⟩
      ⟨(View.fresh.tagged txHash).resync, .untracked⟩ = .error .unfinished := by
  let env : Setting := ⟨params, context, store⟩
  let c : Call := ⟨payer, BurntBlock.target, [], maxGas, 0, 0⟩
  let w : World := ⟨(View.fresh.tagged txHash).resync, .untracked⟩
  have hadmitted : refusal? env w c.caller c.value c.depth = none := by
    simp [refusal?, env, c, hm, View.canTransfer]
  obtain ⟨gas, hpaid, hlimit⟩ : ∃ gas, (Meter.bounded maxGas).consume params.effects.call "call"
      = .ok gas ∧ gas.limit = .bounded maxGas := ⟨_, rfl, rfl⟩
  have hspins : Spins (c.machine w).frame 0 .empty
      { (c.machine w).charged gas env.params.effects.call "call" with
        frame := (c.machine w).frame.load code } := by
    refine ⟨rfl, fun limit hl => ?_⟩
    cases hl.symm.trans hlimit
    exact UInt64.le_iff_toNat_le.2 (toNat_le_maxGas _)
  obtain ⟨m', hm'⟩ := hspins.run steps
  exact Call.Starts.abandons ⟨hadmitted, openCall_of_paid hpaid rfl codeAt_target rfl⟩ hm'

/-- So the transaction is cut off. -/
theorem execute_unfinished (payer : Address) (header : Header) (steps : Nat) :
    (Processor.inSteps params steps).execute (BurntBlock.ready payer).message
      ⟨.bounded (BurntBlock.ready payer).transaction.gasLimit, header,
        (BurntBlock.ready payer).bytes, store⟩ = .error .unfinished := by
  have hrun : (Engine.inSteps params steps).run (.ofHeader header payer maxGas) store
      (BurntBlock.message payer) maxGas
      ⟨(View.fresh.tagged (Hash.digest BurntBlock.spender.encode)).resync, .untracked⟩
        = .error .unfinished := by
    dsimp only [Engine.inSteps, Engine.run, BurntBlock.message]
    exact callIn_unfinished _ rfl _ payer steps
  have granted : Grant.ofMeter (.bounded maxGas) (BurntBlock.message payer).gasLimit
      = ⟨.bounded maxGas, 0, maxGas, .untracked⟩ := rfl
  show (Processor.inSteps params steps).execute (BurntBlock.message payer)
    ⟨.bounded maxGas, header, BurntBlock.spender.encode, store⟩ = .error .unfinished
  refine Processor.execute_of_run_error ?_
  dsimp only
  rw [granted]
  exact hrun

end FreeLoop

open BurntBlock in
/-- **A block that never ends.** It is well formed and within its limit, but jumps cost nothing and
its one transaction calls code that jumps back and forth: it is cut off in any number of steps, and
has no answer. -/
theorem loop_never_ends :
    ¬ (block 1).Malformed ∧ ¬ (block 1).Exceeds ∧
    Endless FreeLoop.params (block 1) FreeLoop.store ∧
    ∀ answer, execute FreeLoop.params (block 1) FreeLoop.store ≠ .ok answer := by
  have hmalformed : ¬ (block 1).Malformed := by
    rw [Block.malformed_iff, Bool.not_eq_false]
    exact isValid_block 1
  have hexceeds : ¬ (block 1).Exceeds := by
    rw [exceeds_iff, UInt64.not_lt]
    exact UInt64.le_iff_toNat_le.2 (toNat_le_maxGas _)
  have hendless : Endless FreeLoop.params (block 1) FreeLoop.store := by
    intro steps
    exact executeWith_of_first (prepare_block _ 1) (FreeLoop.execute_unfinished _ _ steps)
  refine ⟨hmalformed, hexceeds, hendless, fun answer hanswer => ?_⟩
  cases hendless.execute.symm.trans hanswer

end BlockExecution

end MeteredLedger
