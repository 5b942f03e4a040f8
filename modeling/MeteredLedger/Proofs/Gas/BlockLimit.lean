import MeteredLedger.Proofs.Block
import MeteredLedger.Proofs.Gas.Meters
import MeteredLedger.Proofs.Machine.Runs
import MeteredLedger.Proofs.Transition
import MeteredLedger.Proofs.View.Publish

/-!
# What a block may be charged

A transition takes no more than its meter lets through, and reports no more than that
when it fails (`Processor.execute_charge`). So every receipt of a block is within what
its transaction declares (`executeAll_charges`), and what the receipts come to together
is within what is declared together.

The block's own limit is compared with a sum that stops at the largest amount of gas. As
long as the declared gas can be counted, that is the sum itself, and the block stays
within its limit; a limit below the largest amount makes sure of it
(`charged_within_limit`). A block that may use the largest amount is let through whatever
it declares (`twice_exceeds_limit`).
-/

namespace MeteredLedger

/-! ### One transition -/

/-- What is reported beside an outer meter counts from what the meter had consumed. -/
theorem Grant.toNat_totalWith_bounds (g : Grant) (consumed : Gas) :
    g.outerConsumed.toNat ≤ (g.totalWith consumed).toNat ∧
      (g.totalWith consumed).toNat ≤ g.outerConsumed.toNat + consumed.toNat := by
  have hle := toNat_le_maxGas g.outerConsumed
  unfold totalWith
  rw [toNat_addGasCapped]
  omega

/-- The figures of a grant stay within it, whatever the run hands back. -/
theorem Grant.reconcile_within {g : Grant} {remaining : Gas} {figures : Reconciliation}
    (h : g.reconcile remaining = .ok figures) : figures.consumed.toNat ≤ g.gas.toNat ∧
      g.outerConsumed.toNat ≤ figures.total.toNat ∧
      figures.total.toNat ≤ g.outerConsumed.toNat + g.gas.toNat := by
  unfold reconcile at h
  dsimp only at h
  split_ifs at h with hlt hne
  have hle : remaining ≤ g.gas := UInt64.not_lt.1 hlt
  have hsub : (g.gas - remaining).toNat = g.gas.toNat - remaining.toNat :=
    UInt64.toNat_sub_of_le _ _ hle
  have htotal := g.toNat_totalWith_bounds (g.gas - remaining)
  cases h
  dsimp only
  omega

/-- **What is granted**: what is asked for, or what the meter has left if that is less. -/
theorem Grant.toNat_gas_ofMeter {meter : Meter} {limit : Gas} (h : meter.limit = .bounded limit)
    (asked : Gas) : (Grant.ofMeter meter asked).gas.toNat
      = min asked.toNat (limit.toNat - meter.consumed.toNat) := by
  have hleft := toNat_subGasFloored limit meter.consumed
  unfold ofMeter Meter.remaining?
  rw [h]
  dsimp only
  split_ifs with hlt
  · rw [UInt64.lt_iff_toNat_lt] at hlt
    omega
  · rw [UInt64.not_lt, UInt64.le_iff_toNat_le] at hlt
    omega

/-- A grant from a fresh meter is within the limit of the meter. -/
theorem Grant.toNat_gas_ofMeter_le (limit asked : Gas) :
    (Grant.ofMeter (.bounded limit) asked).gas.toNat ≤ limit.toNat := by
  rw [toNat_gas_ofMeter rfl]
  exact (Nat.min_le_right _ _).trans (Nat.sub_le _ _)

@[simp] theorem Outcome.gasUsed_ofError (e : LedgerError) (output : Bytes) (gas : Gas) :
    (Outcome.ofError e output gas).gasUsed = gas := by
  cases e <;> rfl

namespace Processor

variable {p : Processor} {m : Message}

/-- **An attempt stays within its grant**: what it reports if it fails, and what it is to
be charged if it ends well. -/
theorem attempt_within {header : Header} {store : Store} {view : View} {g : Grant}
    {answer : Except Outcome Finished} (h : p.attempt m header store view g = .ok answer) :
    (∀ outcome, answer = .error outcome → g.outerConsumed.toNat ≤ outcome.gasUsed.toNat ∧
      outcome.gasUsed.toNat ≤ g.outerConsumed.toNat + g.gas.toNat) ∧
    (∀ run, answer = .ok run → run.figures.consumed.toNat ≤ g.gas.toNat ∧
      g.outerConsumed.toNat ≤ run.figures.total.toNat ∧
      run.figures.total.toNat ≤ g.outerConsumed.toNat + g.gas.toNat) := by
  unfold attempt at h
  dsimp only at h
  split at h
  · cases h
  · rename_i result w _
    unfold classify at h
    split at h
    · cases h
    · cases h
      constructor <;> rintro _ ⟨⟩
      exact Grant.toNat_totalWith_bounds _ _
    · rename_i figures hf
      obtain ⟨hconsumed, htotal⟩ := Grant.reconcile_within hf
      split at h
      · cases h
        constructor <;> rintro _ ⟨⟩
        rw [Outcome.gasUsed_ofError]
        exact htotal
      · split_ifs at h
        · cases h
          constructor <;> rintro _ ⟨⟩
          exact htotal
        · cases h
          constructor <;> rintro _ ⟨⟩
          exact ⟨hconsumed, htotal⟩

/-- A transition on a fresh meter leaves the meter within its limit, and reports no more
than the limit. -/
theorem execute_within {a a' : Ambient} {t : Transition} {limit : Gas}
    (hm : a.meter = .bounded limit) (h : p.execute m a = .ok (t, a')) :
    a'.meter.consumed.toNat ≤ limit.toNat ∧ t.outcome.gasUsed.toNat ≤ limit.toNat := by
  have hzero : a.meter.consumed.toNat = 0 := by
    rw [hm]
    rfl
  have hgas := Grant.toNat_gas_ofMeter_le limit m.gasLimit
  have within : ∀ {answer}, p.attemptOf m a = .ok answer → _ := fun h => attempt_within h
  rw [hm] at within
  have houter : (Grant.ofMeter (.bounded limit) m.gasLimit).outerConsumed.toNat = 0 := rfl
  have hx := execute_cases p m a
  rw [h] at hx
  cases hx with
  | @failed outcome ha =>
    have hreport := (within ha).1 outcome rfl
    exact ⟨by omega, show outcome.gasUsed.toNat ≤ _ by omega⟩
  | @uncharged run e ha hc =>
    obtain ⟨-, -, htotal⟩ := (within ha).2 run rfl
    exact ⟨by omega, show run.figures.total.toNat ≤ _ by omega⟩
  | @unpublished run meter e ha hc hp =>
    obtain ⟨hconsumed, -, htotal⟩ := (within ha).2 run rfl
    obtain ⟨-, hmeter, -⟩ := Meter.consume_eq_ok hc
    exact ⟨show meter.consumed.toNat ≤ _ by omega, show run.figures.total.toNat ≤ _ by omega⟩
  | @effective run meter logs store ha hc hp =>
    obtain ⟨hconsumed, -⟩ := (within ha).2 run rfl
    obtain ⟨-, hmeter, -⟩ := Meter.consume_eq_ok hc
    exact ⟨show meter.consumed.toNat ≤ _ by omega, show run.figures.consumed.toNat ≤ _ by omega⟩

end Processor

namespace BlockExecution

/-- What is charged in the end is what the meter holds or what the transition reports. -/
theorem toNat_consumed_settledMeter_le (t : Transition) (m : Meter) :
    (settledMeter t m).consumed.toNat ≤ max m.consumed.toNat t.outcome.gasUsed.toNat := by
  unfold settledMeter
  split_ifs
  · exact Nat.le_max_left _ _
  · show (addGasCapped _ _).toNat ≤ _
    rw [toNat_addGasCapped, toNat_subGasFloored]
    omega

/-- **A transaction is charged no more than it declares.** -/
theorem execute_charge {p : Processor} {m : Message} {a a' : Ambient} {t : Transition}
    {limit : Gas} (hm : a.meter = .bounded limit) (h : p.execute m a = .ok (t, a')) :
    (settledMeter t a'.meter).consumed ≤ limit := by
  obtain ⟨hmeter, hreport⟩ := Processor.execute_within hm h
  exact UInt64.le_iff_toNat_le.2
    ((toNat_consumed_settledMeter_le t a'.meter).trans (Nat.max_le.2 ⟨hmeter, hreport⟩))

/-! ### Whole blocks -/

/-- The gas that transactions declare together, in numbers without bound. -/
def declaredTotal (ts : List Transaction) : Nat := (ts.map (·.gasLimit.toNat)).sum

/-- The gas that receipts charge together, in numbers without bound. -/
def chargedTotal (rs : List Receipt) : Nat := (rs.map (·.gasUsed.toNat)).sum

/-- A sum that stops at the largest amount of gas. -/
theorem toNat_foldl_addGasCapped {α : Type} (gas : α → Gas) (l : List α) (start : Gas) :
    (l.foldl (fun sum x => addGasCapped sum (gas x)) start).toNat
      = min (start.toNat + (l.map fun x => (gas x).toNat).sum) maxGas.toNat := by
  induction l generalizing start with
  | nil =>
    have hle := toNat_le_maxGas start
    simp only [List.foldl_nil, List.map_nil, List.sum_nil]
    omega
  | cons x l ih =>
    rw [List.foldl_cons, ih, toNat_addGasCapped, List.map_cons, List.sum_cons]
    omega

theorem toNat_declaredGas (ts : List Transaction) :
    (declaredGas ts).toNat = min (declaredTotal ts) maxGas.toNat := by
  unfold declaredGas declaredTotal
  rw [toNat_foldl_addGasCapped]
  congr 1
  exact Nat.zero_add _

theorem toNat_countGas_zero (rs : List Receipt) :
    (countGas 0 rs).toNat = min (chargedTotal rs) maxGas.toNat := by
  unfold countGas chargedTotal
  rw [toNat_foldl_addGasCapped]
  congr 1
  exact Nat.zero_add _

/-- **Transactions one after another** are charged no more than each of them declares. -/
theorem Course.charges {p : Processor} {h : Header} {n : Nat} {s s' : Store} {ps : List Prepared}
    {rs : List Receipt} {es : List Event} (hc : Course p h n s ps rs es s')
    {ts : List Transaction} (hts : List.Forall₂ Prepared.Of ts ps) :
    List.Forall₂ (fun r t => r.gasUsed ≤ t.gasLimit) rs ts := by
  induction hc generalizing ts with
  | nil =>
    cases hts
    exact .nil
  | cons head _ ih =>
    cases hts with
    | cons hof htail =>
      cases hof
      exact .cons (execute_charge rfl head) (ih htail)

/-- What a block that is executed to its end comes to. -/
theorem executeWith_charges {p : Processor} {b : Block} {s s' : Store} {e : BlockExecution}
    (hr : executeWith (.ofProcessor p) b s = .ok (.ok e, s')) :
    declaredGas b.transactions ≤ b.header.gasLimit ∧
      List.Forall₂ (fun r t => r.gasUsed ≤ t.gasLimit) e.receipts b.transactions ∧
      e.gasUsed = countGas 0 e.receipts := by
  obtain ⟨ps, rs, es, hp, hcourse, rfl⟩ := executeWith_eq_ok_iff.1 hr
  obtain ⟨-, hts, hdeclared⟩ := prepare_eq_ok_iff.1 hp
  exact ⟨hdeclared, hcourse.charges hts, rfl⟩

/-- Receipts within what is declared are so together. -/
theorem chargedTotal_le {rs : List Receipt} {ts : List Transaction}
    (h : List.Forall₂ (fun r t => r.gasUsed ≤ t.gasLimit) rs ts) :
    chargedTotal rs ≤ declaredTotal ts := by
  unfold chargedTotal declaredTotal
  refine List.Forall₂.sum_le_sum (List.forall₂_map_left_iff.2 (List.forall₂_map_right_iff.2 ?_))
  exact h.imp fun _ _ => UInt64.le_iff_toNat_le.1

/-- **A block stays within its gas limit exactly if what it declares can be counted**, as it
always can under a limit below the largest amount of gas: then the receipts come to what the
block reports, and neither they nor what is declared goes beyond the limit. -/
theorem charged_within_limit {p : Processor} {b : Block} {s s' : Store} {e : BlockExecution}
    (h : executeWith (.ofProcessor p) b s = .ok (.ok e, s')) :
    (declaredTotal b.transactions ≤ maxGas.toNat ↔
      chargedTotal e.receipts = e.gasUsed.toNat ∧
        chargedTotal e.receipts ≤ b.header.gasLimit.toNat ∧
        declaredTotal b.transactions ≤ b.header.gasLimit.toNat) ∧
    (b.header.gasLimit ≠ maxGas → declaredTotal b.transactions ≤ maxGas.toNat) := by
  obtain ⟨hdeclared, hall, hgas⟩ := executeWith_charges h
  have hcharged := chargedTotal_le hall
  have hlimit := toNat_le_maxGas b.header.gasLimit
  have hmin := toNat_declaredGas b.transactions
  have hle := UInt64.le_iff_toNat_le.1 hdeclared
  have hused : e.gasUsed.toNat = min (chargedTotal e.receipts) maxGas.toNat := by
    rw [hgas, toNat_countGas_zero]
  refine ⟨⟨fun hfit => ?_, fun ⟨_, _, hfit⟩ => hfit.trans hlimit⟩, fun hne => ?_⟩
  · omega
  · have hlt : b.header.gasLimit.toNat ≠ maxGas.toNat := fun he => hne (UInt64.toNat_inj.1 he)
    omega

end BlockExecution

/-! ### A block that burns its gas -/

/-- The key of a transaction is the key of its signature. -/
theorem Transaction.recover_eq_ok {t : Transaction} {σ : Signature} {key : Secp256k1.Point}
    (hs : t.signature = some σ)
    (hk : Recoverable.recover? t.signingHash.toBytes σ.toCompact = some key) :
    t.recover = .ok key := by
  simp only [recover, hs, hk]

theorem Transaction.isSigned_of_recover {t : Transaction} {key : Secp256k1.Point}
    (h : t.recover = .ok key) : t.isSigned = true := by
  simp [isSigned, h]

/-- A sealed block is well formed if its transactions are signed. -/
theorem Block.isValid_sealed (h : Header) {ts : List Transaction}
    (hs : ∀ t ∈ ts, t.isSigned = true) : (Block.sealed h ts).isValid = true := by
  simpa [isValid, Block.sealed] using hs

/-- The message of a signed transaction to a recipient. -/
theorem Message.ofTransaction_eq_ok {t : Transaction} {key : Secp256k1.Point}
    {recipient : Address} (hk : t.recover = .ok key) (hr : t.recipient = some recipient) :
    Message.ofTransaction t
      = .ok (.invoke (.ofPublicKey key) recipient t.value t.data t.gasLimit) := by
  unfold Message.ofTransaction Transaction.sender
  rw [hk, hr]
  rfl

/-- A frame that fails for a cause that burns gas has none left. -/
theorem settle_burning {mark : View.Mark} {e : LedgerError} {m : Machine} {gas : Meter}
    (he : e.burnsGas = true) (hg : m.gas.burn "exhausted" = .ok gas) :
    settle mark (.error (.error e) m) = .ok (.refused gas.remaining e,
      { m.world with
        view := m.world.view.revertTo mark
        ledger := m.world.ledger.record m.gas.remaining "exhausted" }) := by
  simp only [settle, he, if_true, hg]

/-- A byte that is no instruction ends a run at once. -/
theorem Exec.run_invalid (env : Setting) {m : Machine} {byte : UInt8} (steps : Nat)
    (hcode : m.frame.code[m.frame.pc]? = some byte)
    (hop : (Opcode.ofByte byte).cost? env.params.instructions = none) :
    Exec.run env (steps + 1) m = .error (.error (.invalidOpcode byte)) m := by
  simp only [Exec.run, bind, EStateM.bind, Exec.inspect, hcode, Exec.step, hop]
  rfl

theorem Processor.attempt_of_run {p : Processor} {m : Message} {header : Header} {store : Store}
    {view : View} {g : Grant} {r : FrameResult} {w : World}
    (h : p.engine.run (.ofHeader header m.sender g.gas) store m g.gas ⟨view.resync, g.inner⟩
      = .ok (r, w)) :
    p.attempt m header store view g = classify { g with inner := w.ledger } r w.view := by
  simp only [attempt, h]

/-- A run that ends in an error is reported with the figures of its grant. -/
theorem Processor.classify_of_error {g : Grant} {r : FrameResult} {view : View}
    {figures : Reconciliation} {e : LedgerError} (hf : g.reconcile r.gasRemaining = .ok figures)
    (he : r.error = some e) :
    classify g r view = .ok (.error (.ofError e r.output figures.total)) := by
  simp only [classify, hf, he]

namespace BlockExecution

namespace BurntBlock

/-- The account that is called. Its code is a byte that is no instruction. -/
def target : Address := ⟨0x0202020202020202020202020202020202020202⟩

/-- The called account, with its code. -/
def store : Store := (Store.ofAccounts [(target, ⟨1, 0, .digest [0xfe]⟩)]).putCode target [0xfe]

/-- Both numbers of the signature. The signed digest is this number taken from the order
of the curve, so that the key is the sum of the generator and the point of the signature. -/
def number : Nat := 0x6e6537c09ed28b8d9878a74bf1104ae8d98194ea7c9220b964961dff08bdc6ab

/-- Calls the account on the largest amount of gas. -/
def spender : Transaction where
  nonce := 1
  gasLimit := maxGas
  recipient := some target
  value := 0
  data := []
  signature := some ⟨⟨BitVec.ofNat 256 number⟩, ⟨BitVec.ofNat 256 number⟩, 0⟩

/-- The transaction so many times, under the largest limit. -/
def block (n : Nat) : Block :=
  .sealed { Header.genesis with gasLimit := maxGas } (List.replicate n spender)

theorem digest_spender :
    Bytes.ofBigEndian spender.signingHash.toBytes = Secp256k1.order - number := by
  decide +kernel

/-- The sum of the generator and the point of the signature. -/
def key : Secp256k1.Point := .affine
  18910672544808102953682451694758584499327285000464056458539665903995916159096
  72136750870367532594258230188772482439538686096870303419743880144754771869439

theorem recover?_number {digest : Bytes}
    (h : Bytes.ofBigEndian digest = Secp256k1.order - number) :
    Recoverable.recover? digest ⟨number, number, 0⟩ = some key := by
  unfold Recoverable.recover?
  rw [h]
  decide +kernel

theorem recover_spender : spender.recover = .ok key := by
  have hcompact : Signature.toCompact ⟨⟨BitVec.ofNat 256 number⟩, ⟨BitVec.ofNat 256 number⟩, 0⟩
      = ⟨number, number, 0⟩ := by decide
  exact Transaction.recover_eq_ok rfl (by rw [hcompact]; exact recover?_number digest_spender)

/-- A call of the account. -/
def message (payer : Address) : Message := .invoke payer target 0 [] maxGas

theorem ofTransaction_spender :
    Message.ofTransaction spender = .ok (message (.ofPublicKey key)) :=
  Message.ofTransaction_eq_ok recover_spender rfl

theorem codeAt_target : store.codeAt target = [0xfe] := by
  unfold store
  rw [Store.codeAt_putCode, if_pos rfl]

/-- The frame pays for being entered, and stops at the first byte of the code. -/
theorem enterCall_burns (context : Context) (payer : Address) (steps : Nat) {m : Machine}
    {gas : Meter} (hg : m.gas.consume Params.standard.effects.call "call" = .ok gas)
    (hcode : m.world.view.codeAt store target = [0xfe]) :
    Exec.enterCall ⟨.standard, context, store⟩ (Exec.run ⟨.standard, context, store⟩ (steps + 1))
      ⟨payer, target, [], maxGas, 0, 0⟩ m
        = .error (.error (.invalidOpcode 0xfe))
          { m.charged gas Params.standard.effects.call "call" with
            frame := m.frame.load [0xfe] } := by
  have hfirst : (m.frame.load [0xfe]).code[(m.frame.load [0xfe]).pc]? = some 0xfe := rfl
  have hop : (Opcode.ofByte 0xfe).cost? InstructionCosts.standard = none := by decide
  rw [Exec.enterCall_eq]
  simp only [bind, EStateM.bind, Exec.charge, Exec.bring, Exec.runCode, Exec.inspect, hg]
  rw [if_neg (by decide)]
  dsimp only [pure, EStateM.pure]
  rw [show View.codeAt store m.world.view target = _ from hcode]
  exact Exec.run_invalid ⟨.standard, context, store⟩ (m := ⟨_, _, m.frame.load [0xfe]⟩) steps
    hfirst hop

/-- A call on the largest amount of gas takes all of it. -/
theorem callIn_burns (context : Context) (hm : context.mayTransfer = View.canTransfer)
    (txHash : Hash) (payer : Address) (steps : Nat) :
    ∃ w, callIn (steps + 1) ⟨.standard, context, store⟩ ⟨payer, target, [], maxGas, 0, 0⟩
        ⟨(View.fresh.tagged txHash).resync, .untracked⟩
          = .ok (.refused 0 (.invalidOpcode 0xfe), w) ∧ w.ledger.consumed = maxGas := by
  obtain ⟨gas, gas', paid, burnt, left, nothing⟩ : ∃ gas gas',
      (Meter.bounded maxGas).consume Params.standard.effects.call "call" = .ok gas ∧
        gas.burn "exhausted" = .ok gas' ∧ gas.remaining = maxGas - 700 ∧ gas'.remaining = 0 :=
    ⟨_, _, rfl, rfl, rfl, rfl⟩
  have admitted : ∀ env w, env.params = .standard → env.context.mayTransfer = View.canTransfer →
      refusal? env w payer 0 0 = none := by
    intro env w hp ht
    simp [refusal?, ht, View.canTransfer]
  have counted : addGasCapped (addGasCapped 0 Params.standard.effects.call) (maxGas - 700)
      = maxGas := by decide
  unfold callIn callWith
  rw [admitted _ _ rfl hm]
  dsimp only
  rw [enterCall_burns context payer steps (by exact paid) (by exact codeAt_target),
    settle_burning rfl burnt, nothing]
  refine ⟨_, rfl, ?_⟩
  simp only [Machine.charged, Meter.record, left]
  exact counted

/-- The transition fails, and reports all that was granted. -/
theorem attemptOf_burns (payer : Address) (header : Header) (txBytes : Bytes) :
    (Processor.ofParams .standard).attemptOf (message payer)
        ⟨.bounded maxGas, header, txBytes, store⟩
      = .ok (.error (.fatal (.invalidOpcode 0xfe) maxGas)) := by
  have hsteps : ∀ longest, ∃ steps, stepsFor .standard maxGas longest = steps + 1 := fun longest =>
    Nat.exists_eq_succ_of_ne_zero (Nat.mul_pos (by decide)
      (Nat.mul_pos (Nat.succ_pos _) (Nat.succ_pos _))).ne'
  have granted : Grant.ofMeter (.bounded maxGas) (message payer).gasLimit
      = ⟨.bounded maxGas, 0, maxGas, .untracked⟩ := rfl
  let context := Context.ofHeader header payer maxGas
  let w : World := ⟨(View.fresh.tagged (Hash.digest txBytes)).resync, .untracked⟩
  obtain ⟨steps, hs⟩ := hsteps (longestCode ⟨.standard, context, store⟩ w [])
  obtain ⟨w', hr, hw⟩ := callIn_burns context rfl (Hash.digest txBytes) payer steps
  have hrun : (Processor.ofParams .standard).engine.run context store (message payer) maxGas w
      = .ok (.refused 0 (.invalidOpcode 0xfe), w') := by
    simp only [Processor.ofParams, Engine.machine, Engine.run, message, Call.perform]
    rw [hs]
    exact hr
  have figures : (⟨.bounded maxGas, 0, maxGas, w'.ledger⟩ : Grant).reconcile 0
      = .ok ⟨maxGas, maxGas, false⟩ := by
    have htotal : (⟨.bounded maxGas, 0, maxGas, w'.ledger⟩ : Grant).totalWith maxGas = maxGas := by
      show addGasCapped 0 maxGas = maxGas
      decide
    simp [Grant.reconcile, hw, htotal]
  unfold Processor.attemptOf
  dsimp only
  rw [granted, Processor.attempt_of_run (m := message payer)
    (g := ⟨.bounded maxGas, 0, maxGas, .untracked⟩) hrun]
  exact Processor.classify_of_error (r := .refused 0 (.invalidOpcode 0xfe)) figures rfl

/-- So a transaction is charged all that it declares, and the store stays as it is. -/
theorem execute_burns (payer : Address) (header : Header) (txBytes : Bytes) :
    ∃ t, (Processor.ofParams .standard).execute (message payer)
        ⟨.bounded maxGas, header, txBytes, store⟩
          = .ok (t, ⟨.bounded maxGas, header, txBytes, store⟩) ∧
      (settledMeter t (.bounded maxGas)).consumed = maxGas := by
  refine ⟨.failed (.fatal (.invalidOpcode 0xfe) maxGas), ?_, by decide⟩
  have hburns := attemptOf_burns payer header txBytes
  unfold Processor.attemptOf at hburns
  simp only [Processor.execute, hburns, bind, Except.bind]

/-! The block is well formed, and its transactions are carried out one like the other. -/

theorem isValid_block (n : Nat) : (block n).isValid = true := by
  refine Block.isValid_sealed _ fun t ht => ?_
  rw [List.eq_of_mem_replicate ht]
  exact Transaction.isSigned_of_recover recover_spender

/-- The transaction, ready to be executed. -/
def ready (payer : Address) : Prepared := ⟨spender, message payer, spender.encode⟩

theorem prepare_block (p : Processor) (n : Nat) :
    prepare (.ofProcessor p) (block n)
      = .ok (List.replicate n (ready (.ofPublicKey key))) := by
  have hready : List.Forall₂ Prepared.Of (List.replicate n spender)
      (List.replicate n (ready (.ofPublicKey key))) := by
    induction n with
    | zero => exact .nil
    | succ n ih => exact .cons (.intro ofTransaction_spender) ih
  have hfits : declaredGas (block n).transactions ≤ (block n).header.gasLimit :=
    UInt64.le_iff_toNat_le.2 (toNat_le_maxGas _)
  exact prepare_eq_ok_iff.2 ⟨isValid_block n, hready, hfits⟩

/-- Every transaction adds a receipt for the largest amount of gas. -/
theorem course_spenders (payer : Address) (h : Header) (n place : Nat) : ∃ rs es,
    Course (.ofParams .standard) h place store (List.replicate n (ready payer)) rs es store ∧
      chargedTotal rs = n * maxGas.toNat := by
  induction n generalizing place with
  | zero => exact ⟨[], [], .nil, by simp [chargedTotal]⟩
  | succ n ih =>
    obtain ⟨t, ht, hcharge⟩ := execute_burns payer h spender.encode
    obtain ⟨rs, es, hrest, htotal⟩ := ih (place + 1)
    refine ⟨_, _, .cons ht hrest, ?_⟩
    rw [chargedTotal, List.map_cons, List.sum_cons]
    show (settledMeter t (.bounded maxGas)).consumed.toNat + chargedTotal rs = _
    rw [hcharge, htotal, Nat.succ_mul, Nat.add_comm]

/-- The block is executed to its end, and every transaction charged for the largest
amount of gas. -/
theorem execute_block (n : Nat) : ∃ e, execute .standard (block n) store = .ok (.ok e, store) ∧
    chargedTotal e.receipts = n * maxGas.toNat := by
  obtain ⟨rs, es, hcourse, htotal⟩ := course_spenders (.ofPublicKey key) (block n).header n 0
  exact ⟨_, executeWith_eq_ok_iff.2 ⟨_, rs, es, prepare_block _ n, hcourse, rfl⟩, htotal⟩

end BurntBlock

open BurntBlock in
/-- One transaction under the largest limit: what it declares can be counted. -/
theorem charged_within_limit_burnt : ∃ e,
    executeWith (.ofProcessor (.ofParams .standard)) (block 1) store = .ok (.ok e, store) ∧
      declaredTotal (block 1).transactions = maxGas.toNat ∧
      chargedTotal e.receipts = maxGas.toNat ∧
      e.gasUsed = maxGas := by
  obtain ⟨e, he, htotal⟩ := execute_block 1
  have hdeclared : declaredTotal (block 1).transactions = maxGas.toNat := by
    simp [block, Block.sealed, declaredTotal, spender]
  have h := (charged_within_limit he).1.1 hdeclared.le
  refine ⟨e, he, hdeclared, by simpa using htotal, UInt64.toNat_inj.1 ?_⟩
  rw [← h.1, htotal, Nat.one_mul]

open BurntBlock in
/-- **Two transactions under the largest limit**, each of which declares and burns that
much: the block is executed, reports the gas of one of them, and is charged twice its
limit. -/
theorem twice_exceeds_limit : ∃ e,
    execute .standard (block 2) store = .ok (.ok e, store) ∧
      (block 2).header.gasLimit = maxGas ∧
      declaredTotal (block 2).transactions = 2 * maxGas.toNat ∧
      chargedTotal e.receipts = 2 * maxGas.toNat ∧
      e.gasUsed = maxGas := by
  obtain ⟨e, he, htotal⟩ := execute_block 2
  obtain ⟨-, -, hgas⟩ := executeWith_charges he
  refine ⟨e, he, rfl, ?_, htotal, UInt64.toNat_inj.1 ?_⟩
  · simp [block, Block.sealed, declaredTotal, spender]
    omega
  · rw [hgas, toNat_countGas_zero, htotal]
    omega

end BlockExecution
end MeteredLedger
