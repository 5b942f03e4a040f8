import MeteredLedger.Proofs.Failure
import MeteredLedger.Proofs.Gas.BlockLimit

/-!
# Blocks without their failures

A transaction that fails leaves the store as it was and no events, so the transactions
after it are carried out as if it had not been there. They are so even in another block: of a
header, code sees neither the root of the transactions nor how many there are before it
(`Processor.execute_withHeader`). A block that keeps only what has succeeded ends in the same
store therefore, and with the same receipts but for their places (`failures_invisible`).
-/

namespace MeteredLedger

/-- Once the attempt is over, the header is only handed on. -/
theorem Processor.conclude_withHeader (h : Header) (a : Ambient)
    (answer : Except Outcome Finished) : conclude { a with header := h } answer
      = (conclude a answer).map fun e => (e.1, { e.2 with header := h }) := by
  cases answer with
  | error outcome => rfl
  | ok run =>
    unfold conclude
    dsimp only
    cases a.meter.consume run.figures.consumed "vm_execution" with
    | error stop => cases stop <;> rfl
    | ok meter =>
      dsimp only
      cases run.view.publish true a.store <;> rfl

/-- **A transition sees of a header what its context shows**, whatever else is in it. -/
theorem Processor.execute_withHeader {p : Processor} {m : Message} {a a' : Ambient}
    {t : Transition} {h : Header} (hc : Context.ofHeader h = Context.ofHeader a.header)
    (hx : p.execute m a = .ok (t, a')) :
    p.execute m { a with header := h } = .ok (t, { a' with header := h }) := by
  have hattempt : p.attemptOf m { a with header := h } = p.attemptOf m a := by
    unfold attemptOf attempt
    dsimp only
    rw [hc]
  rw [execute_eq_conclude] at hx ⊢
  rw [hattempt]
  cases ha : p.attemptOf m a with
  | error f =>
    rw [ha] at hx
    cases hx
  | ok answer =>
    rw [ha] at hx
    have hconclude : conclude a answer = .ok (t, a') := hx
    show conclude { a with header := h } answer = _
    rw [conclude_withHeader, hconclude]
    rfl

namespace BlockExecution

/-- The transactions that have succeeded, by their receipts. -/
def keepSucceeded (ts : List Transaction) (rs : List Receipt) : List Transaction :=
  ((ts.zip rs).filter (·.2.succeeded)).map Prod.fst

/-- Receipts at other places: one after another, from a place on. -/
def renumber (place : Nat) (rs : List Receipt) : List Receipt :=
  rs.mapIdx fun i r => { r with transactionIndex := UInt64.ofNat (place + i) }

theorem renumber_cons (place : Nat) (r : Receipt) (rs : List Receipt) :
    renumber place (r :: rs)
      = { r with transactionIndex := UInt64.ofNat place } :: renumber (place + 1) rs := by
  simp [renumber, List.mapIdx_cons, Nat.add_comm, Nat.add_left_comm]

theorem keepSucceeded_cons (t : Transaction) (ts : List Transaction) (r : Receipt)
    (rs : List Receipt) : keepSucceeded (t :: ts) (r :: rs)
      = if r.succeeded then t :: keepSucceeded ts rs else keepSucceeded ts rs := by
  unfold keepSucceeded
  rw [List.zip_cons_cons, List.filter_cons]
  split_ifs <;> rfl

theorem keepSucceeded_sublist (ts : List Transaction) (rs : List Receipt) :
    (keepSucceeded ts rs).Sublist ts := by
  induction ts generalizing rs with
  | nil => exact .slnil
  | cons t ts ih =>
    cases rs with
    | nil => exact List.nil_sublist _
    | cons r rs =>
      rw [keepSucceeded_cons]
      split_ifs
      · exact (ih rs).cons_cons t
      · exact (ih rs).cons t

@[simp] theorem succeeded_receipt (h : Header) (place : Nat) (q : Prepared) (t : Transition)
    (gas : Gas) : (receipt h place q t gas).succeeded = t.isSuccess := by
  unfold receipt Receipt.succeeded
  cases t.isSuccess <;> rfl

variable {p : Processor}

/-- **The transactions that have succeeded have the same course by themselves**, under any header
with the same context and number. -/
theorem Course.without_failures (he : p.engine.KeepsWritable) {h h' : Header}
    (hc : Context.ofHeader h' = Context.ofHeader h) (hn : h'.number = h.number) {n : Nat}
    {s s' : Store} {ps : List Prepared} {rs : List Receipt} {es : List Event}
    (hcourse : Course p h n s ps rs es s') {ts : List Transaction}
    (hts : List.Forall₂ Prepared.Of ts ps) (place : Nat) :
    ∃ ps', List.Forall₂ Prepared.Of (keepSucceeded ts rs) ps' ∧
      Course p h' place s ps' (renumber place (rs.filter (·.succeeded))) es s' := by
  induction hcourse generalizing ts place with
  | nil => exact ⟨[], by cases hts; exact .nil, .nil⟩
  | @cons n s s' q qs t a rs es head tail ih =>
    cases hts with
    | @cons x _ xs _ hx hxs =>
      rw [keepSucceeded_cons, List.filter_cons, succeeded_receipt]
      cases ht : t.isSuccess with
      | false =>
        -- the next one finds the store that this one has found
        obtain ⟨rfl, hnone⟩ := Processor.execute_of_failure he head ht
        rw [hnone]
        exact ih hxs place
      | true =>
        obtain ⟨ps', hps', hrest⟩ := ih hxs (place + 1)
        refine ⟨q :: ps', .cons hx hps', ?_⟩
        have hsame : renumber place (receipt h n q t (settledMeter t a.meter).consumed ::
            rs.filter (·.succeeded))
              = receipt h' place q t (settledMeter t a.meter).consumed ::
                renumber (place + 1) (rs.filter (·.succeeded)) := by
          rw [renumber_cons, receipt, receipt, hn]
        rw [if_pos rfl, hsame]
        exact .cons (a := { a with header := h' }) (Processor.execute_withHeader hc head) hrest

/-- Fewer transactions declare no more gas. -/
theorem declaredGas_le_of_sublist {ts us : List Transaction} (h : ts.Sublist us) :
    declaredGas ts ≤ declaredGas us := by
  have hle : declaredTotal ts ≤ declaredTotal us :=
    (h.map fun t : Transaction => t.gasLimit.toNat).sum_le_sum fun _ _ => Nat.zero_le _
  rw [UInt64.le_iff_toNat_le, toNat_declaredGas, toNat_declaredGas]
  omega

/-- A block that keeps only some of its transactions passes the checks if all of it does. -/
theorem prepare_sealed_of_sublist {b : Block} {ps ps' : List Prepared} {ts : List Transaction}
    (h : prepare (.ofProcessor p) b = .ok ps) (hsub : ts.Sublist b.transactions)
    (hps' : List.Forall₂ Prepared.Of ts ps') :
    prepare (.ofProcessor p) (.sealed b.header ts) = .ok ps' := by
  obtain ⟨hvalid, -, hdeclared⟩ := prepare_eq_ok_iff.1 h
  rw [Block.isValid, Bool.and_eq_true, List.all_eq_true] at hvalid
  have hsigned := Block.isValid_sealed b.header fun t ht => hvalid.2 t (hsub.subset ht)
  exact prepare_eq_ok_iff.2
    ⟨hsigned, hps', UInt64.le_trans (declaredGas_le_of_sublist hsub) hdeclared⟩

/-- **Failures are invisible.** A transition that fails leaves its meter, its store and everything
else around it as it was, and no events. So a block that is executed can do without the
transactions that have failed: the others by themselves, under the same header but for the root,
are executed as well, and end in the same store with the same events and, but for their places,
the same receipts. -/
theorem failures_invisible :
    (∀ params, (Engine.machine params).KeepsWritable) ∧
    (∀ script : Script, script.engine.KeepsWritable) ∧
    ∀ p : Processor, p.engine.KeepsWritable →
      (∀ m a t a', p.execute m a = .ok (t, a') → t.isSuccess = false →
        a' = a ∧ t.events = []) ∧
      ∀ b s e s', executeWith (.ofProcessor p) b s = .ok (.ok e, s') →
        ∃ e', executeWith (.ofProcessor p)
            (.sealed b.header (keepSucceeded b.transactions e.receipts)) s
              = .ok (.ok e', s') ∧
          e'.stateRoot = e.stateRoot ∧ e'.events = e.events ∧
          e'.receipts = renumber 0 (e.receipts.filter (·.succeeded)) := by
  refine ⟨Engine.keepsWritable_machine, Script.keepsWritable_engine, fun p he => ⟨?_, ?_⟩⟩
  · intro m a t a' hx ht
    exact Processor.execute_of_failure he hx ht
  · intro b s e s' hx
    obtain ⟨ps, rs, es, hp, hcourse, rfl⟩ := executeWith_eq_ok_iff.1 hx
    obtain ⟨-, hts, -⟩ := prepare_eq_ok_iff.1 hp
    have hcontext : ∀ ts, Context.ofHeader (Block.sealed b.header ts).header
        = Context.ofHeader b.header := fun _ => rfl
    obtain ⟨ps', hps', hcourse'⟩ := hcourse.without_failures he
      (hcontext (keepSucceeded b.transactions rs)) rfl hts 0
    have hp' := prepare_sealed_of_sublist hp (keepSucceeded_sublist _ _) hps'
    exact ⟨_, executeWith_eq_ok_iff.2 ⟨ps', _, es, hp', hcourse', rfl⟩, rfl, rfl, rfl⟩

/-! ### A block of which one transaction succeeds -/

namespace OnceOnly

open BurntBlock (target block spender key ready prepare_block)

/-- Code that succeeds once: it writes a slot, and jumps to where it may not if that is
already written. -/
def code : Bytes := [0x60, 0, 0x54, 0x60, 0, 0x57, 0x60, 1, 0x60, 0, 0x55]

/-- The called account has the code. -/
def store : Store := (Store.ofAccounts [(target, ⟨1, 0, .digest code⟩)]).putCode target code

/-- Whoever has signed the transaction. -/
def payer : Address := ⟨0x6d98d2959490c51b541944020c44d74a73af0551⟩

theorem ofPublicKey_key : Address.ofPublicKey key = payer := by
  decide +kernel

/-- The first transaction succeeds, the other two fail. -/
theorem execute_block : ∃ e s', execute .standard (block 3) store = .ok (.ok e, s') ∧
    e.receipts.map (·.succeeded) = [true, false, false] := by
  have hread : (executeAll (.ofProcessor (.ofParams .standard)) (block 3).header
      (List.replicate 3 (ready payer)) ⟨[], 0, [], store⟩).toOption.bind
        (fun answer => answer.1.toOption.map fun done => done.receipts.reverse.map (·.succeeded))
      = some [true, false, false] := by
    decide +kernel
  obtain ⟨⟨answer, s'⟩, hall, hanswer⟩ := exists_of_read hread
  cases answer with
  | error e => cases hanswer
  | ok done =>
    obtain ⟨rs, es, hcourse, rfl⟩ := executeAll_eq_ok_iff.1 hall
    have hprepared := prepare_block (.ofParams .standard) 3
    rw [ofPublicKey_key] at hprepared
    refine ⟨⟨rs, countGas 0 rs, es, s'.root⟩, s', ?_, ?_⟩
    · exact executeWith_eq_ok_iff.2 ⟨_, rs, es, hprepared, hcourse, rfl⟩
    · simpa [Except.toOption] using hanswer

/-- Gives away more than there is. -/
def denied : Message := .invoke payer target 1 [] 1000

/-- A transaction around it, before its first charge. -/
def ambient : Ambient := ⟨.bounded 1000, .genesis, [], store⟩

end OnceOnly

open OnceOnly BurntBlock in
/-- Of three transactions one is left, which by itself comes to the same; and a transition that is
denied leaves everything as it was. -/
theorem failures_invisible_once :
    (∃ e s' e', execute .standard (block 3) OnceOnly.store = .ok (.ok e, s') ∧
      e.receipts.map (·.succeeded) = [true, false, false] ∧
      execute .standard (.sealed (block 3).header [spender]) OnceOnly.store = .ok (.ok e', s') ∧
      e'.stateRoot = e.stateRoot ∧ e'.events = e.events ∧
      e'.receipts = renumber 0 (e.receipts.filter (·.succeeded))) ∧
    ∃ t a', (Processor.ofParams .standard).execute denied ambient = .ok (t, a') ∧
      t.isSuccess = false ∧ a' = ambient ∧ t.events = [] := by
  obtain ⟨hfailed, hblock⟩ :=
    failures_invisible.2.2 (.ofParams .standard) (Engine.keepsWritable_machine .standard)
  constructor
  · obtain ⟨e, s', hx, hstatus⟩ := OnceOnly.execute_block
    obtain ⟨e', hx', hroot, hevents, hreceipts⟩ := hblock _ _ _ _ hx
    have hkept : keepSucceeded (block 3).transactions e.receipts = [spender] := by
      obtain ⟨r₁, r₂, r₃, hrs⟩ := List.length_eq_three.1
        (show e.receipts.length = 3 by simpa using congrArg List.length hstatus)
      simp only [hrs, List.map_cons, List.map_nil, List.cons.injEq, and_true] at hstatus
      simp [hrs, block, Block.sealed, List.replicate_succ, keepSucceeded, hstatus]
    rw [hkept] at hx'
    exact ⟨e, s', e', hx, hstatus, hx', hroot, hevents, hreceipts⟩
  · have hread : ((Processor.ofParams .standard).execute denied ambient).toOption.bind
        (fun answer => some answer.1.isSuccess) = some false := by
      decide +kernel
    obtain ⟨⟨t, a'⟩, hx, ht⟩ := exists_of_read hread
    have ht : t.isSuccess = false := Option.some.inj ht
    obtain ⟨hsame, hnone⟩ := hfailed _ _ _ _ hx ht
    exact ⟨t, a', hx, ht, hsame, hnone⟩

end BlockExecution

end MeteredLedger
