import MeteredLedger.Proofs.Block.Composition
import MeteredLedger.Proofs.Encoding
import MeteredLedger.Proofs.Ledger.Occupants
import MeteredLedger.Proofs.Ledger.Writers
import MeteredLedger.Proofs.Simulation

/-!
# Transactions that come again

The nonce of a transaction says how many transactions its signer has sent before, and nothing
compares it with anything. It goes into the hash, and no farther: a block can be issued again
with other nonces and other signatures by the same signers, and is executed alike
(`Accepted.reissued`). So a call that is signed once can be applied in any number of blocks
(`Replayed.applied_twice`).

What the nonces are meant for they do where they are what they say. If every transaction that is
applied carries the number of those that its signer has sent before it (`Counted`), then none
is applied twice: its bytes determine both the signer and the number
(`Counted.nodup_applied`). Of what has been sent, the account of the signer counts the
creations that were applied, and no calls (`Accepted.nonce_counts`).
-/

namespace MeteredLedger

/-! ### Transitions for another transaction -/

namespace Processor

variable {p : Processor}

/-- An attempt that is over is concluded alike for another transaction. -/
theorem conclude_attributed (a : Ambient) (txBytes : Bytes) {answer : Except Outcome Finished}
    (hw : ∀ run, answer = .ok run → run.view.isReadOnly = false) :
    conclude { a with txBytes } (answer.map (Finished.labelled ⟨.digest txBytes, false⟩))
      = (conclude a answer).map fun e =>
          (e.1.attributed (.digest txBytes), { e.2 with txBytes }) := by
  cases answer with
  | error outcome => rfl
  | ok run =>
    have hw := hw run rfl
    have hw' : (run.labelled ⟨.digest txBytes, false⟩).view.isReadOnly = false := rfl
    show conclude { a with txBytes } (.ok (run.labelled ⟨.digest txBytes, false⟩)) = _
    unfold conclude
    dsimp only
    rw [View.publish_of_writable hw, View.publish_of_writable hw']
    rw [show (run.labelled ⟨.digest txBytes, false⟩).figures = run.figures from rfl]
    cases a.meter.consume run.figures.consumed "vm_execution" with
    | error stop => cases stop <;> rfl
    | ok meter =>
      show _ = Except.ok (Transition.attributed _ (.succeeded _ _ _), _)
      rw [Transition.attributed_succeeded]
      rfl

/-- **A transition comes to the same for another transaction**: only its events are attributed
to that one. -/
theorem execute_attributed (he : p.engine.Blind) (m : Message) (a : Ambient) (txBytes : Bytes) :
    p.execute m { a with txBytes }
      = (p.execute m a).map fun e =>
          (e.1.attributed (.digest txBytes), { e.2 with txBytes }) := by
  have hattempt : p.attemptOf m { a with txBytes }
      = (p.attemptOf m a).map (Except.map (Finished.labelled ⟨.digest txBytes, false⟩)) := by
    unfold attemptOf
    rw [← attempt_labelled he]
    rfl
  rw [execute_eq_conclude, execute_eq_conclude, hattempt]
  cases ha : p.attemptOf m a with
  | error f => rfl
  | ok answer =>
    refine conclude_attributed a txBytes fun run hrun => ?_
    obtain ⟨w, hr, -, hview⟩ := attempt_eq_ok (ha.trans (congrArg Except.ok hrun))
    rw [hview]
    exact (he.keepsLabel hr).2

end Processor

/-! ### Blocks that are issued again -/

/-- **The transaction is issued again**: the same signer asks for the same in one that may have
another nonce and another signature. -/
def Transaction.Reissued (t t' : Transaction) : Prop :=
  ∃ m, Message.ofTransaction t = .ok m ∧ Message.ofTransaction t' = .ok m

/-- The block is issued again under the same header, which commits to its transactions anew. -/
structure Block.Reissued (b b' : Block) : Prop where
  header : b' = .sealed b.header b'.transactions
  transactions : List.Forall₂ Transaction.Reissued b.transactions b'.transactions

theorem Message.gasLimit_ofTransaction {t : Transaction} {m : Message}
    (h : ofTransaction t = .ok m) : m.gasLimit = t.gasLimit := by
  unfold ofTransaction at h
  split at h
  · cases h
  · split at h <;> cases h <;> rfl

namespace Transaction

variable {t t' : Transaction}

theorem Reissued.gasLimit (h : t.Reissued t') : t'.gasLimit = t.gasLimit := by
  obtain ⟨m, hm, hm'⟩ := h
  rw [← Message.gasLimit_ofTransaction hm, ← Message.gasLimit_ofTransaction hm']

/-- What has a message is signed. -/
theorem isSigned_of_message {m : Message} (h : Message.ofTransaction t = .ok m) :
    t.isSigned = true := by
  obtain ⟨hsender, -⟩ := Message.of_ofTransaction h
  unfold sender at hsender
  cases hkey : t.recover with
  | error e =>
    rw [hkey] at hsender
    cases hsender
  | ok key => exact isSigned_of_recover hkey

end Transaction

/-- The receipt without the hash of its transaction. -/
def Receipt.anonymous (r : Receipt) : Receipt := { r with transactionHash := .zero }

namespace BlockExecution

/-- **Two blocks have come to the same** but for the transactions that it is attributed to. -/
structure Alike (e e' : BlockExecution) : Prop where
  receipts : e'.receipts.map Receipt.anonymous = e.receipts.map Receipt.anonymous
  gasUsed : e'.gasUsed = e.gasUsed
  events : e'.events.map (Event.attributed .zero) = e.events.map (Event.attributed .zero)
  stateRoot : e'.stateRoot = e.stateRoot

theorem logs_attributed (txHash : Hash) (t : Transition) : (t.attributed txHash).logs = t.logs := by
  unfold Transition.logs Transition.attributed
  rw [List.filterMap_map]
  refine List.filterMap_congr fun e _ => ?_
  cases e <;> rfl

theorem attributed_attributed (txHash other : Hash) (e : Event) :
    (e.attributed other).attributed txHash = e.attributed txHash := by
  cases e <;> rfl

theorem countGas_anonymous (start : Gas) (rs : List Receipt) :
    countGas start (rs.map Receipt.anonymous) = countGas start rs := by
  unfold countGas
  rw [List.foldl_map]
  rfl

/-- The gas that is declared again is the same. -/
theorem declaredGas_reissued {ts ts' : List Transaction}
    (h : List.Forall₂ Transaction.Reissued ts ts') : declaredGas ts' = declaredGas ts := by
  have hgas : ts'.map (·.gasLimit) = ts.map (·.gasLimit) := by
    induction h with
    | nil => rfl
    | cons h _ ih => rw [List.map_cons, List.map_cons, h.gasLimit, ih]
  have hfold : ∀ ts : List Transaction,
      declaredGas ts = (ts.map (·.gasLimit)).foldl addGasCapped 0 := fun ts => by
    rw [List.foldl_map]
    rfl
  rw [hfold, hfold, hgas]

variable {p : Processor}

theorem isSigned_of_reissued {ts ts' : List Transaction}
    (h : List.Forall₂ Transaction.Reissued ts ts') : ∀ t ∈ ts', t.isSigned = true := by
  induction h with
  | nil => exact fun t ht => nomatch ht
  | cons h _ ih =>
    obtain ⟨m, -, hm⟩ := h
    exact List.forall_mem_cons.2 ⟨Transaction.isSigned_of_message hm, ih⟩

/-- One transaction that is issued again is carried out alike. -/
theorem execute_reissued (he : p.engine.Blind) {h h' : Header}
    (hc : Context.ofHeader h' = Context.ofHeader h) {t t' : Transaction} {q : Prepared} {s : Store}
    {x : Transition} {a : Ambient} (hq : Prepared.Of t q) (hr : t.Reissued t')
    (hx : p.execute q.message ⟨.bounded q.transaction.gasLimit, h, q.bytes, s⟩ = .ok (x, a)) :
    ∃ q', Prepared.Of t' q' ∧ q'.message = q.message ∧
      p.execute q'.message ⟨.bounded q'.transaction.gasLimit, h', q'.bytes, s⟩
        = .ok (x.attributed (.digest q'.bytes), { a with header := h', txBytes := q'.bytes }) := by
  have hgas := hr.gasLimit
  obtain ⟨m, hm, hm'⟩ := hr
  cases hq with
  | intro hm₁ =>
    obtain rfl := Except.ok.inj (hm.symm.trans hm₁)
    refine ⟨⟨t', m, t'.encode⟩, .intro hm', rfl, ?_⟩
    -- the same message, under the other header and then for the other transaction
    have hheader := Processor.execute_withHeader hc hx
    have hbytes := Processor.execute_attributed he m ⟨.bounded t.gasLimit, h', t.encode, s⟩
      t'.encode
    rw [hheader] at hbytes
    rw [hgas]
    exact hbytes

/-- The receipts of transitions that differ in the transaction only. -/
theorem anonymous_receipt {h h' : Header} (hn : h'.number = h.number) {q q' : Prepared}
    (hm : q'.message = q.message) (n : Nat) (x : Transition) (txHash : Hash) (gas : Gas) :
    (receipt h' n q' (x.attributed txHash) gas).anonymous = (receipt h n q x gas).anonymous := by
  unfold receipt Receipt.anonymous
  dsimp only
  rw [hm, hn, logs_attributed]
  rfl

/-- **Transactions that are issued again have the same course**, under any header with the same
context and number. -/
theorem Course.reissued (he : p.engine.Blind) {h h' : Header}
    (hc : Context.ofHeader h' = Context.ofHeader h) (hn : h'.number = h.number) {n : Nat}
    {s s' : Store} {ps : List Prepared} {rs : List Receipt} {es : List Event}
    (hcourse : Course p h n s ps rs es s') {ts ts' : List Transaction}
    (hts : List.Forall₂ Prepared.Of ts ps) (hre : List.Forall₂ Transaction.Reissued ts ts') :
    ∃ ps' rs' es', List.Forall₂ Prepared.Of ts' ps' ∧ Course p h' n s ps' rs' es' s' ∧
      rs'.map Receipt.anonymous = rs.map Receipt.anonymous ∧
      es'.map (Event.attributed .zero) = es.map (Event.attributed .zero) := by
  induction hcourse generalizing ts ts' with
  | nil =>
    cases hts
    cases hre
    exact ⟨[], [], [], .nil, .nil, rfl, rfl⟩
  | @cons n s s' q qs x a rs es head tail ih =>
    cases hts with
    | cons hq hqs =>
      cases hre with
      | cons hr hrs =>
        obtain ⟨ps', rs', es', hps', hcourse', hreceipts, hevents⟩ := ih hqs hrs
        obtain ⟨q', hq', hm, head'⟩ := execute_reissued he hc hq hr head
        refine ⟨q' :: ps', _, _, .cons hq' hps', .cons head' hcourse', ?_, ?_⟩
        · rw [List.map_cons, List.map_cons, hreceipts]
          exact congrArg (· :: _) (anonymous_receipt hn hm n x _ _)
        · rw [List.map_append, List.map_append, hevents]
          simp [Transition.attributed, attributed_attributed]

/-- **A block that is issued again is executed alike.** -/
theorem executeWith_reissued (he : p.engine.Blind) {b b' : Block} {s s' : Store}
    {e : BlockExecution} (hx : executeWith (.ofProcessor p) b s = .ok (.ok e, s'))
    (hre : b.Reissued b') :
    ∃ e', executeWith (.ofProcessor p) b' s = .ok (.ok e', s') ∧ e.Alike e' := by
  obtain ⟨ps, rs, es, hp, hcourse, rfl⟩ := executeWith_eq_ok_iff.1 hx
  obtain ⟨-, hts, hdeclared⟩ := prepare_eq_ok_iff.1 hp
  have hheader : b'.header = (Block.sealed b.header b'.transactions).header :=
    congrArg Block.header hre.header
  have hc : Context.ofHeader b'.header = Context.ofHeader b.header := by
    rw [hheader]
    rfl
  obtain ⟨ps', rs', es', hts', hcourse', hreceipts, hevents⟩ :=
    hcourse.reissued he hc (by rw [hheader]; rfl) hts hre.transactions
  have hp' : prepare (.ofProcessor p) b' = .ok ps' := by
    refine prepare_eq_ok_iff.2 ⟨?_, hts', ?_⟩
    · rw [hre.header]
      exact Block.isValid_sealed _ (isSigned_of_reissued hre.transactions)
    · rw [declaredGas_reissued hre.transactions, hheader]
      exact hdeclared
  refine ⟨_, executeWith_eq_ok_iff.2 ⟨ps', rs', es', hp', hcourse', rfl⟩, hreceipts, ?_, hevents,
    rfl⟩
  show countGas 0 rs' = countGas 0 rs
  rw [← countGas_anonymous, hreceipts, countGas_anonymous]

end BlockExecution

/-! ### One block after another -/

/-- **Blocks accepted one after another**, each executed to its end on the store that the one
before has left. -/
inductive Accepted (p : Processor) : Store → List (Block × BlockExecution) → Store → Prop where
  | nil (s : Store) : Accepted p s [] s
  | cons {b : Block} {e : BlockExecution} {ran : List (Block × BlockExecution)} {s s' s'' : Store}
      (first : BlockExecution.executeWith (.ofProcessor p) b s = .ok (.ok e, s'))
      (rest : Accepted p s' ran s'') : Accepted p s ((b, e) :: ran) s''

/-- The transactions of some blocks, each with its receipt, in order. -/
def carried (ran : List (Block × BlockExecution)) : List (Transaction × Receipt) :=
  ran.flatMap fun r => r.1.transactions.zip r.2.receipts

theorem carried_cons (r : Block × BlockExecution) (ran : List (Block × BlockExecution)) :
    carried (r :: ran) = r.1.transactions.zip r.2.receipts ++ carried ran := List.flatMap_cons

/-- The transactions that were applied. -/
def applied (l : List (Transaction × Receipt)) : List Transaction :=
  (l.filter (·.2.succeeded)).map Prod.fst

/-- How many creations of a signer were applied. -/
def creations (x : Address) (l : List (Transaction × Receipt)) : Nat :=
  l.countP fun o => o.2.succeeded && o.2.recipient.isNone && o.2.sender == x

/-- **The nonces count**: each transaction that was applied carries the number of those that its
signer has sent before it. At the start each has sent so many. -/
def Counted : (Address → Nat) → List (Transaction × Receipt) → Prop
  | _, [] => True
  | sent, (t, r) :: l => (r.succeeded = true → t.nonce.toNat = sent r.sender) ∧
      Counted (Function.update sent r.sender (sent r.sender + 1)) l

section

variable {p : Processor} {s s' : Store} {ran : List (Block × BlockExecution)}

/-- **Blocks that are issued again are accepted again**, and come to the same. -/
theorem Accepted.reissued (he : p.engine.Blind) (h : Accepted p s ran s') {bs : List Block}
    (hre : List.Forall₂ (fun r b => Block.Reissued r.1 b) ran bs) :
    ∃ ran', ran'.map Prod.fst = bs ∧ Accepted p s ran' s' ∧
      List.Forall₂ (fun r r' => BlockExecution.Alike r.2 r'.2) ran ran' := by
  induction h generalizing bs with
  | nil s =>
    cases hre
    exact ⟨[], rfl, .nil s, .nil⟩
  | cons first _ ih =>
    cases hre with
    | cons hb hbs =>
      obtain ⟨e', first', halike⟩ := BlockExecution.executeWith_reissued he first hb
      obtain ⟨ran', rfl, rest', hrest⟩ := ih hbs
      exact ⟨(_, e') :: ran', rfl, .cons first' rest', .cons halike hrest⟩

/-! ### Nonces that count -/

/-- Receipts name the signers. -/
theorem Accepted.signers (h : Accepted p s ran s') :
    ∀ o ∈ carried ran, o.1.sender = .ok o.2.sender := by
  induction h with
  | nil s => exact fun o ho => nomatch ho
  | @cons b e ran s s' s'' first rest ih =>
    intro o ho
    rw [carried_cons, List.mem_append] at ho
    obtain ho | ho := ho
    · obtain ⟨ps, rs, es, hp, hcourse, rfl⟩ := BlockExecution.executeWith_eq_ok_iff.1 first
      obtain ⟨-, hts, -⟩ := BlockExecution.prepare_eq_ok_iff.1 hp
      obtain ⟨i, hi⟩ := List.mem_iff_getElem?.1 ho
      obtain ⟨ht, hr⟩ := List.getElem?_zip_eq_some.1 hi
      exact ((hcourse.receipts hts).2 i o.1 o.2 ht (show rs[i]? = _ from hr)).sender
    · exact ih o ho

namespace Counted

variable {sent : Address → Nat} {l : List (Transaction × Receipt)}

/-- What is applied carries no smaller number than its signer had sent at the start. -/
theorem sent_le (h : Counted sent l) (hs : ∀ o ∈ l, o.1.sender = .ok o.2.sender)
    {t : Transaction} {x : Address} (hx : t.sender = .ok x) (ht : t ∈ applied l) :
    sent x ≤ t.nonce.toNat := by
  induction l generalizing sent with
  | nil => cases ht
  | cons o l ih =>
    obtain ⟨u, r⟩ := o
    obtain ⟨hu, hsenders⟩ := List.forall_mem_cons.1 hs
    obtain ⟨hnonce, hrest⟩ := h
    obtain ⟨o, ho, rfl⟩ := List.mem_map.1 ht
    obtain ⟨hmem, hsucceeded⟩ := List.mem_filter.1 ho
    obtain rfl | hmem := List.mem_cons.1 hmem
    · obtain rfl : r.sender = x := Except.ok.inj (hu.symm.trans hx)
      exact (hnonce hsucceeded).ge
    · have hle := ih hrest hsenders (List.mem_map_of_mem (List.mem_filter.2 ⟨hmem, hsucceeded⟩))
      refine le_trans ?_ hle
      -- meanwhile the signer may have sent one more
      rw [Function.update_apply]
      split_ifs with hsame
      · rw [hsame]
        exact Nat.le_succ _
      · exact Nat.le_refl _

/-- **What counts is applied once.** -/
theorem nodup_applied (h : Counted sent l) (hs : ∀ o ∈ l, o.1.sender = .ok o.2.sender) :
    (applied l).Nodup := by
  induction l generalizing sent with
  | nil => exact List.nodup_nil
  | cons o l ih =>
    obtain ⟨t, r⟩ := o
    obtain ⟨ht, hsenders⟩ := List.forall_mem_cons.1 hs
    obtain ⟨hnonce, hrest⟩ := h
    have hnodup := ih hrest hsenders
    unfold applied at hnodup ⊢
    rw [List.filter_cons]
    split_ifs with hsucceeded
    · refine List.nodup_cons.2 ⟨fun hagain => ?_, hnodup⟩
      -- a second time its signer would have sent more than its number
      have hle := hrest.sent_le hsenders ht hagain
      rw [Function.update_self, ← hnonce hsucceeded] at hle
      exact absurd hle (Nat.not_succ_le_self _)
    · exact hnodup

end Counted

/-! ### What accounts count -/

/-- A message that names no recipient takes its sender to a larger nonce if it is carried out
well. -/
theorem Message.Done.nonce_lt {env : Setting} {v w : View} {m : Message}
    {contract : Option Address} (h : m.Done env v contract w) (hm : m.recipient? = none) :
    (v.account env.store m.sender).nonce.toNat + 1
      ≤ (w.account env.store m.sender).nonce.toNat := by
  cases h with
  | invoke done => cases hm
  | @create sender _ value initCode code gasLimit gas v₁ _ named bump done =>
    subst named
    obtain ⟨-, hlt, hs⟩ := (View.bumpNonce_meets env.store sender v).of_ok bump
    have hbumped : (v₁.account env.store sender).nonce
        = (v.account env.store sender).nonce + 1 := by
      have hshown := congrFun (congrArg Sight.account hs) sender
      rw [show v₁.account env.store sender = _ from hshown]
      simp
    have hkept := done.deeds.respects.nonce sender
    rw [(View.checkpoint_alike env.store v₁).sight, UInt64.le_iff_toNat_le] at hkept
    calc (v.account env.store sender).nonce.toNat + 1
        = (v₁.account env.store sender).nonce.toNat := by
          rw [hbumped, UInt64.toNat_add, Nat.mod_eq_of_lt (by exact hlt)]
          rfl
      _ ≤ (w.account env.store sender).nonce.toNat := hkept

/-- A creation that takes effect takes its sender to a larger nonce. -/
theorem Processor.execute_nonce_lt (he : p.engine.RunsCode p.params) {m : Message} {a a' : Ambient}
    {t : Transition} (h : p.execute m a = .ok (t, a')) (ht : t.isSuccess = true)
    (hm : m.recipient? = none) : (a.store.account m.sender).nonce.toNat + 1
      ≤ (a'.store.account m.sender).nonce.toNat := by
  cases execute_effect he h with
  | none success _ _ _ =>
    rw [ht] at success
    cases success
  | @some v _ done _ _ sight =>
    have hstart : (startView a).account a.store = a.store.account :=
      congrArg Sight.account (sight_startView a)
    have hshown : a'.store.account = v.account a.store := congrArg Sight.account sight
    rw [hshown, ← hstart]
    exact done.nonce_lt hm

/-- The account of a signer counts the creations of a course. -/
theorem BlockExecution.Course.nonce_counts (he : p.engine.RunsCode p.params) {h : Header}
    {n : Nat} {ps : List Prepared} {rs : List Receipt} {es : List Event}
    (hcourse : Course p h n s ps rs es s') {ts : List Transaction}
    (hts : List.Forall₂ Prepared.Of ts ps) (x : Address) :
    (s.account x).nonce.toNat + creations x (ts.zip rs) ≤ (s'.account x).nonce.toNat := by
  induction hcourse generalizing ts with
  | nil =>
    cases hts
    exact Nat.le_refl _
  | @cons n s s' q qs t a rs es head tail ih =>
    cases hts with
    | @cons u _ us _ _ hus =>
      have hrest := ih hus
      have hkept : (s.account x).nonce.toNat ≤ (a.store.account x).nonce.toNat :=
        UInt64.le_iff_toNat_le.1 ((Processor.execute_respects he head).nonce x)
      rw [List.zip_cons_cons, creations, List.countP_cons]
      rw [creations] at hrest
      split_ifs with hcreated
      · rw [Bool.and_eq_true, Bool.and_eq_true, succeeded_receipt, beq_iff_eq] at hcreated
        obtain ⟨⟨ht, hm⟩, hx⟩ := hcreated
        have hlt := Processor.execute_nonce_lt he head ht (Option.isNone_iff_eq_none.1 hm)
        rw [show q.message.sender = x from hx] at hlt
        dsimp only at hlt
        omega
      · omega

/-- **The account of a signer counts the creations that were applied**, if not the calls. -/
theorem Accepted.nonce_counts (he : p.engine.RunsCode p.params) (h : Accepted p s ran s')
    (x : Address) :
    (s.account x).nonce.toNat + creations x (carried ran) ≤ (s'.account x).nonce.toNat := by
  induction h with
  | nil s => exact Nat.le_refl _
  | @cons b e ran s s' s'' first rest ih =>
    obtain ⟨ps, rs, es, hp, hcourse, rfl⟩ := BlockExecution.executeWith_eq_ok_iff.1 first
    obtain ⟨-, hts, -⟩ := BlockExecution.prepare_eq_ok_iff.1 hp
    have hfirst := hcourse.nonce_counts he hts x
    rw [carried_cons, creations, List.countP_append]
    rw [creations] at hfirst ih
    show _ + (List.countP _ (b.transactions.zip rs) + _) ≤ _
    omega

end

/-- **What counts is applied once.** Blocks are accepted one after another. If every transaction
that is applied carries the number of those that its signer has sent before it, then no canonical
bytes are applied twice, in one block or in several. Nothing sees to that: the account of a signer
counts the creations that were applied, but not the calls; and the blocks can be issued again with
other nonces, signed anew by the same signers, and are then accepted again and come to the same.
The account counts for every engine that runs code, and nonces are ignored by every engine that
does not see labels. -/
theorem applied_once {p : Processor} {s s' : Store} {ran : List (Block × BlockExecution)}
    (h : Accepted p s ran s') :
    ((∀ o ∈ carried ran, o.1.Fits) → ∀ sent, Counted sent (carried ran) →
      ((applied (carried ran)).map Transaction.encode).Nodup) ∧
    (p.engine.RunsCode p.params → ∀ x,
      (s.account x).nonce.toNat + creations x (carried ran) ≤ (s'.account x).nonce.toNat) ∧
    (p.engine.Blind → ∀ bs, List.Forall₂ (fun r b => Block.Reissued r.1 b) ran bs →
      ∃ ran', ran'.map Prod.fst = bs ∧ Accepted p s ran' s' ∧
        List.Forall₂ (fun r r' => BlockExecution.Alike r.2 r'.2) ran ran') := by
  refine ⟨fun hfits sent hcounted => ?_, fun he => h.nonce_counts he,
    fun he _ hre => h.reissued he hre⟩
  have hfits' : ∀ t ∈ applied (carried ran), t.Fits := fun t ht => by
    obtain ⟨o, ho, rfl⟩ := List.mem_map.1 ht
    exact hfits o (List.mem_filter.1 ho).1
  refine (hcounted.nodup_applied h.signers).map_on fun t ht u hu hbytes => ?_
  exact (delimits_transaction.prefix_iff (hfits' t ht) (hfits' u hu)).1
    (hbytes ▸ List.prefix_rfl)

/-! ### A call that is applied twice -/

namespace Replayed

open BlockExecution
open BurntBlock (target block spender ready prepare_block)

/-- Counts in its first slot how often it is called. -/
def code : Bytes := [0x60, 1, 0x60, 0, 0x54, 0x01, 0x60, 0, 0x55]

/-- The signer has sent one transaction, and the called account has the code. -/
def store : Store :=
  (Store.ofAccounts [(OnceOnly.payer, ⟨1, 0, .zero⟩), (target, ⟨1, 0, .digest code⟩)]).putCode
    target code

theorem prepare_once : prepare (.ofProcessor (.ofParams .standard)) (block 1)
    = .ok [ready OnceOnly.payer] := by
  rw [prepare_block, OnceOnly.ofPublicKey_key]
  rfl

/-- The block is executed on a store. -/
def perform (s : Store) : Except Abort (Except LedgerError Progress × Store) :=
  executeAll (.ofProcessor (.ofParams .standard)) (block 1).header [ready OnceOnly.payer]
    ⟨[], 0, [], s⟩

end Replayed

open Replayed BlockExecution in
open BurntBlock (target block spender) in
/-- **The same signed call is applied in one block after another.** Its nonce is what the account
of its signer says at the start, and says still when it has been applied twice. -/
theorem applied_twice : ∃ e₁ e₂ s',
    Accepted (.ofParams .standard) store [(block 1, e₁), (block 1, e₂)] s' ∧
    (store.account OnceOnly.payer).nonce = spender.nonce ∧
    e₁.receipts.map (·.status) = [1] ∧ e₂.receipts.map (·.status) = [1] ∧
    ¬ ((applied (carried [(block 1, e₁), (block 1, e₂)])).map Transaction.encode).Nodup ∧
    (s'.account OnceOnly.payer).nonce = spender.nonce ∧
    s'.slot ⟨target, .zero⟩ = Bytes.bigEndian 32 2 := by
  have hread : (perform store).toOption.bind (fun answer => answer.1.toOption.bind fun done =>
      (perform done.store).toOption.bind fun answer' => answer'.1.toOption.bind fun done' =>
        some (done.receipts.reverse.map (·.status), done'.receipts.reverse.map (·.status),
          (done'.store.account OnceOnly.payer).nonce, done'.store.slot ⟨target, .zero⟩))
      = some ([1], [1], 1, Bytes.bigEndian 32 2) := by
    decide +kernel
  obtain ⟨⟨answer, s₁⟩, hfirst, hanswer⟩ := exists_of_read hread
  obtain ⟨done, rfl, hrest⟩ := exists_of_read hanswer
  obtain ⟨⟨answer', s'⟩, hsecond, hanswer'⟩ := exists_of_read hrest
  obtain ⟨done', rfl, hshown⟩ := exists_of_read hanswer'
  obtain ⟨rfl, hblock⟩ := executeWith_of_executeAll prepare_once hfirst
  obtain ⟨rfl, hblock'⟩ := executeWith_of_executeAll prepare_once hsecond
  simp only [Option.some.injEq, Prod.mk.injEq] at hshown
  obtain ⟨hstatus, hstatus', hnonce, hslot⟩ := hshown
  refine ⟨_, _, _, .cons hblock (.cons hblock' (.nil _)), by decide, hstatus, hstatus', ?_, hnonce,
    hslot⟩
  -- both receipts are those of the one transaction
  obtain ⟨r, hr, hone⟩ := List.map_eq_singleton_iff.1 hstatus
  obtain ⟨r', hr', hone'⟩ := List.map_eq_singleton_iff.1 hstatus'
  simp [carried, applied, block, Block.sealed, hr, hr', Receipt.succeeded, hone, hone']

open BlockExecution in
open BurntBlock (block spender) in
/-- The transaction comes three times in a block and is applied once: it carries the number of
those that its signer has sent before the first time. The block comes to as much when it is
issued again. -/
theorem applied_once_counted : ∃ e s',
    Accepted (.ofParams .standard) OnceOnly.store [(block 3, e)] s' ∧
    (∀ o ∈ carried [(block 3, e)], o.1.Fits) ∧ Counted (fun _ => 1) (carried [(block 3, e)]) ∧
    (carried [(block 3, e)]).map Prod.fst = [spender, spender, spender] ∧
    (carried [(block 3, e)]).map (·.2.succeeded) = [true, false, false] ∧
    ((applied (carried [(block 3, e)])).map Transaction.encode).Nodup ∧
    (OnceOnly.store.account OnceOnly.payer).nonce.toNat
        + creations OnceOnly.payer (carried [(block 3, e)])
      ≤ (s'.account OnceOnly.payer).nonce.toNat ∧
    ∃ ran', ran'.map Prod.fst = [block 3] ∧ Accepted (.ofParams .standard) OnceOnly.store ran' s' ∧
      List.Forall₂ (fun r r' => Alike r.2 r'.2) [(block 3, e)] ran' := by
  obtain ⟨e, s', hx, hstatus⟩ := OnceOnly.execute_block
  obtain ⟨r₁, r₂, r₃, hrs⟩ := List.length_eq_three.1
    (show e.receipts.length = 3 by simpa using congrArg List.length hstatus)
  have hcarried : carried [(block 3, e)] = [(spender, r₁), (spender, r₂), (spender, r₃)] := by
    simp [carried, block, Block.sealed, List.replicate_succ, hrs]
  simp only [hrs, List.map_cons, List.map_nil, List.cons.injEq, and_true] at hstatus
  obtain ⟨h₁, h₂, h₃⟩ := hstatus
  have haccepted : Accepted (.ofParams .standard) OnceOnly.store [(block 3, e)] s' :=
    .cons hx (.nil s')
  have hfits : ∀ o ∈ carried [(block 3, e)], o.1.Fits := by
    rw [hcarried]
    have hspender : spender.Fits := by decide
    simp [hspender]
  have hcounted : Counted (fun _ => 1) (carried [(block 3, e)]) := by
    have hnonce : spender.nonce.toNat = 1 := by decide
    simp [hcarried, Counted, h₂, h₃, hnonce]
  have hreissued : Block.Reissued (block 3) (block 3) :=
    ⟨(Block.sealed_header _ _ _).symm, List.forall₂_same.2 fun t ht =>
      ⟨_, (List.eq_of_mem_replicate ht).symm ▸ BurntBlock.ofTransaction_spender,
        (List.eq_of_mem_replicate ht).symm ▸ BurntBlock.ofTransaction_spender⟩⟩
  obtain ⟨honce, hnonces, hagain⟩ := applied_once haccepted
  exact ⟨e, s', haccepted, hfits, hcounted, by rw [hcarried]; rfl,
    by simp [hcarried, h₁, h₂, h₃], honce hfits _ hcounted,
    hnonces (Engine.runsCode_machine .standard) OnceOnly.payer,
    hagain (Engine.blind_machine .standard) [block 3] (.cons hreissued .nil)⟩

end MeteredLedger
