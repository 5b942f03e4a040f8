import MeteredLedger.Proofs.Gas.Tiers
import MeteredLedger.Proofs.Ledger.Writers

/-!
# Transfers that are denied

A transition reports a denied transfer if its run ends in an error about a balance that is too
small. Such errors are raised in three places: by the guard before a frame is entered, by the debit
of the value once it is, and by frames below. Only the first can be what a frame hands back
(`callWith_denial`, `createWith_denial`). The guard leaves nothing for the debit to miss, as nothing
in between takes value from the payer; and what a frame below hands back is taken in by the code
that has asked for it, which never fails for a balance itself (`LedgerError.isOfCode`).

The first frame cannot nest too deep, so a transfer is denied exactly if the sender holds less in
the store than the message moves, and then nothing has been consumed (`denied_iff_short`).
-/

namespace MeteredLedger

/-! ### Errors -/

/-- Whether an error is about a balance that is too small. -/
def LedgerError.isDenial : LedgerError → Bool
  | .insufficientBalance .. => true
  | _ => false

/-- Code never fails for a balance. -/
theorem LedgerError.isDenial_of_isOfCode {e : LedgerError} (h : e.isOfCode = true) :
    e.isDenial = false := by
  cases e <;> first | rfl | cases h

/-- The stop is about a balance that is too small. -/
def Stop.Denies (stop : Stop) : Prop := ∃ e, stop = .error e ∧ e.isDenial = true

theorem Stop.OfCode.not_denies {stop : Stop} (h : stop.OfCode) : ¬stop.Denies := by
  rintro ⟨e, rfl, he⟩
  rw [LedgerError.isDenial_of_isOfCode h] at he
  cases he

theorem Stop.not_denies_error {e : LedgerError} (h : e.isDenial = false) :
    ¬Stop.Denies (.error e) := by
  rintro ⟨_, ⟨⟩, he⟩
  rw [h] at he
  cases he

/-! ### Balances that are enough -/

/-- An amount within the balance can be taken away. -/
theorem View.debit_of_le {s : Store} {a : Address} {amount : Wei} {v : View}
    (h : amount ≤ v.balance s a) :
    Meets (debit s a amount) v (fun _ _ => True) fun _ _ => False := by
  have hdebit : (v.account s a).debit? amount
      = some { v.account s a with balance := (v.account s a).balance - amount } := if_pos h
  unfold Meets debit
  simp only [touch_fst, hdebit]

/-- An amount within the balance can be moved, unless the target cannot hold it. -/
theorem View.transfer_of_le {s : Store} {source target : Address} {amount : Wei} {v : View}
    (h : amount ≤ v.balance s source) : Meets (transfer s source target amount) v (fun _ _ => True)
      fun stop _ => stop = .error (.balanceOverflow target) := by
  refine Meets.bind ((debit_of_le h).mono (fun _ v₁ _ => ?_) fun _ _ h => h.elim)
  exact (credit_meets s target amount v₁).mono (fun _ _ _ => trivial) fun _ _ h => h.2.2

/-- No balance changes where an account is put in place of one with the same balance. -/
theorem View.balance_of_putAccount {s : Store} {v v' : View} {a : Address} {x : Account}
    (h : v'.sight s = (v.sight s).putAccount a x) (hx : x.balance = v.balance s a) (b : Address) :
    v'.balance s b = v.balance s b := by
  have haccount : v'.account s = Function.update (v.account s) a x := congrArg Sight.account h
  unfold balance at hx ⊢
  rw [haccount, Function.update_apply]
  split_ifs with hb
  · rw [hx, hb]
  · rfl

namespace Exec

variable {env : Setting} {R : Machine → Machine → Prop} {body : Exec Exit} {m : Machine}

/-- **The action does not miss a balance** from a machine. -/
def Suffices {α : Type} (x : Exec α) (m : Machine) : Prop :=
  Meets x m (fun _ _ => True) fun stop _ => ¬stop.Denies

theorem Keeps.suffices {α : Type} {x : Exec α} (hx : Keeps Stop.OfCode R x) (m : Machine) :
    Suffices x m := (hx m).mono (fun _ _ _ => trivial) fun _ _ h => h.1.not_denies

theorem suffices_charge (amount : Gas) (label : String) (m : Machine) :
    Suffices (charge amount label) m := (charge_makes amount label).suffices m

/-- What comes after a charge, on the view as it is. -/
theorem Suffices.after_charge {α : Type} {amount : Gas} {label : String} {f : Unit → Exec α}
    (hf : ∀ m' : Machine, m'.world.view = m.world.view → Suffices (f ()) m') :
    Suffices (charge amount label >>= f) m := by
  refine Meets.bind (((charge_view amount label m).and (suffices_charge amount label m)).mono ?_
    fun _ _ h => h.2)
  rintro _ m' ⟨⟨hv, -⟩, -⟩
  exact hf m' hv

theorem suffices_transfer {source target : Address} {amount : Wei}
    (h : amount ≤ m.world.view.balance env.store source) :
    Suffices (onView (View.transfer env.store source target amount)) m := by
  have ht : Meets (View.transfer env.store source target amount) m.world.view (fun _ _ => True)
      fun stop _ => stop = .error (.balanceOverflow target) := View.transfer_of_le h
  unfold Suffices Meets onView at *
  split at ht
  · rename_i heq
    simp only [heq]
  · rename_i heq
    simp only [heq]
    subst ht
    exact Stop.not_denies_error rfl

/-- A call finds what it moves, if the caller has it. -/
theorem suffices_enterCall (hb : Keeps Stop.OfCode R body) {c : Call}
    (h : c.value ≤ m.world.view.balance env.store c.caller) :
    Suffices (enterCall env body c) m := by
  rw [enterCall_eq]
  refine Suffices.after_charge fun m₁ hv₁ => ?_
  have hbring : Suffices (bring env c) m₁ := by
    unfold bring
    split_ifs
    · exact Suffices.after_charge fun m₂ hv₂ => suffices_transfer (by rwa [hv₂, hv₁])
    · exact Meets.pure trivial
  refine Meets.bind (hbring.mono (fun _ m₂ _ => meets_inspect ?_) fun _ _ h => h)
  split_ifs
  · exact Meets.pure trivial
  · exact hb.suffices _

/-- What a creation has returned is deployed without asking for a balance. -/
theorem suffices_deploy (address : Address) (code : Bytes) (m : Machine) :
    Suffices (deploy env address code) m := by
  unfold deploy
  dsimp only
  split_ifs
  · exact Meets.bind (Meets.throw (Stop.not_denies_error rfl))
  · exact Suffices.after_charge fun _ _ => trivial

/-- A creation finds what it moves, if the creator has it. -/
theorem suffices_enterCreation (hb : Keeps Stop.OfCode R body) {c : Creation} (address : Address)
    (h : c.value ≤ m.world.view.balance env.store c.creator) :
    Suffices (enterCreation env body address c) m := by
  rw [enterCreation_eq]
  refine Suffices.after_charge fun m₁ hv₁ => ?_
  have hclaim : Suffices (claim env address) m₁ := by
    refine meets_inspect ?_
    split_ifs
    · exact Meets.throw (Stop.not_denies_error rfl)
    · trivial
  refine Meets.bind (((claim_free address m₁).and hclaim).mono ?_ fun _ _ h => h.2)
  rintro _ m₂ ⟨⟨-, hv₂, -⟩, -⟩
  have hbalance : c.value ≤ m₂.world.view.balance env.store c.creator := by
    have hkept := View.balance_of_putAccount
      (View.sight_setNonce env.store m₁.world.view address 1) rfl c.creator
    rw [hv₂, hkept, hv₁]
    exact h
  have hendow : Suffices (endow env address c) m₂ := by
    unfold endow
    split_ifs
    · exact suffices_transfer hbalance
    · exact Meets.pure trivial
  refine Meets.bind (hendow.mono (fun _ m₃ _ => Meets.bind ?_) fun _ _ h => h)
  refine Meets.bind ((hb.suffices _).mono (fun exit m₄ _ => ?_) fun _ _ h => h)
  cases exit with
  | reverted output => exact Meets.pure trivial
  | returned code => exact Meets.bind ((suffices_deploy address code m₄).mono
      (fun _ _ _ => Meets.pure trivial) fun _ _ h => h)

end Exec

/-! ### Frames -/

/-- A frame that misses no balance hands back no error about one. -/
theorem Settled.not_denied {mark : View.Mark} {x : Exec Exit} {m : Machine} {r : FrameResult}
    {w : World} {e : LedgerError} (h : Settled mark (x m) r w) (hx : Exec.Suffices x m)
    (he : r.error = some e) : e.isDenial = false := by
  obtain rfl | ⟨m', hm'⟩ := h.cause he
  · rfl
  · exact Bool.eq_false_iff.2 fun hdenial => hx.of_error hm' ⟨e, rfl, hdenial⟩

/-- Whether value may be given away is a matter of the balance. -/
def Context.AsksBalance (context : Context) : Prop := context.mayTransfer = View.canTransfer

theorem Context.asksBalance_ofHeader (header : Header) (origin : Address) (gasLimit : Gas) :
    (ofHeader header origin gasLimit).AsksBalance := rfl

section

variable {env : Setting} {R : Machine → Machine → Prop} {body : Exec Exit} {w w' : World}
  {r : FrameResult} {e : LedgerError}

/-- The guard before a frame, where balances are asked. -/
theorem refusal?_eq (hc : env.context.AsksBalance) (w : World) (payer : Address) (value : Wei)
    (depth : Nat) : refusal? env w payer value depth =
      if env.params.maxCallDepth.toNat < depth then
        some (.callDepthExceeded env.params.maxCallDepth.toNat)
      else if w.view.balance env.store payer < value then
        some (.insufficientBalance value (w.view.balance env.store payer))
      else none := by
  unfold refusal?
  rw [hc]
  simp only [View.canTransfer, Bool.not_eq_true', decide_eq_false_iff_not,
    BitVec.not_le]

/-- The guard lets nobody through who does not have the value. -/
theorem le_of_refusal? (hc : env.context.AsksBalance) {payer : Address} {value : Wei} {depth : Nat}
    (h : refusal? env w payer value depth = none) : value ≤ w.view.balance env.store payer := by
  rw [refusal?_eq hc] at h
  split_ifs at h with _ hless
  exact BitVec.not_lt.1 hless

/-- Whom the guard denies for the balance does not have the value. -/
theorem lt_of_refusal? (hc : env.context.AsksBalance) {payer : Address} {value : Wei} {depth : Nat}
    (h : refusal? env w payer value depth = some e) (hdenial : e.isDenial = true) :
    w.view.balance env.store payer < value := by
  rw [refusal?_eq hc] at h
  split_ifs at h with _ hless
  · cases h
    cases hdenial
  · exact hless

/-- The first frame cannot nest too deep. -/
theorem refusal?_of_short (hc : env.context.AsksBalance) {payer : Address} {value : Wei}
    (h : w.view.balance env.store payer < value) : refusal? env w payer value 0
      = some (.insufficientBalance value (w.view.balance env.store payer)) := by
  rw [refusal?_eq hc, if_neg (Nat.not_lt_zero _), if_pos h]

/-- **A call is denied by its guard only**: not for the value that it moves once it is entered, and
not for what frames below have met. -/
theorem callWith_denial (hc : env.context.AsksBalance) (hb : Exec.Keeps Stop.OfCode R body)
    {c : Call} (h : callWith env body c w = .ok (r, w')) (he : r.error = some e)
    (hdenial : e.isDenial = true) : refusal? env w c.caller c.value c.depth = some e := by
  obtain ⟨e', hr, rfl, -⟩ | ⟨hn, hs⟩ := callWith_cases h
  · cases he
    exact hr
  · have hbalance : c.value ≤ (c.machine w).world.view.balance env.store c.caller := by
      have hsight := View.sight_checkpoint env.store w.view
      have haccount : w.view.checkpoint.2.account env.store = w.view.account env.store :=
        congrArg Sight.account hsight
      show c.value ≤ (w.view.checkpoint.2.account env.store c.caller).balance
      rw [haccount]
      exact le_of_refusal? hc hn
    rw [hs.not_denied (Exec.suffices_enterCall hb hbalance) he] at hdenial
    cases hdenial

/-- **A creation is denied by its guard only.** -/
theorem createWith_denial (hc : env.context.AsksBalance) (hb : Exec.Keeps Stop.OfCode R body)
    {c : Creation} (h : createWith env body c w = .ok (r, w')) (he : r.error = some e)
    (hdenial : e.isDenial = true) : refusal? env w c.creator c.value c.depth = some e := by
  obtain ⟨e', hr, rfl, -⟩ | ⟨hn, view, r', hv, hs, rfl⟩ := createWith_cases h
  · cases he
    exact hr
  · obtain ⟨-, -, hbump⟩ := (View.bumpNonce_meets env.store c.creator w.view).of_ok hv
    have hbalance : c.value ≤ (c.machine env w view).world.view.balance env.store c.creator := by
      have hsight : view.checkpoint.2.sight env.store = _ :=
        (View.sight_checkpoint env.store view).trans hbump
      show c.value ≤ view.checkpoint.2.balance env.store c.creator
      rw [View.balance_of_putAccount hsight rfl]
      exact le_of_refusal? hc hn
    rw [hs.not_denied (Exec.suffices_enterCreation hb _ hbalance) he] at hdenial
    cases hdenial

end

/-! ### Runs -/

namespace Engine

variable {params : Params} {e : Engine} {context : Context} {store : Store} {m : Message}
  {gas : Gas}
  {w w' : World} {r : FrameResult}

/-- **A message that moves more than its sender has is refused**, and all of its gas is handed
back. -/
theorem RunsCode.run_of_short (he : e.RunsCode params) (hc : context.AsksBalance)
    (h : w.view.balance store m.sender < m.value) : e.run context store m gas w
      = .ok (.refused gas (.insufficientBalance m.value (w.view.balance store m.sender)), w) := by
  have hrefused : refusal? ⟨params, context, store⟩ w m.sender m.value 0
      = some (.insufficientBalance m.value (w.view.balance store m.sender)) :=
    refusal?_of_short hc h
  cases m with
  | create sender value initCode gasLimit =>
    obtain ⟨steps, heq⟩ := he.create context store ⟨sender, initCode, gas, value, 0⟩ w
    exact heq.trans (createWith_of_refused hrefused)
  | invoke sender recipient value payload gasLimit =>
    obtain ⟨steps, heq⟩ := he.call context store ⟨sender, recipient, payload, gas, value, 0⟩ w
    exact heq.trans (callWith_of_refused hrefused)

/-- **Only a message that moves more than its sender has ends in an error about a balance.** -/
theorem RunsCode.short_of_run (he : e.RunsCode params) (hc : context.AsksBalance)
    (h : e.run context store m gas w = .ok (r, w')) {cause : LedgerError}
    (hcause : r.error = some cause) (hdenial : cause.isDenial = true) :
    w.view.balance store m.sender < m.value := by
  have hb := fun steps => Exec.run_acts ⟨params, context, store⟩ steps
  cases m with
  | create sender value initCode gasLimit =>
    obtain ⟨steps, heq⟩ := he.create context store ⟨sender, initCode, gas, value, 0⟩ w
    exact lt_of_refusal? hc (createWith_denial hc (hb steps) (heq.symm.trans h) hcause hdenial)
      hdenial
  | invoke sender recipient value payload gasLimit =>
    obtain ⟨steps, heq⟩ := he.call context store ⟨sender, recipient, payload, gas, value, 0⟩ w
    exact lt_of_refusal? hc (callWith_denial hc (hb steps) (heq.symm.trans h) hcause hdenial)
      hdenial

end Engine

/-! ### Transitions -/

/-- An error is reported as a denied transfer exactly if it is about a balance. -/
theorem Outcome.ofError_eq_transferDenied {e : LedgerError} {output : Bytes} {gas gas' : Gas} :
    ofError e output gas = .transferDenied gas' ↔ e.isDenial = true ∧ gas' = gas := by
  cases e <;> simp [ofError, LedgerError.isDenial, eq_comm]

/-- A grant that is handed back whole has cost nothing. -/
theorem Grant.reconcile_whole (g : Grant) : ∃ figures,
    Grant.reconcile { g with inner := .untracked } g.gas = .ok figures ∧
      figures.total = g.outerConsumed := by
  have htotal : g.totalWith 0 = g.outerConsumed := by
    have hmax := toNat_le_maxGas g.outerConsumed
    rw [← UInt64.toNat_inj, totalWith, toNat_addGasCapped]
    show min (_ + 0) _ = _
    omega
  have hconsumed : Meter.untracked.consumed = g.gas - g.gas := (UInt64.sub_self _).symm
  unfold reconcile
  rw [if_neg (UInt64.lt_irrefl _), if_neg (not_not.2 hconsumed), UInt64.sub_self]
  exact ⟨_, rfl, htotal⟩

namespace Processor

variable {p : Processor} {m : Message} {a : Ambient}

/-- The balances that a transition starts on are those of the store. -/
theorem balance_startView (a : Ambient) (x : Address) :
    (startView a).balance a.store x = (a.store.account x).balance := by
  have haccount : (startView a).account a.store = a.store.account :=
    congrArg Sight.account (sight_startView a)
  unfold View.balance
  rw [haccount]

/-- An attempt that ends in a denied transfer comes of a run that was denied. -/
theorem denial_of_classify {g : Grant} {result : FrameResult} {view : View} {gas : Gas}
    (h : classify g result view = .ok (.error (.transferDenied gas))) :
    ∃ e, result.error = some e ∧ e.isDenial = true := by
  unfold classify at h
  split at h
  · cases h
  · cases h
  · split at h
    · rename_i e he
      obtain ⟨hdenial, -⟩ :=
        Outcome.ofError_eq_transferDenied.1 (Except.error.inj (Except.ok.inj h))
      exact ⟨e, he, hdenial⟩
    · split_ifs at h
      · cases h
      · cases h

/-- **A transition that moves more than its sender has is denied**, for nothing, and changes
nothing. -/
theorem execute_of_short (he : p.engine.RunsCode p.params)
    (h : (a.store.account m.sender).balance < m.value) :
    p.execute m a = .ok (.failed (.transferDenied a.meter.consumed), a) := by
  rw [← balance_startView] at h
  obtain ⟨figures, hwhole, htotal⟩ := (Grant.ofMeter a.meter m.gasLimit).reconcile_whole
  have hattempt : p.attemptOf m a = .ok (.error (.transferDenied a.meter.consumed)) := by
    rw [attemptOf_eq, he.run_of_short (w := ⟨startView a, .untracked⟩)
      (Context.asksBalance_ofHeader _ _ _) h]
    show classify { Grant.ofMeter a.meter m.gasLimit with inner := .untracked }
      (.refused (Grant.ofMeter a.meter m.gasLimit).gas _) (startView a) = _
    unfold classify FrameResult.refused
    dsimp only
    rw [hwhole]
    exact congrArg (fun gas => Except.ok (Except.error (Outcome.transferDenied gas))) htotal
  rw [execute_eq_conclude, hattempt]
  rfl

/-- **Only a transition that moves more than its sender has is denied.** -/
theorem short_of_execute (he : p.engine.RunsCode p.params) {t : Transition} {a' : Ambient}
    {gas : Gas} (h : p.execute m a = .ok (t, a')) (ht : t.outcome = .transferDenied gas) :
    (a.store.account m.sender).balance < m.value := by
  have hx := execute_cases p m a
  rw [h] at hx
  cases hx with
  | failed ha =>
    cases ht
    rw [attemptOf_eq] at ha
    obtain ⟨⟨r, w⟩, hr, hclass⟩ := exists_of_bind_ok ha
    obtain ⟨e, hcause, hdenial⟩ := denial_of_classify hclass
    rw [← balance_startView]
    exact he.short_of_run (Context.asksBalance_ofHeader _ _ _) hr hcause hdenial
  | uncharged _ _ => cases ht
  | unpublished _ _ _ => cases ht
  | effective _ _ _ => cases ht

end Processor

open Processor in
/-- **A transfer is denied exactly if the sender does not have the value.** Whatever the parameters,
the store, the header, the meter and the code, a transition that moves more than its sender has in
the store returns, denied, and reports what the meter had consumed before; and one that returns
denied is one of these. For a frame, at any depth, hands back an error about a balance only if the
guard before it has raised it: the debit of its value never does, nor a frame below. -/
theorem denied_iff_short :
    (∀ params, (Engine.machine params).RunsCode params) ∧
    (∀ p : Processor, p.engine.RunsCode p.params → ∀ m a,
      ((a.store.account m.sender).balance < m.value →
        p.execute m a = .ok (.failed (.transferDenied a.meter.consumed), a)) ∧
      ∀ t a', p.execute m a = .ok (t, a') →
        ((∃ gas, t.outcome = .transferDenied gas) ↔
          (a.store.account m.sender).balance < m.value) ∧
        ∀ gas, t.outcome = .transferDenied gas → gas = a.meter.consumed) ∧
    ∀ env : Setting, env.context.AsksBalance → ∀ steps w w' r e, r.error = some e →
      e.isDenial = true →
      (∀ c, callIn steps env c w = .ok (r, w') →
        refusal? env w c.caller c.value c.depth = some e) ∧
      ∀ c, createIn steps env c w = .ok (r, w') →
        refusal? env w c.creator c.value c.depth = some e := by
  refine ⟨Engine.runsCode_machine, fun p he m a => ⟨execute_of_short he, ?_⟩, ?_⟩
  · intro t a' h
    have reported : (a.store.account m.sender).balance < m.value →
        t = .failed (.transferDenied a.meter.consumed) := by
      intro hshort
      rw [execute_of_short he hshort] at h
      cases h
      rfl
    refine ⟨⟨?_, fun hshort => ⟨_, congrArg (·.outcome) (reported hshort)⟩⟩, fun gas ht => ?_⟩
    · rintro ⟨gas, ht⟩
      exact short_of_execute he h ht
    · rw [reported (short_of_execute he h ht)] at ht
      cases ht
      rfl
  · intro env hc steps w w' r e he hdenial
    have hb := Exec.run_acts env steps
    exact ⟨fun c h => callWith_denial hc hb h he hdenial,
      fun c h => createWith_denial hc hb h he hdenial⟩

/-! ### A frame below that is denied -/

namespace BoldCaller

/-- Calls account 3 with more value than there is. -/
def code : Bytes := [0x60, 0, 0x60, 0, 0x60, 0, 0x60, 0, 0x60, 100, 0x60, 3, 0x60, 0, 0xf1]

/-- Account 1 has some value, and account 2 has the code. -/
def store : Store := (Store.ofAccounts [(⟨1⟩, .ofBalance 10), (⟨2⟩, .ofBalance 1)]).putCode ⟨2⟩ code

/-- A third of the gas has been used before. -/
def ambient : Ambient := ⟨(Meter.bounded 60000).record 20000 "earlier", .genesis, [], store⟩

/-- Moves value to account 2, and runs its code. -/
def calls (value : Wei) : Message := .invoke ⟨1⟩ ⟨2⟩ value [] 30000

/-- The call that the code makes. -/
def nested : Call := ⟨⟨2⟩, ⟨3⟩, [], 0, 100, 1⟩

/-- The setting of a call that moves 4. -/
def env : Setting := (Processor.ofParams .standard).settingOf (calls 4) ambient

end BoldCaller

open BoldCaller in
/-- The message that moves more than there is is denied. The other one takes effect, although the
call that its code makes is denied. -/
theorem denied_iff_short_nested :
    (store.account ⟨1⟩).balance < 11 ∧
    (Processor.ofParams .standard).execute (calls 11) ambient
      = .ok (.failed (.transferDenied 20000), ambient) ∧
    (∃ t a', (Processor.ofParams .standard).execute (calls 4) ambient = .ok (t, a') ∧
      t.isSuccess = true ∧ ¬(store.account ⟨1⟩).balance < 4) ∧
    ∃ r w, callIn 1 env nested ⟨Processor.startView ambient, .untracked⟩ = .ok (r, w) ∧
      r.error = some (.insufficientBalance 100 1) ∧
      refusal? env ⟨Processor.startView ambient, .untracked⟩ ⟨2⟩ 100 1
        = some (.insufficientBalance 100 1) := by
  have hshort : (store.account ⟨1⟩).balance < 11 := by decide +kernel
  have hruns : ((Processor.ofParams .standard).execute (calls 4) ambient).toOption.bind
      (fun e => some e.1.isSuccess) = some true := by decide +kernel
  have hnested : (callIn 1 env nested ⟨Processor.startView ambient, .untracked⟩).toOption.bind
      (fun e => e.1.error) = some (.insufficientBalance 100 1) := by decide +kernel
  obtain ⟨⟨t, a'⟩, ht, hread⟩ := exists_of_read hruns
  obtain ⟨⟨r, w⟩, hr, hcause⟩ := exists_of_read hnested
  obtain ⟨-, hlaw, hframes⟩ := denied_iff_short
  have hmessages := hlaw (.ofParams .standard) (Engine.runsCode_machine .standard)
  have hs : t.isSuccess = true := Option.some.inj hread
  have henough : ¬(store.account ⟨1⟩).balance < 4 := by
    intro hless
    obtain ⟨gas, hdenied⟩ := (((hmessages (calls 4) ambient).2 t a' ht).1).2 hless
    unfold Transition.isSuccess at hs
    rw [hdenied] at hs
    cases hs
  have hguard := (hframes env (Context.asksBalance_ofHeader _ _ _) 1 _ w r _ hcause rfl).1 nested hr
  exact ⟨hshort, (hmessages (calls 11) ambient).1 hshort, ⟨t, a', ht, hs, henough⟩, r, w, hr,
    hcause, hguard⟩

end MeteredLedger
