import MeteredLedger.Proofs.Block.Failures
import MeteredLedger.Proofs.Engine
import MeteredLedger.Proofs.Frame.Atomicity
import MeteredLedger.Proofs.Ledger.Total

/-!
# No value is made or lost

Every move of a frame leaves the total of the balances shown as it is, and so does
every frame (`run_conserves`): a frame that fails shows what was shown before, and one
that ends well has moved value with both sides accounted for. In between a frame may
show less, after a debit whose credit fails; but then the frame fails, and its scope is
dropped. What is published has the total of what was shown, so the total of the store
survives transitions and blocks (`total_conserved`).
-/

namespace MeteredLedger

/-- The total of what the view shows is the same. -/
def Machine.SameTotal (s : Store) (m m' : Machine) : Prop :=
  (m'.world.view.sight s).total = (m.world.view.sight s).total

/-- The view comes of the other within a scope, and the total is the same. -/
def Machine.Conserves (s : Store) (m m' : Machine) : Prop :=
  View.Inside s m.world.view m'.world.view ∧ m.SameTotal s m'

namespace Machine.Conserves

variable {s : Store}

theorem refl (m : Machine) : m.Conserves s m := ⟨.refl _, rfl⟩

theorem trans {m₁ m₂ m₃ : Machine} (h : m₁.Conserves s m₂) (h' : m₂.Conserves s m₃) :
    m₁.Conserves s m₃ := by
  obtain ⟨hin, ht⟩ := h
  obtain ⟨hin', ht'⟩ := h'
  exact ⟨hin.trans hin', Eq.trans ht' ht⟩

theorem move {m m' : Machine} (h : Move m m') : m.Conserves s m' := by
  cases h with
  | goOn f h => exact refl m
  | pay h => exact refl m
  | write key value =>
    refine ⟨View.setSlot_inside _ _ _ _, ?_⟩
    show ((View.setSlot _ _ _).sight s).total = _
    rw [View.sight_setSlot, Sight.total_putSlot]
  | leave topics data =>
    refine ⟨View.addLog_inside _ _ _, ?_⟩
    show ((View.addLog _ _).sight s).total = _
    rw [View.sight_addLog, Sight.total_addLog]

theorem lasting (s : Store) : Lasting (Machine.Conserves s) :=
  ⟨refl, fun _ _ _ => trans, fun _ _ => move⟩

/-- Code that leaves the total as it is stays within its scope. -/
theorem staysInside {env : Setting} {body : Exec Exit}
    (h : Exec.Keeps Stop.OfCode (Machine.Conserves env.store) body) : Exec.StaysInside env body :=
  h.mono (fun _ h => h) fun _ _ h => h.1

end Machine.Conserves

namespace Exec

variable {env : Setting} {α β : Type}

/-! ### Entering a frame -/

/-- **The action leaves the total as it is**, if it gives a value. -/
def Balances (s : Store) (x : Exec α) : Prop :=
  ∀ m, Meets x m (fun _ m' => m.SameTotal s m') fun _ _ => True

namespace Balances

variable {s : Store} {x : Exec α}

theorem bind {f : α → Exec β} (hx : Balances s x) (hf : ∀ a, Balances s (f a)) :
    Balances s (x >>= f) := by
  intro m
  refine Meets.bind ((hx m).mono (fun a m₁ h => ?_) fun _ _ _ => trivial)
  exact (hf a m₁).mono (fun _ _ h' => Eq.trans h' h) fun _ _ _ => trivial

theorem pure (a : α) : Balances s (Pure.pure a) := fun _ => Meets.pure rfl

theorem of_inspect (g : Machine → α) : Balances s (inspect g) := fun _ => Eq.refl _

theorem of_fail (e : LedgerError) : Balances s (fail e : Exec α) := fun _ => Meets.throw trivial

theorem of_modifyFrame (f : Frame → Frame) : Balances s (modifyFrame f) := fun _ => Eq.refl _

theorem of_keeps {S : Stop → Prop} (h : Keeps S (Machine.Conserves s) x) : Balances s x :=
  fun m => (h m).mono (fun _ _ h => h.2) fun _ _ _ => trivial

theorem of_charge (amount : Gas) (label : String) : Balances s (charge amount label) :=
  .of_keeps ((charge_makes amount label).keeps (Machine.Conserves.lasting s))

theorem of_modifyView {f : View → View} (h : ∀ v, ((f v).sight s).total = (v.sight s).total) :
    Balances s (modifyView f) := fun m => h m.world.view

theorem of_transfer (source target : Address) (amount : Wei) :
    Balances s (onView (View.transfer s source target amount)) := by
  intro m
  have h := View.total_transfer s source target amount m.world.view
  unfold Meets at h ⊢
  unfold onView
  split at h
  · rename_i ht
    rw [ht]
    exact h
  · rename_i ht
    rw [ht]
    exact trivial

end Balances

/-- What entering a call does to the total. -/
theorem enterCall_balances {body : Exec Exit} (hb : Balances env.store body) (c : Call) :
    Balances env.store (enterCall env body c) := by
  rw [enterCall_eq]
  refine (Balances.of_charge _ _).bind fun _ => Balances.bind ?_ fun _ => ?_
  · unfold bring
    split_ifs
    · exact (Balances.of_charge _ _).bind fun _ => .of_transfer _ _ _
    · exact .pure _
  · refine (Balances.of_inspect _).bind fun code => ?_
    split_ifs
    · exact .pure _
    · exact (Balances.of_modifyFrame _).bind fun _ => hb

theorem claim_balances (address : Address) : Balances env.store (claim env address) := by
  refine (Balances.of_inspect _).bind fun existing => ?_
  split_ifs
  · exact .of_fail _
  · refine .of_modifyView fun v => ?_
    rw [View.sight_setNonce]
    exact Sight.total_putAccount_of_balance rfl

theorem deploy_balances (address : Address) (code : Bytes) :
    Balances env.store (deploy env address code) := by
  have pays : Balances env.store (do
      charge (mulGasCapped (gasOfNat code.length) env.params.effects.createData) "code_deposit"
      modifyView fun v => v.setCode env.store address code) := by
    refine (Balances.of_charge _ _).bind fun _ => .of_modifyView fun v => ?_
    rw [View.sight_setCode, Sight.total_putCode]
    exact Sight.total_putAccount_of_balance rfl
  unfold deploy
  dsimp only
  split_ifs
  · exact (Balances.of_fail _).bind fun _ => pays
  · exact pays

/-- What entering a creation does to the total. -/
theorem enterCreation_balances {body : Exec Exit} (hb : Balances env.store body)
    (address : Address) (c : Creation) :
    Balances env.store (enterCreation env body address c) := by
  rw [enterCreation_eq]
  refine (Balances.of_charge _ _).bind fun _ => (claim_balances address).bind fun _ =>
    Balances.bind ?_ fun _ => ?_
  · unfold endow
    split_ifs
    · exact .of_transfer _ _ _
    · exact .pure _
  · refine (Balances.of_modifyFrame _).bind fun _ => hb.bind fun exit => ?_
    cases exit with
    | returned code => exact (deploy_balances address code).bind fun _ => .pure _
    | reverted output => exact .pure _

end Exec

/-! ### Whole frames -/

section Frames

variable {env : Setting} {body : Exec Exit} {w w' : World} {r : FrameResult}

/-- A frame that is left with the total that it was entered with. -/
theorem Settled.total {s : Store} {v : View} {result : EStateM.Result Stop Machine Exit}
    (h : Settled v.checkpoint.1 result r w) (hr : r.error = none)
    (ok : ∀ exit m, result = .ok exit m → View.Inside s v.checkpoint.2 m.world.view ∧
      (m.world.view.sight s).total = (v.checkpoint.2.sight s).total) :
    (w.view.sight s).total = (v.sight s).total := by
  cases h with
  | returned output m =>
    obtain ⟨hin, ht⟩ := ok _ m rfl
    dsimp only
    rw [View.sight_commitTo hin, ht, View.sight_checkpoint]
  | reverted output m => cases hr
  | burnt _ _ => cases hr
  | kept _ => cases hr

theorem callWith_conserves (hb : Exec.Keeps Stop.OfCode (Machine.Conserves env.store) body)
    {c : Call} (h : callWith env body c w = .ok (r, w')) :
    (w'.view.sight env.store).total = (w.view.sight env.store).total := by
  have hstays := Machine.Conserves.staysInside hb
  by_cases hr : r.error = none
  · obtain ⟨e, -, rfl, -⟩ | ⟨-, hs⟩ := callWith_cases h
    · cases hr
    · have hin := Exec.enterCall_keeps (Steady.inside env) hstays c (c.machine w)
      have ht := Exec.enterCall_balances (.of_keeps hb) c (c.machine w)
      exact hs.total hr fun exit m hm => ⟨hin.of_ok hm, ht.of_ok hm⟩
  · rw [(callWith_atomic hstays h).2 hr]

theorem createWith_conserves (hb : Exec.Keeps Stop.OfCode (Machine.Conserves env.store) body)
    {c : Creation} (h : createWith env body c w = .ok (r, w')) :
    (w'.view.sight env.store).total = (w.view.sight env.store).total := by
  have hstays := Machine.Conserves.staysInside hb
  obtain ⟨e, -, -, rfl⟩ | ⟨hn, view, r', hv, hs, rfl⟩ := createWith_cases h
  · rfl
  · obtain ⟨-, -, hsight⟩ := (View.bumpNonce_meets env.store c.creator w.view).of_ok hv
    have hbump : (view.sight env.store).total = (w.view.sight env.store).total := by
      rw [hsight]
      exact Sight.total_putAccount_of_balance rfl
    rw [← hbump]
    have hin := Exec.enterCreation_keeps (Steady.inside env) hstays (c.address env w) c
      (c.machine env w view)
    by_cases hr : r'.error = none
    · have ht := Exec.enterCreation_balances (.of_keeps hb) (c.address env w) c
        (c.machine env w view)
      exact hs.total hr fun exit m hm => ⟨hin.of_ok hm, ht.of_ok hm⟩
    · have hfail := (hs.atomic (s := env.store) (fun exit m hm => hin.of_ok hm)
        fun e m hm => (hin.of_error hm).2 e rfl).2
      rw [hfail hr]

end Frames

/-- A run leaves the total as it is, whether it ends well or not. -/
theorem Exec.run_conserves (env : Setting) (steps : Nat) :
    Exec.Keeps Stop.OfCode (Machine.Conserves env.store) (Exec.run env steps) := by
  refine Exec.run_keeps (Machine.Conserves.lasting env.store) ?_ ?_ steps
  · intro body hb m c gas r w _ _ _ h
    have hstays := Machine.Conserves.staysInside hb
    exact ⟨(callWith_atomic hstays h).1, callWith_conserves hb h⟩
  · intro body hb m c gas r w _ _ _ h
    have hstays := Machine.Conserves.staysInside hb
    exact ⟨(createWith_atomic hstays h).1, createWith_conserves hb h⟩

/-! ### Transitions and blocks -/

/-- A store in which the changes of a view are made has the total that the view showed. -/
theorem Store.total_apply_pending {s : Store} {v : View} (h : ∀ a, v.backing s a = s.account a) :
    (s.apply v.pending).total = (v.sight s).total := by
  unfold Store.total Sight.total
  rw [View.account_apply_pending h, View.sight_account]

/-- The view that a transition starts on shows the store. -/
theorem View.total_sight_fresh (s : Store) (txHash : Hash) :
    ((View.fresh.tagged txHash).resync.sight s).total = s.total := rfl

/-- A message leaves the total as it is, and does not touch what lies behind the layers. -/
theorem Engine.RunsCode.run_conserves {params : Params} {e : Engine} (he : e.RunsCode params)
    {context : Context} {store : Store} {m : Message} {gas : Gas} {w w' : World} {r : FrameResult}
    (h : e.run context store m gas w = .ok (r, w')) :
    View.Inside store w.view w'.view ∧ (w'.view.sight store).total = (w.view.sight store).total := by
  have hb := fun steps => Exec.run_conserves ⟨params, context, store⟩ steps
  have hi := fun steps => Exec.run_inside ⟨params, context, store⟩ steps
  obtain ⟨steps, c, -, hr⟩ | ⟨steps, c, -, hr⟩ := he.run_cases context store m gas w
  · rw [hr] at h
    have ht := callWith_conserves (hb steps) h
    exact ⟨(callWith_atomic (hi steps) h).1, ht⟩
  · rw [hr] at h
    have ht := createWith_conserves (hb steps) h
    exact ⟨(createWith_atomic (hi steps) h).1, ht⟩

/-- A transition leaves the total of the store as it is. -/
theorem Processor.execute_conserves {p : Processor} (he : p.engine.RunsCode p.params)
    (m : Message) (a : Ambient) (t : Transition) (a' : Ambient)
    (h : p.execute m a = .ok (t, a')) : a'.store.total = a.store.total := by
  have hx := execute_cases p m a
  rw [h] at hx
  cases hx with
  | failed _ => rfl
  | uncharged _ _ => rfl
  | unpublished _ _ _ => rfl
  | @effective run _ _ _ hok _ hp =>
    obtain ⟨w, hr, -, hview⟩ := attempt_eq_ok hok
    obtain ⟨hin, ht⟩ := he.run_conserves hr
    unfold View.publish at hp
    split_ifs at hp with hcommit hreadOnly
    · cases hcommit
    · cases hp
      have hback : ∀ b, w.view.backing a.store b = a.store.account b := by
        intro b
        rw [hin.backing]
        exact View.backing_resync _ _ b
      dsimp only
      rw [hview, Store.total_apply_pending hback, ht]
      exact View.total_sight_fresh _ _

/-- **No value is made or lost**: all balances together are the same after a transition
as before it, whatever its message and its outcome, and so they are after a block. It
holds of every engine that runs code, in as many steps as it likes. -/
theorem total_conserved :
    (∀ params, (Engine.machine params).RunsCode params) ∧
    ∀ p : Processor, p.engine.RunsCode p.params →
      (∀ m a t a', p.execute m a = .ok (t, a') →
        a'.store.total = a.store.total) ∧
      (∀ b s result s', BlockExecution.executeWith (.ofProcessor p) b s = .ok (result, s') →
        s'.total = s.total) := by
  refine ⟨Engine.runsCode_machine, fun p he => ⟨Processor.execute_conserves he, ?_⟩⟩
  intro b s result s' h
  refine BlockExecution.executeWith_keeps (R := fun s s' => s'.total = s.total) (fun _ => rfl)
    (fun _ _ _ h h' => h'.trans h) ?_ h
  exact fun m a t a' h => Processor.execute_conserves he m a t a' h

/-! ### Value in motion -/

namespace MovingValue

open BlockExecution.BurntBlock (target)

/-- Calls account 3 with value. -/
def pays : Bytes :=
  [0x60, 0, 0x60, 0, 0x60, 0, 0x60, 0, 0x60, 5, 0x60, 3, 0x61, 0x60, 0x00, 0xf1]

/-- Calls its own account with value. -/
def paysItself : Bytes :=
  [0x60, 0, 0x60, 0, 0x60, 0, 0x60, 0, 0x60, 2, 0x30, 0x61, 0x27, 0x10, 0xf1]

/-- Account 1 has value to give, and accounts 2 and 3 have the code. -/
def store : Store :=
  ((Store.ofAccounts [(⟨1⟩, .ofBalance 1000), (⟨2⟩, ⟨1, 70, ⟨7⟩⟩)]).putCode ⟨2⟩ pays).putCode ⟨3⟩
    paysItself

/-- Account 1 calls account 2, with value. -/
def message : Message := .invoke ⟨1⟩ ⟨2⟩ 10 [] 100000

/-- A transaction around it, before its first charge. -/
def ambient : Ambient := ⟨.bounded 100000, .genesis, [], store⟩

/-- The balances of the three accounts. -/
def balances (s : Store) : List Nat := [1, 2, 3].map fun n => (s.account ⟨n⟩).balance.toNat

/-- The account that the block calls has the code that pays, too. -/
def calledStore : Store := (store.putAccount target ⟨1, 20, ⟨7⟩⟩).putCode target pays

end MovingValue

open MovingValue BlockExecution in
open BurntBlock (target block ready prepare_block) in
/-- Value moves between three accounts, and the call of an account by itself fails on the
way; and the account that a block calls pays another one. -/
theorem total_conserved_moving :
    (∃ t a', (Processor.ofParams .standard).execute message ambient = .ok (t, a') ∧
      t.isSuccess = true ∧
      balances a'.store = [990, 75, 5] ∧
      a'.store.total = store.total) ∧
    ∃ e s', BlockExecution.execute .standard (block 1) calledStore = .ok (.ok e, s') ∧
      e.receipts.map (·.succeeded) = [true] ∧
      (s'.account target).balance.toNat = 15 ∧ balances s' = [1000, 70, 5] ∧
      s'.total = calledStore.total := by
  have hpaid : ((Processor.ofParams .standard).execute message ambient).toOption.bind
      (fun e => some (e.1.isSuccess, balances e.2.store)) = some (true, [990, 75, 5]) := by
    decide +kernel
  have hcalled : (executeAll (.ofProcessor (.ofParams .standard)) (block 1).header
      (List.replicate 1 (ready OnceOnly.payer)) ⟨[], 0, [], calledStore⟩).toOption.bind
        (fun answer => answer.1.toOption.bind fun done =>
          some (done.receipts.reverse.map (·.succeeded),
            (done.store.account target).balance.toNat, balances done.store))
      = some ([true], 15, [1000, 70, 5]) := by
    decide +kernel
  obtain ⟨hmessage, hblock⟩ := total_conserved.2 (.ofParams .standard)
    (Engine.runsCode_machine .standard)
  constructor
  · obtain ⟨⟨t, a'⟩, ht, hread⟩ := exists_of_read hpaid
    rw [Option.some.injEq, Prod.mk.injEq] at hread
    obtain ⟨hs, hb⟩ := hread
    exact ⟨t, a', ht, hs, hb, hmessage message ambient t a' ht⟩
  · obtain ⟨⟨answer, s'⟩, hall, hread⟩ := exists_of_read hcalled
    obtain ⟨done, rfl, hshown⟩ := exists_of_read hread
    simp only [Option.some.injEq, Prod.mk.injEq] at hshown
    obtain ⟨hreceipts, htarget, hbalances⟩ := hshown
    have hprepared := prepare_block (.ofParams .standard) 1
    rw [OnceOnly.ofPublicKey_key] at hprepared
    obtain ⟨rfl, hexecuted⟩ := executeWith_of_executeAll hprepared hall
    exact ⟨_, _, hexecuted, hreceipts, htarget, hbalances, hblock _ _ _ _ hexecuted⟩

end MeteredLedger
