import MeteredLedger.Proofs.Engine
import MeteredLedger.Proofs.Frame.Deeds
import MeteredLedger.Proofs.Transition
import MeteredLedger.Proofs.View.Publish

/-!
# What a transition makes of the store

A transition that does not take effect leaves the store as it is. One that takes effect
has done what its message asks for (`Message.Done`), on a view of the store as it was, and
the store reads afterwards as that view does (`Processor.execute_effect`). What it changes
is known as a whole (`Processor.changes`): the store after it is the store before it with
these changes made.
-/

namespace MeteredLedger

/-- What a message does that is carried out well, and the contract that it makes. -/
inductive Message.Done (env : Setting) (v : View) : Message → Option Address → View → Prop where
  /-- The recipient is called. -/
  | invoke {sender recipient : Address} {value : Wei} {payload : Bytes} {gasLimit gas : Gas}
      {w : View}
      (done : Call.Done env ⟨sender, recipient, payload, gas, value, 0⟩ v.checkpoint.2 w) :
      Done env v (.invoke sender recipient value payload gasLimit) none w
  /-- A contract is made, at the address that the sender's nonce gives. -/
  | create {sender address : Address} {value : Wei} {initCode code : Bytes} {gasLimit gas : Gas}
      {v₁ w : View} (named : address = .ofCreation sender (v.account env.store sender).nonce)
      (bump : View.bumpNonce env.store sender v = .ok () v₁)
      (done : Creation.Done env ⟨sender, initCode, gas, value, 0⟩ address code
        v₁.checkpoint.2 w) :
      Done env v (.create sender value initCode gasLimit) (some address) w

/-- What a message does is a deed of its sender. -/
theorem Message.Done.deeds {env : Setting} {v w : View} {m : Message} {contract : Option Address}
    (h : m.Done env v contract w) : Deeds env m.sender v w := by
  cases h with
  | invoke done => exact .trans (.nothing (View.checkpoint_alike _ _)) done.deeds
  | create named bump done =>
    subst named
    exact .trans (.bump bump) (.trans (.nothing (View.checkpoint_alike _ _)) done.deeds)

/-- What a frame hands back of itself does not name a contract. -/
theorem Settled.address_eq_none {mark : View.Mark} {result : EStateM.Result Stop Machine Exit}
    {r : FrameResult} {w : World} (h : Settled mark result r w) : r.address = none := by
  cases h <;> rfl

/-- A call makes no contract. -/
theorem callWith_address {env : Setting} {body : Exec Exit} {c : Call} {w w' : World}
    {r : FrameResult} (h : callWith env body c w = .ok (r, w')) : r.address = none := by
  obtain ⟨e, -, rfl, -⟩ | ⟨-, hs⟩ := callWith_cases h
  · rfl
  · exact hs.address_eq_none

/-- **A run does what its message asks for**, if it ends without an error. -/
theorem Engine.RunsCode.run_done {params : Params} {e : Engine} (he : e.RunsCode params)
    {context : Context} {store : Store} {m : Message} {gas : Gas} {w w' : World} {r : FrameResult}
    (h : e.run context store m gas w = .ok (r, w')) (hr : r.error = none) :
    View.Inside store w.view w'.view ∧ ∃ v,
      m.Done ⟨params, context, store⟩ w.view r.address v ∧ View.Alike store v w'.view := by
  have hb := fun steps => Exec.run_acts ⟨params, context, store⟩ steps
  cases m with
  | invoke sender recipient value payload gasLimit =>
    obtain ⟨steps, heq⟩ := he.call context store ⟨sender, recipient, payload, gas, value, 0⟩ w
    have h : callWith _ _ _ w = .ok (r, w') := heq.symm.trans h
    obtain ⟨v, hdone, halike⟩ := (callWith_done (hb steps) h).2 hr
    rw [callWith_address h]
    exact ⟨(callWith_atomic (Exec.Acts.staysInside (hb steps)) h).1, v, .invoke hdone, halike⟩
  | create sender value initCode gasLimit =>
    obtain ⟨steps, heq⟩ := he.create context store ⟨sender, initCode, gas, value, 0⟩ w
    have h : createWith _ _ _ w = .ok (r, w') := heq.symm.trans h
    obtain ⟨haddress, v₁, v₂, hbump, hdone, halike⟩ := (createWith_done (hb steps) h).2 hr
    rw [haddress]
    exact ⟨(createWith_atomic (Exec.Acts.staysInside (hb steps)) h).1, v₂,
      .create rfl hbump hdone, halike⟩

/-! ### Outcomes -/

theorem Outcome.isSuccess_ofError (e : LedgerError) (output : Bytes) (gas : Gas) :
    (Outcome.ofError e output gas).isSuccess = false := by
  cases e <;> rfl

theorem Outcome.contract?_of_not_isSuccess {o : Outcome} (h : o.isSuccess = false) :
    o.contract? = none := by
  cases o with
  | success => cases h
  | _ => rfl

/-- The logs that a transition reports are those that its run has left. -/
theorem Transition.logs_succeeded (outcome : Outcome) (txHash : Hash) (logs : List Log) :
    (succeeded outcome txHash logs).logs = logs := by
  unfold succeeded Transition.logs
  rw [List.filterMap_append, List.filterMap_map]
  cases outcome.contract? <;> simp [Function.comp_def, Event.log?]

namespace Processor

/-- An attempt that fails does not report a success. -/
theorem attempt_isSuccess {p : Processor} {m : Message} {header : Header} {store : Store}
    {view : View} {g : Grant} {outcome : Outcome}
    (h : p.attempt m header store view g = .ok (.error outcome)) : outcome.isSuccess = false := by
  unfold attempt at h
  dsimp only at h
  split at h
  · cases h
  · unfold classify at h
    split at h
    · cases h
    · cases h
      rfl
    · split at h
      · cases h
        exact Outcome.isSuccess_ofError _ _ _
      · split_ifs at h
        · cases h
          rfl
        · cases h

/-! ### Changes -/

/-- The view that a transition starts on. -/
def startView (a : Ambient) : View := (View.fresh.tagged (Hash.digest a.txBytes)).resync

/-- The setting that a transition runs in. -/
def settingOf (p : Processor) (m : Message) (a : Ambient) : Setting :=
  ⟨p.params, .ofHeader a.header m.sender (Grant.ofMeter a.meter m.gasLimit).gas, a.store⟩

/-- **What a transition changes in the store**: the changes of its view if it takes effect,
else nothing. -/
def changes (p : Processor) (m : Message) (a : Ambient) : Changes :=
  match p.attemptOf m a, p.execute m a with
  | .ok (.ok run), .ok (t, _) => if t.isSuccess then run.view.pending else .empty
  | _, _ => .empty

theorem changes_of_failure {p : Processor} {m : Message} {a a' : Ambient} {t : Transition}
    (h : p.execute m a = .ok (t, a')) (ht : t.isSuccess = false) : p.changes m a = .empty := by
  unfold changes
  rw [h]
  split
  · rename_i heq
    cases heq
    simp [ht]
  · rfl

theorem changes_of_success {p : Processor} {m : Message} {a a' : Ambient} {t : Transition}
    {run : Finished} (h : p.execute m a = .ok (t, a')) (ht : t.isSuccess = true)
    (ha : p.attemptOf m a = .ok (.ok run)) : p.changes m a = run.view.pending := by
  simp [changes, h, ha, ht]

/-- **What becomes of the store.** -/
inductive Effect (p : Processor) (m : Message) (a : Ambient) (t : Transition) (a' : Ambient) :
    Prop where
  /-- Nothing: the transition does not take effect. -/
  | none (success : t.isSuccess = false) (contract : t.outcome.contract? = .none)
      (changes : p.changes m a = .empty) (store : a'.store = a.store)
  /-- The message is carried out, and the store reads as the view that shows it. -/
  | some {v : View} (success : t.isSuccess = true)
      (done : m.Done (p.settingOf m a) (startView a) t.outcome.contract? v)
      (code : ∀ x : Address, (p.changes m a).code[x]? = v.find? (·.code[x]?))
      (store : a'.store = a.store.apply (p.changes m a))
      (sight : a'.store.sight v.logs = v.sight a.store)

/-- **A transition that takes effect has done what its message asks for**, on a view that the
store then reads as, and whose logs it reports. -/
theorem execute_done {p : Processor} (he : p.engine.RunsCode p.params) {m : Message}
    {a a' : Ambient} {t : Transition} (h : p.execute m a = .ok (t, a')) (ht : t.isSuccess = true) :
    ∃ v, m.Done (p.settingOf m a) (startView a) t.outcome.contract? v ∧
      (∀ x : Address, (p.changes m a).code[x]? = v.find? (·.code[x]?)) ∧
      a'.store = a.store.apply (p.changes m a) ∧ a'.store.sight t.logs = v.sight a.store := by
  have hx := execute_cases p m a
  rw [h] at hx
  cases hx with
  | failed ha => exact absurd ht (Bool.eq_false_iff.1 (attempt_isSuccess ha))
  | uncharged _ _ => cases ht
  | unpublished _ _ _ => cases ht
  | @effective run meter logs store ha hc hp =>
    have hchanges := changes_of_success h rfl ha
    obtain ⟨w, hr, herror, hview⟩ := attempt_eq_ok ha
    obtain ⟨hin, v, hdone, halike⟩ := he.run_done hr herror
    have hback : ∀ x, w.view.backing a.store x = a.store.account x := fun x =>
      (hin.backing x).trans (View.backing_resync _ _ x)
    obtain ⟨hlogs, hstore⟩ : logs = w.view.logs ∧ store = a.store.apply w.view.pending := by
      unfold View.publish at hp
      split_ifs at hp with hcommit
      · cases hcommit
      · cases hp
        rw [hview]
        exact ⟨rfl, rfl⟩
    rw [hview] at hchanges
    refine ⟨v, hdone, fun x => ?_, by rw [hchanges, hstore], ?_⟩
    · rw [hchanges, View.code_pending, halike.code]
    · rw [Transition.logs_succeeded, hlogs, hstore, View.sight_apply_pending hback, halike.sight]

/-- **What a transition makes of the store**, for every engine that runs code. -/
theorem execute_effect {p : Processor} (he : p.engine.RunsCode p.params) {m : Message}
    {a a' : Ambient} {t : Transition} (h : p.execute m a = .ok (t, a')) : Effect p m a t a' := by
  have unchanged : t.isSuccess = false → a'.store = a.store → Effect p m a t a' :=
    fun ht hs => .none ht (Outcome.contract?_of_not_isSuccess ht) (changes_of_failure h ht) hs
  have hx := execute_cases p m a
  rw [h] at hx
  cases hx with
  | failed ha => exact unchanged (attempt_isSuccess ha) rfl
  | uncharged _ _ => exact unchanged rfl rfl
  | unpublished _ _ _ => exact unchanged rfl rfl
  | effective _ _ _ =>
    obtain ⟨v, done, code, store, sight⟩ := execute_done he h rfl
    have logs : Transition.logs _ = v.logs := congrArg Sight.logs sight
    exact .some rfl done code store (logs ▸ sight)

end Processor

end MeteredLedger
