import MeteredLedger.Proofs.Engine
import MeteredLedger.Proofs.Frame.Likeness

/-!
# What code does not see

A view carries a label: the transaction that it belongs to, and whether it may be published.
Neither reading nor writing looks at it, and so no code can tell. An action overlooks a
change of its state if it comes to the same with the change as without, and leaves the change
in place (`Overlooks`). Machines that differ in the label alone are alike for code and for what is
done around it (`Exec.likeness_labelled`, `Exec.frameLikeness_labelled`), so all instructions
overlook a change of the label (`Exec.step_blind`), and so do runs (`Exec.run_blind`) and frames.

An engine that does not see labels answers alike for all transactions, and for a view that may
never be published (`Engine.Blind`). The one that runs code is blind to them, and so is every
one that answers as it is told.
-/

namespace MeteredLedger

/-! ### Changes of the state that make no difference -/

/-- What an action comes to, with a change of the state. -/
def mapState {ε σ α : Type} (f : σ → σ) : EStateM.Result ε σ α → EStateM.Result ε σ α
  | .ok a s => .ok a (f s)
  | .error e s => .error e (f s)

/-- **The action overlooks a change of its state**: it comes to the same, and the change
stays. -/
def Overlooks {ε σ α : Type} (f : σ → σ) (x : EStateM ε σ α) : Prop :=
  ∀ s, x (f s) = mapState f (x s)

namespace Overlooks

variable {ε σ α β : Type} {f : σ → σ} {x : EStateM ε σ α}

theorem pure (a : α) : Overlooks f (Pure.pure a : EStateM ε σ α) := fun _ => rfl

theorem throw (e : ε) : Overlooks f (MonadExcept.throw e : EStateM ε σ α) := fun _ => rfl

theorem bind {k : α → EStateM ε σ β} (hx : Overlooks f x) (hk : ∀ a, Overlooks f (k a)) :
    Overlooks f (x >>= k) := by
  intro s
  rw [bind_apply, bind_apply, hx]
  cases x s with
  | ok a s' => exact hk a s'
  | error e s' => rfl

end Overlooks

/-! ### Views -/

namespace View

/-- What a view is besides its contents. -/
structure Label where
  /-- The transaction that it belongs to. -/
  txHash : Hash
  /-- Whether it may never be published. -/
  isReadOnly : Bool

/-- The view under another label. -/
def labelled (l : Label) (v : View) : View :=
  { v with txHash := l.txHash, isReadOnly := l.isReadOnly }

variable (l : Label) (s : Store) (v : View) (a : Address)

theorem modifyTop_labelled (f : Layer → Layer) :
    (v.labelled l).modifyTop f = (v.modifyTop f).labelled l := by
  unfold modifyTop labelled
  cases v.scopes <;> rfl

theorem putAccount_labelled (x : Account) :
    (v.labelled l).putAccount a x = (v.putAccount a x).labelled l := modifyTop_labelled l v _

theorem touch_labelled :
    (v.labelled l).touch s a = ((v.touch s a).1, (v.touch s a).2.labelled l) := by
  unfold touch
  rw [show (v.labelled l).find? (·.accounts[a]?) = v.find? (·.accounts[a]?) from rfl,
    show (v.labelled l).remembered = v.remembered from rfl]
  cases v.find? (·.accounts[a]?) with
  | some x => simp only [putAccount_labelled]
  | none =>
    cases v.remembered[a]? with
    | some x => simp only [putAccount_labelled]
    | none => exact congrArg _ (putAccount_labelled l { v with remembered := _ } a _)

theorem debit_overlooks (amount : Wei) : Overlooks (labelled l) (debit s a amount) := by
  intro v
  unfold debit
  rw [touch_labelled]
  dsimp only
  cases (v.touch s a).1.debit? amount with
  | some x => exact congrArg _ (putAccount_labelled l _ a x)
  | none => rfl

theorem credit_overlooks (amount : Wei) : Overlooks (labelled l) (credit s a amount) := by
  intro v
  unfold credit
  rw [touch_labelled]
  dsimp only
  cases (v.touch s a).1.credit? amount with
  | some x => exact congrArg _ (putAccount_labelled l _ a x)
  | none => rfl

theorem transfer_overlooks (source target : Address) (amount : Wei) :
    Overlooks (labelled l) (transfer s source target amount) :=
  (debit_overlooks l s source amount).bind fun _ => credit_overlooks l s target amount

theorem bumpNonce_overlooks : Overlooks (labelled l) (bumpNonce s a) := by
  intro v
  unfold bumpNonce
  rw [touch_labelled]
  dsimp only
  cases (v.touch s a).1.bumpNonce with
  | ok x => exact congrArg _ (putAccount_labelled l _ a x)
  | error f => rfl

theorem setNonce_labelled (nonce : Nonce) :
    (v.labelled l).setNonce s a nonce = (v.setNonce s a nonce).labelled l := by
  unfold setNonce
  rw [touch_labelled]
  exact putAccount_labelled l _ a _

theorem setCode_labelled (code : Bytes) :
    (v.labelled l).setCode s a code = (v.setCode s a code).labelled l := by
  unfold setCode
  rw [touch_labelled]
  dsimp only
  rw [putAccount_labelled, modifyTop_labelled]

theorem commitTop_labelled : (v.labelled l).commitTop = v.commitTop.labelled l := by
  unfold commitTop labelled
  dsimp only
  split <;> rfl

theorem commitScopes_labelled (n : Nat) :
    commitScopes n (v.labelled l) = (commitScopes n v).labelled l := by
  induction n generalizing v with
  | zero => rfl
  | succ n ih => rw [commitScopes, commitScopes, commitTop_labelled, ih]

theorem commitTo_labelled (mark : Mark) :
    (v.labelled l).commitTo mark = (v.commitTo mark).labelled l := commitScopes_labelled l v _

end View

/-- The world whose view has another label. -/
def World.labelled (l : View.Label) (w : World) : World := { w with view := w.view.labelled l }

/-- The machine whose view has another label. -/
def Machine.labelled (l : View.Label) (m : Machine) : Machine :=
  { m with world := m.world.labelled l }

/-! ### Instructions -/

/-- An action overlooks a change of the machine if it follows itself on the machine so changed. -/
theorem overlooks_iff_follows {α : Type} {f : Machine → Machine} {x : Exec α} :
    Overlooks f x ↔ Exec.Follows (fun _ => True) (fun m m' => m' = f m) x x := by
  constructor
  · rintro h m _ rfl
    have hm := h m
    unfold Exec.FollowsAt Meets
    cases hx : x m with
    | ok a m₁ => exact ⟨f m₁, by rw [hm, hx]; rfl, rfl⟩
    | error stop m₁ => exact fun _ => ⟨f m₁, by rw [hm, hx]; rfl, rfl⟩
  · intro h m
    have hm := h m (f m) rfl
    unfold Exec.FollowsAt Meets at hm
    cases hx : x m with
    | ok a m₁ =>
      rw [hx] at hm
      obtain ⟨_, hf, rfl⟩ := hm
      exact hf
    | error stop m₁ =>
      rw [hx] at hm
      obtain ⟨_, hf, rfl⟩ := hm trivial
      exact hf

namespace Exec

variable {α β : Type}

/-- **The action does not see labels**: it overlooks every change of the view's. -/
def Blind (x : Exec α) : Prop := ∀ l, Overlooks (Machine.labelled l) x

theorem Blind.bind {x : Exec α} {k : α → Exec β} (hx : Blind x) (hk : ∀ a, Blind (k a)) :
    Blind (x >>= k) := fun l => (hx l).bind fun a => hk a l

theorem blind_pure (a : α) : Blind (pure a) := fun _ => .pure a

theorem blind_throw (stop : Stop) : Blind (throw stop : Exec α) := fun _ => .throw stop

theorem blind_inspect {g : Machine → α} (h : ∀ l m, g (m.labelled l) = g m) :
    Blind (inspect g) := by
  intro l m
  show EStateM.Result.ok (g (m.labelled l)) (m.labelled l) = .ok (g m) (m.labelled l)
  rw [h]

theorem blind_modifyFrame (g : Frame → Frame) : Blind (modifyFrame g) := fun _ _ => rfl

theorem blind_onView {act : ViewM α} (h : ∀ l, Overlooks (View.labelled l) act) :
    Blind (onView act) := by
  intro l m
  unfold onView
  rw [show (m.labelled l).world.view = m.world.view.labelled l from rfl, h l]
  cases act m.world.view <;> rfl

theorem blind_charge (amount : Gas) (label : String) : Blind (charge amount label) := by
  intro l m
  unfold charge
  rw [show (m.labelled l).gas = m.gas from rfl]
  cases m.gas.consume amount label <;> rfl

theorem blind_setAside (amount : Gas) (label : String) : Blind (setAside amount label) := by
  intro l m
  unfold setAside
  rw [show (m.labelled l).gas = m.gas from rfl]
  cases m.gas.consume amount label <;> rfl

theorem blind_giveBack (amount : Gas) (label : String) : Blind (giveBack amount label) :=
  fun _ _ => rfl

/-- **Code cannot tell labels apart.** -/
theorem likeness_labelled (env : Setting) (l : View.Label) :
    Likeness env (fun _ => True) fun m m' => m' = m.labelled l where
  frame := by
    rintro m _ rfl
    rfl
  code := by
    rintro m _ rfl
    rfl
  goOn := by
    rintro m _ rfl g -
    rfl
  sight := by
    rintro m _ rfl
    rfl
  write := by
    rintro m _ rfl slot value
    show (m.labelled l).withView ((m.world.view.labelled l).setSlot slot value) = _
    rw [View.setSlot, View.modifyTop_labelled]
    rfl
  leave := by
    rintro m _ rfl log
    show (m.labelled l).withView ((m.world.view.labelled l).addLog log) = _
    rw [View.addLog, View.modifyTop_labelled]
    rfl
  pay amount label := overlooks_iff_follows.1 (blind_charge amount label l)
  left := by
    rintro m _ rfl _
    rfl

theorem blind_push (env : Setting) (w : Word) : Blind (push w) := fun l =>
  overlooks_iff_follows.2 ((likeness_labelled env l).push w)

theorem blind_writeMemory (env : Setting) (offset : Nat) (bs : Bytes) :
    Blind (writeMemory offset bs) := fun l =>
  overlooks_iff_follows.2 ((likeness_labelled env l).writeMemory offset bs)

/-- **No instruction sees labels.** -/
theorem step_blind (env : Setting) (byte : UInt8) : Blind (step env byte) := by
  intro l
  have hlike := likeness_labelled env l
  have hleft : ∀ m m' : Machine, m' = m.labelled l → m'.gas.remaining = m.gas.remaining := by
    rintro m _ rfl
    rfl
  have haside := fun amount label => overlooks_iff_follows.1 (blind_setAside amount label l)
  have hhashes : ∀ number, env.context.blockHash number = env.context.blockHash number :=
    fun _ => rfl
  refine overlooks_iff_follows.2 (hlike.step hhashes ?_ ?_
    (fun _ => hlike.create hleft haside _) fun _ => hlike.call hleft haside _)
  · rintro r - m _ rfl
    cases r <;> rfl
  · rintro - m _ rfl dest
    rfl

end Exec

/-! ### Frames -/

/-- **Whether value may be given away does not depend on the label.** -/
def Context.Blind (context : Context) : Prop :=
  ∀ l store v a amount,
    context.mayTransfer store (View.labelled l v) a amount = context.mayTransfer store v a amount

/-- What is asked of balances alone does not. -/
theorem Context.blind_ofHeader (header : Header) (origin : Address) (gasLimit : Gas) :
    (ofHeader header origin gasLimit).Blind := fun _ _ _ _ _ => rfl

/-- The frame does not see the label of the view that it is entered with, and leaves it. -/
def FrameResult.Blind (enter : World → Except Abort (FrameResult × World)) : Prop :=
  ∀ l w, enter (w.labelled l) = (enter w).map (Prod.map id (World.labelled l))

theorem settle_labelled (l : View.Label) (mark : View.Mark)
    (result : EStateM.Result Stop Machine Exit) :
    settle mark (mapState (Machine.labelled l) result)
      = (settle mark result).map (Prod.map id (World.labelled l)) := by
  cases result with
  | ok exit m =>
    cases exit with
    | returned output =>
      show Except.ok (_, { m.world with view := (m.world.view.labelled l).commitTo mark }) = _
      rw [View.commitTo_labelled]
      rfl
    | reverted output => rfl
  | error stop m =>
    cases stop with
    | abort a => rfl
    | error e =>
      unfold settle mapState
      dsimp only
      rw [show (m.labelled l).gas = m.gas from rfl]
      split_ifs
      · cases m.gas.burn "exhausted" <;> rfl
      · rfl

namespace Exec

variable {env : Setting} {body : Exec Exit}

theorem blind_transfer (source target : Address) (amount : Wei) :
    Blind (onView (View.transfer env.store source target amount)) :=
  blind_onView fun l => View.transfer_overlooks l env.store source target amount

/-- **Frames cannot tell labels apart**, either. -/
theorem frameLikeness_labelled (env : Setting) (l : View.Label) :
    FrameLikeness env (fun _ => True) fun m m' => m' = m.labelled l where
  toLikeness := likeness_labelled env l
  load := by
    rintro m _ rfl code
    rfl
  transfer source target amount := overlooks_iff_follows.1 (blind_transfer source target amount l)
  take := by
    rintro m _ rfl address
    show (m.labelled l).withView ((m.world.view.labelled l).setNonce env.store address 1) = _
    rw [View.setNonce_labelled]
    rfl
  deposit := by
    rintro m _ rfl address code
    show (m.labelled l).withView ((m.world.view.labelled l).setCode env.store address code) = _
    rw [View.setCode_labelled]
    rfl

theorem blind_openCall (env : Setting) (c : Call) : Blind (openCall env c) := fun l =>
  overlooks_iff_follows.2 ((frameLikeness_labelled env l).openCall c)

theorem blind_openCreation (env : Setting) (address : Address) (c : Creation) :
    Blind (openCreation env address c) := fun l =>
  overlooks_iff_follows.2 ((frameLikeness_labelled env l).openCreation address c)

theorem blind_closeCreation (env : Setting) (address : Address) (exit : Exit) :
    Blind (closeCreation env address exit) := fun l =>
  overlooks_iff_follows.2 ((frameLikeness_labelled env l).closeCreation address exit)

theorem blind_enterCall (env : Setting) (hb : Blind body) (c : Call) :
    Blind (enterCall env body c) := by
  rw [enterCall_eq_open]
  refine (blind_openCall env c).bind fun hasCode => ?_
  cases hasCode with
  | true => exact hb
  | false => exact blind_pure _

theorem blind_enterCreation (env : Setting) (hb : Blind body) (address : Address)
    (c : Creation) :
    Blind (enterCreation env body address c) := by
  rw [enterCreation_eq_open]
  exact (blind_openCreation env address c).bind fun _ => hb.bind fun exit =>
    blind_closeCreation env address exit

theorem blind_descend {enter : World → Except Abort (FrameResult × World)}
    (h : FrameResult.Blind enter) : Blind (descend enter) := by
  intro l m
  unfold descend
  rw [show (m.labelled l).world = m.world.labelled l from rfl, h l]
  cases enter m.world <;> rfl

end Exec

section

variable {env : Setting} {body : Exec Exit}

theorem refusal?_labelled (hc : env.context.Blind) (l : View.Label) (w : World) (payer : Address)
    (value : Wei) (depth : Nat) :
    refusal? env (w.labelled l) payer value depth = refusal? env w payer value depth := by
  unfold refusal?
  rw [show (w.labelled l).view = w.view.labelled l from rfl, hc l]
  rfl

theorem blind_callWith (hc : env.context.Blind) (hb : Exec.Blind body) (c : Call) :
    FrameResult.Blind (callWith env body c) := by
  intro l w
  unfold callWith
  rw [refusal?_labelled hc]
  cases refusal? env w c.caller c.value c.depth with
  | some e => rfl
  | none =>
    have hframe := Exec.blind_enterCall env hb c l (c.machine w)
    show settle w.view.checkpoint.1 (Exec.enterCall env body c ((c.machine w).labelled l)) = _
    rw [hframe, settle_labelled]
    rfl

theorem blind_createWith (hc : env.context.Blind) (hb : Exec.Blind body) (c : Creation) :
    FrameResult.Blind (createWith env body c) := by
  intro l w
  have hrefusal := refusal?_labelled hc l w c.creator c.value c.depth
  have hbump := View.bumpNonce_overlooks l env.store c.creator w.view
  cases hn : refusal? env w c.creator c.value c.depth with
  | some e =>
    unfold createWith
    rw [hrefusal, hn]
    rfl
  | none =>
    cases hv : View.bumpNonce env.store c.creator w.view with
    | error stop view =>
      unfold createWith
      rw [hrefusal, hn]
      dsimp only
      rw [show (w.labelled l).view = w.view.labelled l from rfl, hbump, hv]
      cases stop <;> rfl
    | ok _ view =>
      rw [hv] at hbump
      have hframe := Exec.blind_enterCreation env hb (c.address env w) c l
        (c.machine env w view)
      rw [createWith_of_bumped hn hv, createWith_of_bumped (hrefusal.trans hn) hbump]
      show (settle view.checkpoint.1 (Exec.enterCreation env body (c.address env w) c
        ((c.machine env w view).labelled l))).map _ = _
      rw [hframe, settle_labelled]
      cases settle view.checkpoint.1
        (Exec.enterCreation env body (c.address env w) c (c.machine env w view)) <;> rfl

/-- A turn does not see labels if the frames below it do not. -/
theorem Exec.blind_turn (hc : env.context.Blind) (hb : Exec.Blind body) (byte : UInt8) :
    Exec.Blind (Exec.turn env body byte) := by
  refine (Exec.step_blind env byte).bind fun ctl => ?_
  cases ctl with
  | exit how => exact Exec.blind_pure _
  | jumped => exact Exec.blind_pure _
  | next => exact (Exec.blind_modifyFrame _).bind fun _ => Exec.blind_pure _
  | call c offset size =>
    refine (Exec.blind_descend (blind_callWith hc hb c)).bind fun result => ?_
    refine Exec.Blind.bind ?_ fun _ =>
      (Exec.blind_modifyFrame _).bind fun _ => Exec.blind_pure _
    exact (Exec.blind_giveBack _ _).bind fun _ => (Exec.blind_writeMemory env _ _).bind fun _ =>
      (Exec.blind_modifyFrame _).bind fun _ => Exec.blind_push env _
  | create c =>
    refine (Exec.blind_descend (blind_createWith hc hb c)).bind fun result => ?_
    refine Exec.Blind.bind ?_ fun _ =>
      (Exec.blind_modifyFrame _).bind fun _ => Exec.blind_pure _
    exact (Exec.blind_giveBack _ _).bind fun _ => (Exec.blind_modifyFrame _).bind fun _ =>
      Exec.blind_push env _

/-- **No run sees labels.** -/
theorem Exec.run_blind (hc : env.context.Blind) (steps : Nat) :
    Exec.Blind (Exec.run env steps) := by
  induction steps with
  | zero => exact Exec.blind_throw _
  | succ steps ih =>
    rw [Exec.run_succ]
    refine (Exec.blind_inspect fun _ _ => rfl).bind fun next => ?_
    cases next with
    | none => exact Exec.blind_pure _
    | some byte =>
      refine (Exec.blind_turn hc ih byte).bind fun exit => ?_
      cases exit with
      | some how => exact Exec.blind_pure _
      | none => exact ih

end

/-! ### Engines -/

/-- **The engine does not see labels**: it answers alike for all transactions, and for a view
that may never be published. -/
def Engine.Blind (e : Engine) : Prop :=
  ∀ header sender gasLimit store m gas,
    FrameResult.Blind (e.run (.ofHeader header sender gasLimit) store m gas)

theorem Engine.blind_machine (params : Params) : (machine params).Blind := by
  intro header sender gasLimit store m gas l w
  have hc : (Setting.mk params (.ofHeader header sender gasLimit) store).context.Blind :=
    Context.blind_ofHeader header sender gasLimit
  cases m with
  | create sender value initCode _ => exact blind_createWith hc (Exec.run_blind hc _) _ l w
  | invoke sender recipient value payload _ =>
    exact blind_callWith hc (Exec.run_blind hc _) _ l w

theorem Script.blind_engine (s : Script) : s.engine.Blind := by
  intro header sender gasLimit store m gas l w
  cases m with
  | create sender value initCode _ =>
    show Except.ok (_, { (s.count gas w).labelled l with
      view := (w.view.labelled l).setCode store contract [0] }) = _
    rw [View.setCode_labelled]
    rfl
  | invoke sender recipient value payload _ =>
    simp only [Engine.run, engine]
    rw [show (s.count gas (w.labelled l)).view = w.view.labelled l from rfl,
      show (s.count gas w).view = w.view from rfl,
      View.transfer_overlooks l store sender recipient value w.view]
    cases View.transfer store sender recipient value w.view with
    | ok _ view => rfl
    | error stop view => cases stop <;> rfl

/-- An engine that does not see the label of a view leaves it as it is. -/
theorem Engine.Blind.keepsLabel {e : Engine} (he : e.Blind)
    {header : Header} {sender : Address} {gasLimit : Gas} {store : Store} {m : Message} {gas : Gas}
    {w w' : World} {r : FrameResult}
    (h : e.run (.ofHeader header sender gasLimit) store m gas w = .ok (r, w')) :
    w'.view.txHash = w.view.txHash ∧ w'.view.isReadOnly = w.view.isReadOnly := by
  have hl := he header sender gasLimit store m gas ⟨w.view.txHash, w.view.isReadOnly⟩ w
  rw [show w.labelled ⟨w.view.txHash, w.view.isReadOnly⟩ = w from rfl, h] at hl
  have hw : w' = w'.labelled ⟨w.view.txHash, w.view.isReadOnly⟩ :=
    congrArg Prod.snd (Except.ok.inj hl)
  rw [hw]
  exact ⟨rfl, rfl⟩

end MeteredLedger
