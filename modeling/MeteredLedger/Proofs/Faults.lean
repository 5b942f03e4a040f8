import MeteredLedger.Proofs.Effect
import MeteredLedger.Proofs.Frame.Faults
import MeteredLedger.Proofs.Gas.Reconciliation

/-!
# What a transition can be abandoned for

The run of a message meets a fault only where a creation is asked for by an account at the
largest nonce (`Engine.RunsCode.run_faults`), the comparison of its gas meets none
(`Processor.attempt_reconciled`), and a meter whose breakdown adds up can be charged. So this is
all that a transition can be abandoned for, or a simulated one, beside taking more steps than
it is allowed (`only_nonces_overflow`).
-/

namespace MeteredLedger

/-- **A message on some gas comes to ask for a creation in a world.** -/
inductive Message.Asks (env : Setting) (gas : Gas) (w : World) :
    Message → World → Creation → Prop where
  /-- It is one. -/
  | itself {sender : Address} {value : Wei} {initCode : Bytes} {gasLimit : Gas} :
      Asks env gas w (.create sender value initCode gasLimit) w ⟨sender, initCode, gas, value, 0⟩
  /-- The code that it calls comes to ask for it. -/
  | inCall {sender recipient : Address} {value : Wei} {payload : Bytes} {gasLimit : Gas}
      {m : Machine} {w' : World} {c : Creation}
      (starts : Call.Starts env ⟨sender, recipient, payload, gas, value, 0⟩ w m)
      (rest : Exec.Asks env m w' c) :
      Asks env gas w (.invoke sender recipient value payload gasLimit) w' c
  /-- The code that makes its contract comes to ask for it. -/
  | inCreation {sender : Address} {value : Wei} {initCode : Bytes} {gasLimit : Gas} {m : Machine}
      {w' : World} {c : Creation}
      (starts : Creation.Starts env ⟨sender, initCode, gas, value, 0⟩ w m)
      (rest : Exec.Asks env m w' c) :
      Asks env gas w (.create sender value initCode gasLimit) w' c

/-- **The fault is a nonce that overflows**, in a creation that a message comes to ask for. -/
def Message.Overflows (env : Setting) (gas : Gas) (w : World) (m : Message) (f : Fault) : Prop :=
  f = .nonceOverflow ∧ ∃ w' c, m.Asks env gas w w' c ∧ c.Overflows env w'

/-- **A run meets a fault** only for a nonce that overflows, or a depth without a number below
it. -/
theorem Engine.RunsCode.run_faults {params : Params} {e : Engine} (he : e.RunsCode params)
    {context : Context} {store : Store} {m : Message} {gas : Gas} {w : World} {f : Fault}
    (h : e.run context store m gas w = .error (.fault f)) :
    m.Overflows ⟨params, context, store⟩ gas w f ∨ f = .depthOverflow ∧ params.Bottomless := by
  have hb : ∀ steps, Exec.Withstands ⟨params, context, store⟩ (Exec.run _ steps) :=
    Exec.run_withstands
  cases m with
  | invoke sender recipient value payload gasLimit =>
    obtain ⟨steps, heq⟩ := he.call context store ⟨sender, recipient, payload, gas, value, 0⟩ w
    refine (callWith_faults (hb steps) (heq.symm.trans h)).imp_left ?_
    rintro ⟨m, hstarts, hnonce, w', c, hasks, hover⟩
    exact ⟨hnonce, w', c, .inCall hstarts hasks, hover⟩
  | create sender value initCode gasLimit =>
    obtain ⟨steps, heq⟩ := he.create context store ⟨sender, initCode, gas, value, 0⟩ w
    refine (createWith_faults (hb steps) (heq.symm.trans h)).imp_left ?_
    rintro (⟨hnonce, hover⟩ | ⟨m, hstarts, hnonce, w', c, hasks, hover⟩)
    · exact ⟨hnonce, w, _, .itself, hover⟩
    · exact ⟨hnonce, w', c, .inCreation hstarts hasks, hover⟩

/-- Gas is reconciled, or a meter disagrees. -/
theorem Grant.reconcile_abort {g : Grant} {left : Gas} {a : Abort}
    (h : g.reconcile left = .error (.abort a)) : a = .fault .meterMismatch := by
  unfold reconcile at h
  dsimp only at h
  split_ifs at h
  · cases h
  · cases h
    rfl

namespace Processor

variable {p : Processor}

/-- An attempt meets a fault only for a nonce that overflows, or a depth without a number below
it. -/
theorem attempt_faults (he : p.engine.RunsCode p.params) {m : Message} {header : Header}
    {store : Store} {view : View} {g : Grant} {f : Fault} (hg : g.inner = .untracked)
    (h : p.attempt m header store view g = .error (.fault f)) :
    m.Overflows ⟨p.params, .ofHeader header m.sender g.gas, store⟩ g.gas
        ⟨view.resync, .untracked⟩ f ∨
      f = .depthOverflow ∧ p.params.Bottomless := by
  have hmatch := (attempt_reconciled he m header store view hg).1
  rw [h] at hmatch
  unfold attempt at h
  dsimp only at h
  split at h
  · rename_i a hr
    cases h
    rw [hg] at hr
    exact he.run_faults hr
  · unfold classify at h
    split at h
    · rename_i a hrec
      cases h
      cases Grant.reconcile_abort hrec
      exact absurd rfl hmatch
    · cases h
    · split at h
      · cases h
      · split_ifs at h

/-- A transition on a meter whose breakdown adds up is abandoned exactly if its attempt is. -/
theorem attemptOf_of_execute_error {m : Message} {a : Ambient} {f : Abort}
    (hbalanced : a.meter.Balanced) (h : p.execute m a = .error f) : p.attemptOf m a = .error f := by
  have hx := execute_cases p m a
  rw [h] at hx
  cases hx with
  | abandoned ha => exact ha
  | @uncounted run _ ha hc =>
    obtain ⟨meter, hok, -⟩ | ⟨e, herror⟩ := hbalanced.consume run.figures.consumed "vm_execution"
    · rw [hok] at hc
      cases hc
    · rw [herror] at hc
      cases hc

end Processor

/-- **Nothing but a nonce can overflow.** Whatever the parameters, the store, the header and the
code, if a transition on a meter whose breakdown adds up is abandoned for a fault, or a simulated
one is, the fault is that an account had to go to its next nonce and had none: its message has
come to ask for a creation, which was admitted, by an account at the largest nonce. -/
theorem only_nonces_overflow :
    (∀ params, (Engine.machine params).RunsCode params) ∧
    ∀ p : Processor, p.engine.RunsCode p.params →
      p.params.maxCallDepth.toNat + 1 < UInt64.size →
      (∀ m a f, a.meter.Balanced → p.execute m a = .error (.fault f) →
        m.Overflows (p.settingOf m a) (Grant.ofMeter a.meter m.gasLimit).gas
          ⟨Processor.startView a, .untracked⟩ f) ∧
      ∀ m header store f, p.simulate m header store = .error (.fault f) →
        m.Overflows ⟨p.params, .ofHeader header m.sender p.params.defaultGasLimit, store⟩
          p.params.defaultGasLimit ⟨.readOnly, .untracked⟩ f := by
  refine ⟨Engine.runsCode_machine, fun p he hd => ⟨?_, ?_⟩⟩
  · intro m a f hbalanced h
    have ha := Processor.attemptOf_of_execute_error hbalanced h
    exact (Processor.attempt_faults he rfl ha).resolve_right fun hdeep => hd.ne hdeep.2
  · intro m header store f h
    unfold Processor.simulate at h
    dsimp only at h
    cases ha : p.attempt m header store .readOnly
        (Grant.ofMeter .untracked p.params.defaultGasLimit) with
    | error a =>
      rw [ha] at h
      cases h
      exact (Processor.attempt_faults he rfl ha).resolve_right fun hdeep => hd.ne hdeep.2
    | ok answer =>
      rw [ha] at h
      cases answer <;> cases h

/-! ### An account at the largest nonce -/

namespace LastNonce

/-- Asks for an empty contract. -/
def code : Bytes := [0x60, 0, 0x60, 0, 0x60, 0, 0xf0]

/-- Account 2 has the code, and the largest nonce. -/
def store : Store :=
  (Store.ofAccounts [(⟨1⟩, .ofBalance 1000), (⟨2⟩, ⟨0xffffffffffffffff, 0, .zero⟩)]).putCode ⟨2⟩
    code

/-- A transaction around it, before its first charge. -/
def ambient : Ambient := ⟨.bounded 100000, .genesis, [], store⟩

/-- Calls the account. -/
def calls : Message := .invoke ⟨1⟩ ⟨2⟩ 10 [] 100000

/-- Makes a contract for the account. -/
def creates : Message := .create ⟨2⟩ 0 [] 1000

/-- The fault that something is abandoned for. -/
def faultOf {α : Type} : Except Abort α → Option Fault
  | .error (.fault f) => some f
  | _ => none

theorem eq_of_faultOf {α : Type} {answer : Except Abort α} {f : Fault}
    (h : faultOf answer = some f) : answer = .error (.fault f) := by
  unfold faultOf at h
  split at h
  · cases h
    rfl
  · cases h

end LastNonce

open LastNonce in
/-- Code that asks for a contract is abandoned, and so is a simulated creation: the account at the
largest nonce is why. -/
theorem only_nonces_overflow_last :
    Params.standard.maxCallDepth.toNat + 1 < UInt64.size ∧ ambient.meter.Balanced ∧
    (Processor.ofParams .standard).execute calls ambient = .error (.fault .nonceOverflow) ∧
    (∃ w c, calls.Asks ((Processor.ofParams .standard).settingOf calls ambient) 100000
        ⟨Processor.startView ambient, .untracked⟩ w c ∧
      (w.view.account store c.creator).nonce.toNat + 1 = UInt64.size) ∧
    (Processor.ofParams .standard).simulate creates .genesis store
      = .error (.fault .nonceOverflow) ∧
    ∃ w c, creates.Asks ⟨.standard, .ofHeader .genesis ⟨2⟩ Params.standard.defaultGasLimit, store⟩
        Params.standard.defaultGasLimit ⟨.readOnly, .untracked⟩ w c ∧
      (w.view.account store c.creator).nonce.toNat + 1 = UInt64.size := by
  have hdepth : Params.standard.maxCallDepth.toNat + 1 < UInt64.size := by decide
  have hbalanced : ambient.meter.Balanced := Meter.balanced_fresh _
  have hcalled : (Processor.ofParams .standard).execute calls ambient
      = .error (.fault .nonceOverflow) := eq_of_faultOf (by decide +kernel)
  have hcreated : (Processor.ofParams .standard).simulate creates .genesis store
      = .error (.fault .nonceOverflow) := eq_of_faultOf (by decide +kernel)
  obtain ⟨hexecute, hsimulate⟩ := only_nonces_overflow.2 (.ofParams .standard)
    (Engine.runsCode_machine .standard) hdepth
  obtain ⟨-, w, c, hasks, -, hnonce⟩ := hexecute _ _ _ hbalanced hcalled
  obtain ⟨-, w', c', hasks', -, hnonce'⟩ := hsimulate _ _ _ _ hcreated
  exact ⟨hdepth, hbalanced, hcalled, ⟨w, c, hasks, hnonce⟩, hcreated, w', c', hasks', hnonce'⟩

end MeteredLedger
