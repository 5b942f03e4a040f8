import MeteredLedger.Proofs.Machine.Moves
import MeteredLedger.Proofs.View.Sight
import MeteredLedger.Machine.Run

/-!
# What a frame can do

A frame is entered, runs its code and is left. Entering it pays, moves value and
gives it its code; running it makes moves and enters the frames below; leaving it
keeps or drops its scope (`settle_cases`).

A relation between machines that every part of this keeps to is kept by whole frames
(`enterCall_keeps`, `enterCreation_keeps`) and by whole runs, in any number of steps
(`run_keeps`): what is to be shown of a relation is that the moves keep to it, and
the frames below do, taken together with the gas set aside for them and given back.
-/

namespace MeteredLedger

/-- Whether an error is one that a frame can fail for, once it is entered. -/
def LedgerError.isOfFrame : LedgerError → Bool
  | .insufficientBalance .. | .balanceOverflow _ | .addressCollision _ | .codeSizeExceeded .. =>
    true
  | e => e.isOfCode

/-- How a frame can stop: for an error of its own, or abandoned for anything but a
meter that disagrees. -/
def Stop.OfFrame : Stop → Prop
  | .error e => e.isOfFrame = true
  | .abort a => a ≠ .fault .meterMismatch

theorem Stop.OfCode.ofFrame {stop : Stop} (h : stop.OfCode) : stop.OfFrame := by
  cases stop with
  | error e => cases e <;> first | exact h | cases h
  | abort a => exact h

/-- Whether an error is one that a frame can hand back, entered or not. -/
def LedgerError.isOfResult : LedgerError → Bool
  | .reverted | .callDepthExceeded _ => true
  | e => e.isOfFrame

theorem LedgerError.isOfResult_of_isOfFrame {e : LedgerError} (h : e.isOfFrame = true) :
    e.isOfResult = true := by
  cases e <;> first | rfl | exact h

/-- **A relation that nothing in a frame leads out of**: it puts up with any change of
the frame, with charges, and with views that come of each other within a scope. -/
structure Steady (env : Setting) (R : Machine → Machine → Prop) : Prop where
  refl : ∀ m, R m m
  trans : ∀ a b c, R a b → R b c → R a c
  frame : ∀ m f, R m { m with frame := f }
  pay : ∀ {m : Machine} {amount : Gas} {label : String} {gas : Meter},
    m.gas.consume amount label = .ok gas → R m (m.charged gas amount label)
  view : ∀ {m : Machine} {v : View}, View.Inside env.store m.world.view v → R m (m.withView v)

namespace Steady

variable {env : Setting} {R : Machine → Machine → Prop}

theorem move (hR : Steady env R) {m m' : Machine} (h : Move m m') : R m m' := by
  cases h with
  | goOn f h => exact hR.frame m f
  | pay h => exact hR.pay h
  | write key value => exact hR.view (View.setSlot_inside _ _ _ _)
  | leave topics data => exact hR.view (View.addLog_inside _ _ _)

theorem lasting (hR : Steady env R) : Lasting R := ⟨hR.refl, hR.trans, fun _ _ => hR.move⟩

/-- Of all machines. -/
theorem all (env : Setting) : Steady env fun _ _ => True :=
  ⟨fun _ => trivial, fun _ _ _ _ _ => trivial, fun _ _ => trivial, fun _ => trivial,
    fun _ => trivial⟩

/-- Of machines whose views come of each other within a scope. -/
theorem inside (env : Setting) :
    Steady env fun m m' => View.Inside env.store m.world.view m'.world.view :=
  ⟨fun _ => .refl _, fun _ _ _ => .trans, fun _ _ => .refl _, fun _ => .refl _, id⟩

end Steady

namespace Exec

variable {env : Setting} {R : Machine → Machine → Prop}

/-! ### Entering a frame -/

theorem charge_keeps (hR : Steady env R) (amount : Gas) (label : String) :
    Keeps Stop.OfFrame R (charge amount label) :=
  (charge_makes amount label).mono (fun _ h => h.ofFrame) fun _ _ => hR.lasting.moves

theorem transfer_keeps (hR : Steady env R) (source target : Address) (amount : Wei) :
    Keeps Stop.OfFrame R (onView (View.transfer env.store source target amount)) := by
  intro m
  have h := View.transfer_meets env.store source target amount m.world.view
  unfold Meets at h ⊢
  unfold onView
  split at h
  · rename_i ht
    simp only [ht]
    exact hR.view h.1
  · rename_i ht
    simp only [ht]
    refine ⟨?_, fun _ _ => hR.view h.1⟩
    obtain he | he := h.2 <;> subst he <;> rfl

theorem modifyView_keeps (hR : Steady env R) {S : Stop → Prop} {f : View → View}
    (h : ∀ v, View.Inside env.store v (f v)) : Keeps S R (modifyView f) :=
  fun m => hR.view (h m.world.view)

theorem modifyFrame_keeps (hR : Steady env R) {S : Stop → Prop} (f : Frame → Frame) :
    Keeps S R (modifyFrame f) := fun m => hR.frame m (f m.frame)

theorem inspect_keeps {α : Type} (hR : Steady env R) {S : Stop → Prop} (g : Machine → α) :
    Keeps S R (inspect g) := fun m => hR.refl m

theorem pure_keeps {α : Type} (hR : Steady env R) {S : Stop → Prop} (a : α) :
    Keeps S R (pure a) := fun m => hR.refl m

theorem fail_keeps {α : Type} (hR : Steady env R) {e : LedgerError} (h : e.isOfFrame = true) :
    Keeps Stop.OfFrame R (fail e : Exec α) := fun m => Meets.throw ⟨h, fun _ _ => hR.refl m⟩

/-! A frame is entered part by part. -/

/-- Pays for the value of a call, if there is any, and moves it. -/
def bring (env : Setting) (c : Call) : Exec Unit :=
  if 0 < c.value then do
    charge env.params.effects.callValueTransfer "call_value_transfer"
    onView (View.transfer env.store c.caller c.address c.value)
  else return ()

/-- Runs the code of the account that is called, if there is any. -/
def runCode (env : Setting) (body : Exec Exit) (c : Call) : Exec Exit := do
  let code ← inspect fun m => m.world.view.codeAt env.store c.address
  if code.isEmpty then return .returned [] else do
    modifyFrame (·.load code)
    body

theorem enterCall_eq (env : Setting) (body : Exec Exit) (c : Call) :
    enterCall env body c = (do
      charge env.params.effects.call "call"
      bring env c
      runCode env body c) := by
  unfold enterCall bring runCode
  split_ifs
  · simp only [bind_assoc]
  · rfl

/-- Takes an address for a new contract, unless there is one. -/
def claim (env : Setting) (address : Address) : Exec Unit := do
  let existing ← inspect fun m => m.world.view.account env.store address
  if existing.nonce ≠ 0 ∨ existing.isContract then fail (.addressCollision address)
  else modifyView fun v => v.setNonce env.store address 1

/-- Moves the value of a creation, if there is any. -/
def endow (env : Setting) (address : Address) (c : Creation) : Exec Unit :=
  if 0 < c.value then onView (View.transfer env.store c.creator address c.value) else return ()

/-- Runs the code of a creation, and makes what it returns the code of the contract. -/
def construct (env : Setting) (body : Exec Exit) (address : Address) (c : Creation) :
    Exec Exit := do
  modifyFrame (·.load c.initCode)
  match ← body with
  | .returned code => do
    deploy env address code
    return .returned code
  | .reverted output => return .reverted output

theorem enterCreation_eq (env : Setting) (body : Exec Exit) (address : Address) (c : Creation) :
    enterCreation env body address c = (do
      charge env.params.effects.create "create"
      claim env address
      endow env address c
      construct env body address c) := by
  unfold enterCreation claim endow construct
  dsimp only
  rw [bind_assoc]
  refine bind_congr fun _ => bind_congr fun existing => ?_
  split_ifs <;> rfl

/-! What every part keeps to is kept by the whole. -/

theorem bring_keeps (hR : Steady env R) (c : Call) : Keeps Stop.OfFrame R (bring env c) := by
  unfold bring
  split_ifs
  · exact Keeps.bind hR.trans (charge_keeps hR _ _) fun _ => transfer_keeps hR _ _ _
  · exact pure_keeps hR _

theorem runCode_keeps (hR : Steady env R) {body : Exec Exit} (hb : Keeps Stop.OfCode R body)
    (c : Call) : Keeps Stop.OfFrame R (runCode env body c) := by
  refine Keeps.bind hR.trans (inspect_keeps hR _) fun code => ?_
  split_ifs
  · exact pure_keeps hR _
  · exact Keeps.bind hR.trans (modifyFrame_keeps hR _) fun _ =>
      hb.mono (fun _ h => h.ofFrame) fun _ _ h => h

/-- What the frame of a call keeps to if the code that it runs does. -/
theorem enterCall_keeps (hR : Steady env R) {body : Exec Exit} (hb : Keeps Stop.OfCode R body)
    (c : Call) : Keeps Stop.OfFrame R (enterCall env body c) := by
  rw [enterCall_eq]
  exact Keeps.bind hR.trans (charge_keeps hR _ _) fun _ =>
    Keeps.bind hR.trans (bring_keeps hR c) fun _ => runCode_keeps hR hb c

theorem claim_keeps (hR : Steady env R) (address : Address) :
    Keeps Stop.OfFrame R (claim env address) := by
  refine Keeps.bind hR.trans (inspect_keeps hR _) fun existing => ?_
  split_ifs
  · exact fail_keeps hR rfl
  · exact modifyView_keeps hR fun v => View.setNonce_inside env.store v address 1

theorem endow_keeps (hR : Steady env R) (address : Address) (c : Creation) :
    Keeps Stop.OfFrame R (endow env address c) := by
  unfold endow
  split_ifs
  · exact transfer_keeps hR _ _ _
  · exact pure_keeps hR _

theorem deploy_keeps (hR : Steady env R) (address : Address) (code : Bytes) :
    Keeps Stop.OfFrame R (deploy env address code) := by
  have pays : Keeps Stop.OfFrame R (do
      charge (mulGasCapped (gasOfNat code.length) env.params.effects.createData) "code_deposit"
      modifyView fun v => v.setCode env.store address code) :=
    Keeps.bind hR.trans (charge_keeps hR _ _) fun _ =>
      modifyView_keeps hR fun v => View.setCode_inside env.store v address code
  unfold deploy
  dsimp only
  split_ifs
  · exact Keeps.bind hR.trans (fail_keeps hR rfl) fun _ => pays
  · exact pays

theorem construct_keeps (hR : Steady env R) {body : Exec Exit} (hb : Keeps Stop.OfCode R body)
    (address : Address) (c : Creation) : Keeps Stop.OfFrame R (construct env body address c) := by
  refine Keeps.bind hR.trans (modifyFrame_keeps hR _) fun _ =>
    Keeps.bind hR.trans (hb.mono (fun _ h => h.ofFrame) fun _ _ h => h) fun exit => ?_
  cases exit with
  | returned code =>
    exact Keeps.bind hR.trans (deploy_keeps hR address code) fun _ => pure_keeps hR _
  | reverted output => exact pure_keeps hR _

/-- What the frame of a creation keeps to if the code that it runs does. -/
theorem enterCreation_keeps (hR : Steady env R) {body : Exec Exit}
    (hb : Keeps Stop.OfCode R body) (address : Address) (c : Creation) :
    Keeps Stop.OfFrame R (enterCreation env body address c) := by
  rw [enterCreation_eq]
  exact Keeps.bind hR.trans (charge_keeps hR _ _) fun _ =>
    Keeps.bind hR.trans (claim_keeps hR address) fun _ =>
      Keeps.bind hR.trans (endow_keeps hR address c) fun _ => construct_keeps hR hb address c

end Exec

/-! ### Leaving a frame -/

/-- **What becomes of a frame that is left**: `Settled mark result r w` if what its code
came to is handed back as `r` and leaves the world `w`. -/
inductive Settled (mark : View.Mark) :
    EStateM.Result Stop Machine Exit → FrameResult → World → Prop where
  /-- Its scope is kept. -/
  | returned (output : Bytes) (m : Machine) :
      Settled mark (.ok (.returned output) m) ⟨output, m.gas.remaining, none, none⟩
        { m.world with view := m.world.view.commitTo mark }
  /-- Its scope is dropped. -/
  | reverted (output : Bytes) (m : Machine) :
      Settled mark (.ok (.reverted output) m) ⟨output, m.gas.remaining, some .reverted, none⟩
        { m.world with view := m.world.view.revertTo mark }
  /-- Its scope is dropped, and its gas is burnt. -/
  | burnt {e : LedgerError} {m : Machine} {gas : Meter} (he : e.burnsGas = true)
      (hg : m.gas.burn "exhausted" = .ok gas) :
      Settled mark (.error (.error e) m) (.refused gas.remaining e)
        { m.world with
          view := m.world.view.revertTo mark
          ledger := m.world.ledger.record m.gas.remaining "exhausted" }
  /-- Its scope is dropped, and its gas is not burnt. -/
  | kept {e : LedgerError} {m : Machine} (he : e.burnsGas = false) :
      Settled mark (.error (.error e) m) (.refused m.gas.remaining e)
        { m.world with view := m.world.view.revertTo mark }

theorem settle_cases {mark : View.Mark} {result : EStateM.Result Stop Machine Exit}
    {r : FrameResult} {w : World} (h : settle mark result = .ok (r, w)) :
    Settled mark result r w := by
  unfold settle at h
  split at h
  · cases h
    exact .returned _ _
  · cases h
    exact .reverted _ _
  · rename_i e m
    dsimp only at h
    split_ifs at h with he
    · split at h
      · rename_i gas hg
        cases h
        exact .burnt he hg
      · cases h
    · cases h
      exact .kept (by simpa using he)
  · cases h

/-- A frame that is left hands back that its code has taken everything back, or the error that its
code stopped for. -/
theorem Settled.cause {mark : View.Mark} {result : EStateM.Result Stop Machine Exit}
    {r : FrameResult} {w : World} {e : LedgerError} (h : Settled mark result r w)
    (he : r.error = some e) : e = .reverted ∨ ∃ m, result = .error (.error e) m := by
  cases h with
  | returned output m => cases he
  | reverted output m =>
    cases he
    exact .inl rfl
  | burnt _ _ =>
    cases he
    exact .inr ⟨_, rfl⟩
  | kept _ =>
    cases he
    exact .inr ⟨_, rfl⟩

/-- What a frame can hand back. -/
theorem Settled.isOfResult {mark : View.Mark} {result : EStateM.Result Stop Machine Exit}
    {r : FrameResult} {w : World} {e : LedgerError} (h : Settled mark result r w)
    (error : ∀ e m, result = .error (.error e) m → e.isOfFrame = true) (he : r.error = some e) :
    e.isOfResult = true := by
  obtain rfl | ⟨m, hm⟩ := h.cause he
  · rfl
  · exact LedgerError.isOfResult_of_isOfFrame (error e m hm)

/-- A frame is abandoned for what its code is abandoned for, or because its gas cannot
be burnt. -/
theorem settle_abort {mark : View.Mark} {result : EStateM.Result Stop Machine Exit} {a : Abort}
    (h : settle mark result = .error a) :
    (∃ m, result = .error (.abort a) m) ∨ a = .fault .meterOverflow := by
  unfold settle at h
  split at h
  · cases h
  · cases h
  · rename_i e m
    dsimp only at h
    split_ifs at h
    split at h
    · cases h
    · rename_i f hf
      cases h
      unfold Meter.burn Meter.add at hf
      split at hf
      · split at hf
        · cases hf
        · cases hf
          exact .inr rfl
      · cases hf
  · rename_i m
    cases h
    exact .inl ⟨m, rfl⟩

/-! ### Whole frames -/

/-- The machine that a call starts on. -/
def Call.machine (c : Call) (w : World) : Machine :=
  ⟨{ w with view := w.view.checkpoint.2 }, .bounded c.gas,
    .fresh c.address c.caller c.value c.input c.depth⟩

/-- The address that a creation makes its contract at. -/
def Creation.address (env : Setting) (c : Creation) (w : World) : Address :=
  .ofCreation c.creator (w.view.account env.store c.creator).nonce

/-- The machine that a creation starts on, if `view` is the view with its creator at
the next nonce. -/
def Creation.machine (env : Setting) (c : Creation) (w : World) (view : View) : Machine :=
  ⟨{ w with view := view.checkpoint.2 }, .bounded c.gas,
    .fresh (c.address env w) c.creator c.value [] c.depth⟩

section Frames

variable {env : Setting} {body : Exec Exit} {w w' : World} {r : FrameResult}

/-- A call that is refused hands all of its gas back, and changes nothing. -/
theorem callWith_of_refused {c : Call} {e : LedgerError}
    (h : refusal? env w c.caller c.value c.depth = some e) :
    callWith env body c w = .ok (.refused c.gas e, w) := by
  unfold callWith
  rw [h]

/-- A creation that is refused hands all of its gas back, and changes nothing. -/
theorem createWith_of_refused {c : Creation} {e : LedgerError}
    (h : refusal? env w c.creator c.value c.depth = some e) :
    createWith env body c w = .ok (.refused c.gas e, w) := by
  unfold createWith
  rw [h]

/-- **What a call comes to**: it is refused, or entered and left. -/
theorem callWith_cases {c : Call} (h : callWith env body c w = .ok (r, w')) :
    (∃ e, refusal? env w c.caller c.value c.depth = some e ∧ r = .refused c.gas e ∧ w' = w) ∨
    (refusal? env w c.caller c.value c.depth = none ∧
      Settled w.view.checkpoint.1 (Exec.enterCall env body c (c.machine w)) r w') := by
  unfold callWith at h
  split at h
  · rename_i e he
    cases h
    exact .inl ⟨e, he, rfl, rfl⟩
  · rename_i hn
    exact .inr ⟨hn, settle_cases h⟩

/-- What a frame hands back, with the contract that it has made if it has not failed. -/
def FrameResult.named (address : Address) (r : FrameResult) : FrameResult :=
  { r with address := if r.error.isNone then some address else none }

/-- A creation that is admitted, whose creator has gone to the next nonce. -/
theorem createWith_of_bumped {c : Creation} {w : World} {view : View}
    (hn : refusal? env w c.creator c.value c.depth = none)
    (hv : View.bumpNonce env.store c.creator w.view = .ok () view) :
    createWith env body c w = (settle view.checkpoint.1
        (Exec.enterCreation env body (c.address env w) c (c.machine env w view))).map
      (Prod.map (FrameResult.named (c.address env w)) id) := by
  unfold createWith
  rw [hn]
  dsimp only
  rw [hv]
  dsimp only
  split
  · rename_i f hs
    exact (congrArg (Except.map (Prod.map (FrameResult.named (c.address env w)) id)) hs).symm
  · rename_i result w' hs
    exact (congrArg (Except.map (Prod.map (FrameResult.named (c.address env w)) id)) hs).symm

/-- A creation that is admitted, whose creator cannot go to the next nonce. -/
theorem createWith_of_unbumped {c : Creation} {w : World} {view : View} {a : Abort}
    (hn : refusal? env w c.creator c.value c.depth = none)
    (hv : View.bumpNonce env.store c.creator w.view = .error (.abort a) view) :
    createWith env body c w = .error a := by
  unfold createWith
  rw [hn]
  dsimp only
  rw [hv]

/-- **What a creation comes to**: it is refused, or its creator goes to the next nonce and
it is entered and left. -/
theorem createWith_cases {c : Creation} (h : createWith env body c w = .ok (r, w')) :
    (∃ e, refusal? env w c.creator c.value c.depth = some e ∧ r = .refused c.gas e ∧ w' = w) ∨
    (refusal? env w c.creator c.value c.depth = none ∧
      ∃ view r', View.bumpNonce env.store c.creator w.view = .ok () view ∧
        Settled view.checkpoint.1
          (Exec.enterCreation env body (c.address env w) c (c.machine env w view)) r' w' ∧
        r = { r' with address := if r'.error.isNone then some (c.address env w) else none }) := by
  unfold createWith at h
  split at h
  · rename_i e he
    cases h
    exact .inl ⟨e, he, rfl, rfl⟩
  · rename_i hn
    have hb := View.bumpNonce_meets env.store c.creator w.view
    dsimp only at h
    split at h
    · cases h
    · rename_i e view he
      cases hb.of_error he
    · rename_i view hv
      split at h
      · cases h
      · rename_i r' w'' hs
        cases h
        exact .inr ⟨hn, view, r', hv, settle_cases hs, rfl⟩

theorem refusal?_isOfResult {payer : Address} {value : Wei} {depth : Nat} {e : LedgerError}
    (h : refusal? env w payer value depth = some e) : e.isOfResult = true := by
  unfold refusal? at h
  split_ifs at h
  · cases h
    rfl
  · cases h
    rfl

/-- What a call can fail for. -/
theorem callWith_isOfResult {R : Machine → Machine → Prop} (hb : Exec.Keeps Stop.OfCode R body)
    {c : Call} (h : callWith env body c w = .ok (r, w')) {e : LedgerError}
    (he : r.error = some e) : e.isOfResult = true := by
  have hk := Exec.enterCall_keeps (Steady.all env) hb.stops c
  obtain ⟨e', hr, rfl, -⟩ | ⟨-, hs⟩ := callWith_cases h
  · cases he
    exact refusal?_isOfResult hr
  · exact hs.isOfResult (fun e m hm => ((hk _).of_error hm).1) he

/-- What a creation can fail for. -/
theorem createWith_isOfResult {R : Machine → Machine → Prop}
    (hb : Exec.Keeps Stop.OfCode R body) {c : Creation}
    (h : createWith env body c w = .ok (r, w')) {e : LedgerError} (he : r.error = some e) :
    e.isOfResult = true := by
  have hk := fun address => Exec.enterCreation_keeps (Steady.all env) hb.stops address c
  obtain ⟨e', hr, rfl, -⟩ | ⟨-, view, r', -, hs, rfl⟩ := createWith_cases h
  · cases he
    exact refusal?_isOfResult hr
  · exact hs.isOfResult (fun e m hm => ((hk _ _).of_error hm).1) he

/-- A call is never abandoned for a meter that disagrees, unless its code is. -/
theorem callWith_abort {c : Call} {a : Abort} {R : Machine → Machine → Prop}
    (hb : Exec.Keeps Stop.OfCode R body) (h : callWith env body c w = .error a) :
    a ≠ .fault .meterMismatch := by
  have hk := Exec.enterCall_keeps (Steady.all env) hb.stops c
  unfold callWith at h
  split at h
  · cases h
  · obtain ⟨m, hm⟩ | rfl := settle_abort h
    · exact ((hk _).of_error hm).1
    · exact nofun

/-- A creation is never abandoned for a meter that disagrees, unless its code is. -/
theorem createWith_abort {c : Creation} {a : Abort} {R : Machine → Machine → Prop}
    (hb : Exec.Keeps Stop.OfCode R body) (h : createWith env body c w = .error a) :
    a ≠ .fault .meterMismatch := by
  have hk := fun address => Exec.enterCreation_keeps (Steady.all env) hb.stops address c
  unfold createWith at h
  split at h
  · cases h
  · dsimp only at h
    split at h
    · rename_i a' view hv
      cases h
      cases (View.bumpNonce_meets env.store c.creator w.view).of_error hv
      exact nofun
    · cases h
    · split at h
      · rename_i hs
        cases h
        obtain ⟨m, hm⟩ | rfl := settle_abort hs
        · exact ((hk _ _).of_error hm).1
        · exact nofun
      · cases h

end Frames

/-! ### Runs -/

namespace Exec

variable {env : Setting} {R : Machine → Machine → Prop}

/-- A frame below leaves its world behind. -/
theorem descend_meets {enter : World → Except Abort (FrameResult × World)} {m : Machine}
    {Q : FrameResult → Machine → Prop} {S : Stop → Machine → Prop}
    (ok : ∀ r w, enter m.world = .ok (r, w) → Q r { m with world := w })
    (abort : ∀ a, enter m.world = .error a → S (.abort a) m) : Meets (descend enter) m Q S := by
  unfold Meets descend
  cases h : enter m.world with
  | ok rw => exact ok rw.1 rw.2 h
  | error a => exact abort a h

/-- An action that makes moves, and then goes on with the rest of a run. -/
theorem Makes.goOn {x : Exec Unit} {rest : Exec Exit} (hR : Lasting R) (hx : Makes x)
    (hrest : Keeps Stop.OfCode R rest) : Keeps Stop.OfCode R (do x; advance; rest) :=
  Keeps.bind hR.trans (hx.keeps hR) fun _ =>
    Keeps.bind hR.trans ((makes_modifyFrame fun _ => by rfl).keeps hR) fun _ => hrest

/-- What a call hands back is taken in by moves, once the gas left is given back. -/
theorem takeCall_makes (offset size : Nat) (r : FrameResult) : Makes (do
    writeMemory offset (r.output.take size)
    modifyFrame fun f => { f with returned := r.output }
    push (boolWord r.error.isNone)) :=
  (writeMemory_makes _ _).bind fun _ => (makes_modifyFrame fun _ => by rfl).bind fun _ =>
    push_makes _

/-- What a creation hands back is taken in by moves, once the gas left is given back. -/
theorem takeCreation_makes (r : FrameResult) : Makes (do
    modifyFrame fun f => { f with returned := if r.error.isSome then r.output else [] }
    push (r.address.elim 0 addressWord)) :=
  (makes_modifyFrame fun _ => by rfl).bind fun _ => push_makes _

/-- **A run keeps to a relation** if its moves do, and if the frames that it enters do,
together with the gas set aside for them and the part of it given back. -/
theorem run_keeps (hR : Lasting R)
    (call : ∀ body, Keeps Stop.OfCode R body → ∀ {m : Machine} {c : Call} {gas r w},
      c.caller = m.frame.address → c.depth = m.frame.depth + 1 →
      m.gas.consume c.gas Opcode.call.label = .ok gas →
      callWith env body c m.world = .ok (r, w) →
      R m { m with world := w, gas := gas.refund r.gasRemaining Opcode.call.label })
    (create : ∀ body, Keeps Stop.OfCode R body → ∀ {m : Machine} {c : Creation} {gas r w},
      c.creator = m.frame.address → c.depth = m.frame.depth + 1 →
      m.gas.consume c.gas Opcode.create.label = .ok gas →
      createWith env body c m.world = .ok (r, w) →
      R m { m with world := w, gas := gas.refund r.gasRemaining Opcode.create.label })
    (steps : Nat) : Keeps Stop.OfCode R (run env steps) := by
  induction steps with
  | zero => exact fun m => Meets.throw ⟨nofun, nofun⟩
  | succ steps ih =>
    intro m
    refine meets_inspect ?_
    cases m.frame.code[m.frame.pc]? with
    | none => exact Meets.pure (hR.refl m)
    | some byte =>
      refine Meets.bind ((step_performs env byte m).mono ?_ fun _ _ h =>
        h.mono (fun _ h => h) fun _ _ => hR.moves)
      rintro ctl m' ⟨mid, hm, he⟩
      -- what the instruction asks for starts where its moves end
      refine Meets.mono (Q := fun _ m₂ => R mid m₂) (S := HaltsIn Stop.OfCode R mid) ?_
        (fun _ _ h => hR.trans _ _ _ (hR.moves hm) h) fun _ _ h => h.after hR.trans (hR.moves hm)
      cases he with
      | next =>
        exact Keeps.bind hR.trans ((makes_modifyFrame fun _ => by rfl).keeps hR) (fun _ => ih) _
      | jumped => exact ih _
      | exit how => exact Meets.pure (hR.refl _)
      | call offset size caller depth paid =>
        refine Meets.bind (descend_meets (fun r w h => ?_) fun a h => ?_)
        · have back := call (run env steps) ih caller depth paid h
          exact ((takeCall_makes offset size r).goOn hR ih _).mono
            (fun _ _ h => hR.trans _ _ _ back h) fun _ _ h => h.after hR.trans back
        · exact ⟨callWith_abort ih h, nofun⟩
      | create creator depth paid =>
        refine Meets.bind (descend_meets (fun r w h => ?_) fun a h => ?_)
        · have back := create (run env steps) ih creator depth paid h
          exact ((takeCreation_makes r).goOn hR ih _).mono
            (fun _ _ h => hR.trans _ _ _ back h) fun _ _ h => h.after hR.trans back
        · exact ⟨createWith_abort ih h, nofun⟩

end Exec

end MeteredLedger
