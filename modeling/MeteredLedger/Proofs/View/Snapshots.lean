import MeteredLedger.Proofs.View.Sight

/-!
# Views and full copies

A view keeps its changes in layers, reads through them, and folds or drops several of them
at once. What that comes to is told by a plainer machine (`Snapshots`): it holds one state
without layers, and a full copy of it for every open scope. Opening a scope saves a copy,
dropping it brings the copy back, and keeping it forgets the copy.

Whatever is done to a view, in whatever order, its answers are those of the plain machine,
errors included, and it reads the same everywhere (`view_refines_snapshots`), as long as
the store behind it stays the same and only open scopes are closed. So what a view remembers
of the store, and how it spreads accounts over its layers, cannot be observed.
-/

namespace MeteredLedger

namespace View

/-- What a view can be asked to do. -/
inductive Operation where
  | credit (a : Address) (amount : Wei)
  | debit (a : Address) (amount : Wei)
  | bumpNonce (a : Address)
  | setNonce (a : Address) (nonce : Nonce)
  | setCode (a : Address) (code : Bytes)
  | setSlot (slot : Slot) (value : Bytes)
  | addLog (log : Log)
  | resync
  | checkpoint
  | revertTo (mark : Nat)
  | commitTo (mark : Nat)
  deriving DecidableEq

/-- What it answers. -/
inductive Answer where
  /-- It is done. -/
  | done
  /-- A scope has been opened. -/
  | opened (mark : Mark)
  /-- It cannot be done. -/
  | stopped (stop : Stop)
  deriving DecidableEq

/-- The answer of an operation that may stop, and the view that it leaves. -/
def answered : EStateM.Result Stop View Unit → Answer × View
  | .ok () v => (.done, v)
  | .error stop v => (.stopped stop, v)

/-- An operation on a view. -/
def act (s : Store) (v : View) : Operation → Answer × View
  | .credit a amount => answered (credit s a amount v)
  | .debit a amount => answered (debit s a amount v)
  | .bumpNonce a => answered (bumpNonce s a v)
  | .setNonce a nonce => (.done, v.setNonce s a nonce)
  | .setCode a code => (.done, v.setCode s a code)
  | .setSlot slot value => (.done, v.setSlot slot value)
  | .addLog log => (.done, v.addLog log)
  | .resync => (.done, v.resync)
  | .checkpoint => (.opened v.checkpoint.1, v.checkpoint.2)
  | .revertTo mark => (.done, v.revertTo mark)
  | .commitTo mark => (.done, v.commitTo mark)

end View

open View (Operation Answer)

/-! ### The plain machine -/

/-- A state without layers, and a copy of it for every open scope. -/
structure Snapshots where
  /-- The state. -/
  current : Sight
  /-- The copies, the last one first. -/
  saved : List Sight

namespace Snapshots

/-- Puts an account, or says why there is none to put. -/
def putAccount (c : Snapshots) (a : Address) : Except Stop Account → Answer × Snapshots
  | .ok x => (.done, { c with current := c.current.putAccount a x })
  | .error stop => (.stopped stop, c)

/-- An operation on the plain machine. A mark counts the copies up to its own, from the
first one on. -/
def act (c : Snapshots) : Operation → Answer × Snapshots
  | .credit a amount => c.putAccount a <| match (c.current.account a).credit? amount with
    | some x => .ok x
    | none => .error (.error (.balanceOverflow a))
  | .debit a amount => c.putAccount a <| match (c.current.account a).debit? amount with
    | some x => .ok x
    | none => .error (.error (.insufficientBalance amount (c.current.account a).balance))
  | .bumpNonce a => c.putAccount a <| match (c.current.account a).bumpNonce with
    | .ok x => .ok x
    | .error f => .error (.fault f)
  | .setNonce a nonce => c.putAccount a (.ok { c.current.account a with nonce })
  | .setCode a code =>
    let x := { c.current.account a with codeHash := View.codeHash code }
    (.done, { c with current := (c.current.putAccount a x).putCode a code })
  | .setSlot slot value => (.done, { c with current := c.current.putSlot slot value })
  | .addLog log => (.done, { c with current := c.current.addLog log })
  | .resync => (.done, c)
  | .checkpoint => (.opened (c.saved.length + 1), ⟨c.current, c.current :: c.saved⟩)
  | .revertTo mark => match c.saved.drop (c.saved.length - mark) with
    | copy :: before => (.done, ⟨copy, before⟩)
    | [] => (.done, c)
  | .commitTo mark => (.done, { c with saved := c.saved.drop (c.saved.length + 1 - mark) })

end Snapshots

/-! ### Operations in order -/

namespace View.Operation

/-- The answers of operations in order, and what they leave. -/
def run {σ : Type} (act : σ → Operation → Answer × σ) (state : σ) : List Operation → List Answer × σ
  | [] => ([], state)
  | op :: ops =>
    let (answer, state) := act state op
    let (answers, state) := run act state ops
    (answer :: answers, state)

/-- Whether the mark that an operation names, if it does, is that of an open scope. -/
def isOpen (depth : Nat) : Operation → Bool
  | .revertTo mark | .commitTo mark => 1 ≤ mark && mark ≤ depth
  | _ => true

/-- The number of scopes that are open after an operation. -/
def depthAfter (depth : Nat) : Operation → Nat
  | .checkpoint => depth + 1
  | .revertTo mark | .commitTo mark => mark - 1
  | _ => depth

/-- Whether operations close scopes only that are open. -/
def areOpen (depth : Nat) : List Operation → Bool
  | [] => true
  | op :: ops => op.isOpen depth && areOpen (op.depthAfter depth) ops

end View.Operation

/-! ### Layers as copies -/

/-- What a store shows beneath layers. -/
def Store.beneath (s : Store) (layers : List Layer) : Sight where
  account a := (layers.findSome? (·.accounts[a]?)).getD (s.account a)
  code a := (layers.findSome? (·.code[a]?)).getD (s.codeAt a)
  slot x := (layers.findSome? (·.slots[x]?)).getD (s.slot x)
  logs := layers.reverse.flatMap (·.logs)

/-- What it shows beneath the layers from each of them on. -/
def Store.copies (s : Store) : List Layer → List Sight
  | [] => []
  | layer :: outer => s.beneath (layer :: outer) :: s.copies outer

namespace Store

theorem length_copies (s : Store) (layers : List Layer) :
    (s.copies layers).length = layers.length := by
  induction layers with
  | nil => rfl
  | cons layer outer ih => simp [copies, ih]

theorem drop_copies (s : Store) (layers : List Layer) (n : Nat) :
    (s.copies layers).drop n = s.copies (layers.drop n) := by
  induction layers generalizing n with
  | nil => simp [copies]
  | cons layer outer ih =>
    cases n with
    | zero => rfl
    | succ n => simp [copies, ih]

end Store

namespace View

theorem sight_eq_beneath {s : Store} {v : View} (h : ∀ a, v.backing s a = s.account a) :
    v.sight s = s.beneath v.layers := by
  ext1
  · funext a
    simp [account_eq, find?_eq, Store.beneath, h]
  · funext a
    simp [codeAt_eq, find?_eq, Store.beneath]
  · funext x
    simp [slot_eq, find?_eq, Store.beneath]
  · rfl

/-! The operations that bring an account in and change it, or stop. -/

/-- An account is brought in, and another one put in its place. -/
def replace (s : Store) (v : View) (a : Address) :
    Except Stop Account → EStateM.Result Stop View Unit
  | .ok x => .ok () ((v.touch s a).2.putAccount a x)
  | .error stop => .error stop (v.touch s a).2

theorem credit_eq (s : Store) (a : Address) (amount : Wei) (v : View) :
    credit s a amount v = v.replace s a (match (v.account s a).credit? amount with
      | some x => .ok x
      | none => .error (.error (.balanceOverflow a))) := by
  unfold credit
  simp only [touch_fst]
  cases (v.account s a).credit? amount <;> rfl

theorem debit_eq (s : Store) (a : Address) (amount : Wei) (v : View) :
    debit s a amount v = v.replace s a (match (v.account s a).debit? amount with
      | some x => .ok x
      | none => .error (.error (.insufficientBalance amount (v.account s a).balance))) := by
  unfold debit
  simp only [touch_fst]
  cases (v.account s a).debit? amount <;> rfl

theorem bumpNonce_eq (s : Store) (a : Address) (v : View) :
    bumpNonce s a v = v.replace s a (match (v.account s a).bumpNonce with
      | .ok x => .ok x
      | .error f => .error (.fault f)) := by
  unfold bumpNonce
  simp only [touch_fst]
  cases (v.account s a).bumpNonce <;> rfl

/-! Closing several scopes at once. -/

theorem below_commitTop (v : View) : v.commitTop.below = v.below.drop 1 := by
  unfold commitTop below
  match hs : v.scopes with
  | [] => simp [hs]
  | [inner] => simp
  | inner :: outer :: rest => simp

theorem below_commitScopes (n : Nat) (v : View) : (commitScopes n v).below = v.below.drop n := by
  induction n generalizing v with
  | zero => rfl
  | succ n ih => rw [commitScopes, ih, below_commitTop, List.drop_drop, Nat.add_comm]

theorem commitScopes_alike (s : Store) (n : Nat) (v : View) : Alike s v (commitScopes n v) := by
  induction n generalizing v with
  | zero => exact .refl v
  | succ n ih => exact (commitTop_alike s v).trans (ih v.commitTop)

theorem layers_revertTo_open {v : View} {mark : Nat} (h : 1 ≤ mark) (h' : mark ≤ v.depth) :
    (v.revertTo mark).layers = v.below.drop (v.depth - mark) := by
  have hn : v.depth - Mark.outside mark = v.depth - mark + 1 := by
    unfold Mark.outside
    omega
  have hle : v.depth - mark + 1 ≤ v.scopes.length := by
    unfold depth at h' ⊢
    omega
  unfold revertTo layers
  rw [hn]
  dsimp only
  rw [← List.drop_append_of_le_length hle]
  show v.layers.drop _ = _
  rw [layers_eq, List.drop_succ_cons]

end View

/-! ### The simulation -/

/-- **The plain machine shows what the view shows**, now and in every open scope. -/
structure Snapshots.Match (s : Store) (c : Snapshots) (v : View) : Prop where
  current : c.current = v.sight s
  saved : c.saved = s.copies v.below
  backing : ∀ a, v.backing s a = s.account a

namespace Snapshots.Match

variable {s : Store} {c : Snapshots} {v : View}

theorem depth (h : c.Match s v) : c.saved.length = v.depth := by
  rw [h.saved, Store.length_copies, View.length_below]

/-- What happens within the innermost scope does not touch the copies. -/
theorem inside {w : View} {σ : Sight} (h : c.Match s v) (hin : View.Inside s v w)
    (hs : σ = w.sight s) : Match s { c with current := σ } w :=
  ⟨hs, by rw [hin.below]; exact h.saved, fun a => (hin.backing a).trans (h.backing a)⟩

/-- An account is replaced in both, or in neither. -/
theorem replace (h : c.Match s v) (a : Address) (x? : Except Stop Account) :
    (View.answered (v.replace s a x?)).1 = (c.putAccount a x?).1 ∧
      Match s (c.putAccount a x?).2 (View.answered (v.replace s a x?)).2 := by
  cases x? with
  | ok x =>
    have hs : c.current.putAccount a x = ((v.touch s a).2.putAccount a x).sight s := by
      rw [View.sight_touch_putAccount, h.current]
    exact ⟨rfl, h.inside (View.touch_putAccount_inside s v a x) hs⟩
  | error stop =>
    have hs : c.current = (v.touch s a).2.sight s := by rw [View.sight_touch, h.current]
    exact ⟨rfl, h.inside (View.touch_inside s v a) hs⟩

theorem resync (h : c.Match s v) : c.Match s v.resync := by
  have hback := View.backing_resync s v
  refine ⟨?_, h.saved, hback⟩
  rw [h.current, View.sight_eq_beneath h.backing, View.sight_eq_beneath hback]
  rfl

theorem checkpoint (h : c.Match s v) :
    Match s ⟨c.current, c.current :: c.saved⟩ v.checkpoint.2 := by
  refine ⟨?_, ?_, fun a => h.backing a⟩
  · rw [View.sight_checkpoint, h.current]
  · rw [View.below_checkpoint, View.layers_eq, Store.copies, ← View.layers_eq,
      ← View.sight_eq_beneath h.backing, h.current, h.saved]

theorem revertTo (h : c.Match s v) {mark : Nat} (hpos : 1 ≤ mark) (hle : mark ≤ v.depth) :
    Match s (c.act (.revertTo mark)).2 (v.revertTo mark) := by
  have hlayers := View.layers_revertTo_open hpos hle
  have hback : ∀ a, (v.revertTo mark).backing s a = s.account a := h.backing
  have hsaved : c.saved.drop (c.saved.length - mark)
      = (v.revertTo mark).sight s :: s.copies (v.revertTo mark).below := by
    rw [h.depth, h.saved, Store.drop_copies, ← hlayers, View.layers_eq, Store.copies,
      ← View.layers_eq, ← View.sight_eq_beneath hback]
  simp only [act, hsaved]
  exact ⟨rfl, rfl, hback⟩

theorem commitTo (h : c.Match s v) {mark : Nat} (hpos : 1 ≤ mark) :
    Match s (c.act (.commitTo mark)).2 (v.commitTo mark) := by
  have hn : v.depth - View.Mark.outside mark = v.depth + 1 - mark := by
    unfold View.Mark.outside
    omega
  have halike := View.commitScopes_alike s (v.depth + 1 - mark) v
  unfold View.commitTo
  rw [hn]
  refine ⟨?_, ?_, fun a => (halike.backing a).trans (h.backing a)⟩
  · rw [halike.sight]
    exact h.current
  · show c.saved.drop _ = _
    rw [h.depth, h.saved, Store.drop_copies, View.below_commitScopes]

/-- **One operation**: both answer the same, and match again. -/
theorem act (h : c.Match s v) (op : Operation) (hop : op.isOpen c.saved.length = true) :
    (v.act s op).1 = (c.act op).1 ∧ Match s (c.act op).2 (v.act s op).2 := by
  obtain ⟨current, saved⟩ := c
  obtain rfl : current = v.sight s := h.current
  cases op with
  | credit a amount =>
    rw [View.act, View.credit_eq]
    exact h.replace a _
  | debit a amount =>
    rw [View.act, View.debit_eq]
    exact h.replace a _
  | bumpNonce a =>
    rw [View.act, View.bumpNonce_eq]
    exact h.replace a _
  | setNonce a nonce =>
    exact ⟨rfl, h.inside (View.setNonce_inside s v a nonce) (View.sight_setNonce s v a nonce).symm⟩
  | setCode a code =>
    exact ⟨rfl, h.inside (View.setCode_inside s v a code) (View.sight_setCode s v a code).symm⟩
  | setSlot slot value =>
    exact ⟨rfl, h.inside (View.setSlot_inside s v slot value)
      (View.sight_setSlot s v slot value).symm⟩
  | addLog log =>
    exact ⟨rfl, h.inside (View.addLog_inside s v log) (View.sight_addLog s v log).symm⟩
  | resync => exact ⟨rfl, h.resync⟩
  | checkpoint =>
    refine ⟨?_, h.checkpoint⟩
    rw [View.act, View.checkpoint_fst, Snapshots.act, h.depth]
  | revertTo mark =>
    simp only [View.Operation.isOpen, Bool.and_eq_true, decide_eq_true_eq] at hop
    refine ⟨?_, h.revertTo hop.1 (h.depth ▸ hop.2)⟩
    simp only [View.act, Snapshots.act]
    split <;> rfl
  | commitTo mark =>
    simp only [View.Operation.isOpen, Bool.and_eq_true, decide_eq_true_eq] at hop
    exact ⟨rfl, h.commitTo hop.1⟩

end Snapshots.Match

namespace Snapshots

theorem saved_putAccount (c : Snapshots) (a : Address) (x? : Except Stop Account) :
    (c.putAccount a x?).2.saved = c.saved := by
  cases x? <;> rfl

/-- The scopes that are open after an operation are those that it says. -/
theorem length_saved_act {c : Snapshots} {op : Operation} (hop : op.isOpen c.saved.length = true) :
    (c.act op).2.saved.length = op.depthAfter c.saved.length := by
  cases op with
  | credit a amount => exact congrArg List.length (saved_putAccount c a _)
  | debit a amount => exact congrArg List.length (saved_putAccount c a _)
  | bumpNonce a => exact congrArg List.length (saved_putAccount c a _)
  | revertTo mark =>
    simp only [View.Operation.isOpen, Bool.and_eq_true, decide_eq_true_eq] at hop
    obtain ⟨hpos, hle⟩ := hop
    have hlength : (c.saved.drop (c.saved.length - mark)).length = mark := by
      rw [List.length_drop]
      omega
    rw [act, View.Operation.depthAfter]
    split
    · rename_i copy before hdrop
      rw [hdrop, List.length_cons] at hlength
      exact Nat.eq_sub_of_add_eq hlength
    · rename_i hdrop
      rw [hdrop, List.length_nil] at hlength
      omega
  | commitTo mark =>
    simp only [View.Operation.isOpen, Bool.and_eq_true, decide_eq_true_eq] at hop
    obtain ⟨hpos, hle⟩ := hop
    show (c.saved.drop _).length = mark - 1
    rw [List.length_drop]
    omega
  | _ => rfl

/-- **Operations in order**: both answer the same all along, and match in the end. -/
theorem Match.run {s : Store} {ops : List Operation} {c : Snapshots} {v : View}
    (h : c.Match s v) (hops : View.Operation.areOpen c.saved.length ops = true) :
    (View.Operation.run (View.act s) v ops).1 = (View.Operation.run Snapshots.act c ops).1 ∧
      Match s (View.Operation.run Snapshots.act c ops).2 (View.Operation.run (View.act s) v ops).2 := by
  induction ops generalizing c v with
  | nil => exact ⟨rfl, h⟩
  | cons op ops ih =>
    rw [View.Operation.areOpen, Bool.and_eq_true] at hops
    obtain ⟨hop, hops⟩ := hops
    obtain ⟨hanswer, hnext⟩ := h.act op hop
    rw [← length_saved_act hop] at hops
    obtain ⟨hanswers, hend⟩ := ih hnext hops
    exact ⟨congrArg₂ List.cons hanswer hanswers, hend⟩

end Snapshots

/-- **A view is as good as full copies.** On any store, and after any operations on a new
view that close open scopes only, the view has given the answers of the plain machine, and
reads the same: every account, every code, every slot and the logs. -/
theorem view_refines_snapshots (s : Store) (txHash : Hash) (isReadOnly : Bool)
    (ops : List Operation) (h : View.Operation.areOpen 0 ops = true) :
    let v := View.Operation.run (View.act s) { View.fresh with txHash, isReadOnly } ops
    let c := View.Operation.run Snapshots.act ⟨s.sight [], []⟩ ops
    v.1 = c.1 ∧ (∀ a, v.2.account s a = c.2.current.account a) ∧
      (∀ a, v.2.codeAt s a = c.2.current.code a) ∧ (∀ x, v.2.slot s x = c.2.current.slot x) ∧
      v.2.logs = c.2.current.logs := by
  intro v c
  have hstart : Snapshots.Match s ⟨s.sight [], []⟩ { View.fresh with txHash, isReadOnly } := by
    refine ⟨rfl, rfl, fun a => ?_⟩
    show (∅ : AddressMap Account)[a]?.getD _ = _
    rw [Std.ExtTreeMap.getElem?_empty]
    rfl
  obtain ⟨hanswers, hend⟩ := hstart.run h
  have hsight : c.2.current = v.2.sight s := hend.current
  refine ⟨hanswers, fun a => ?_, fun a => ?_, fun x => ?_, ?_⟩ <;> rw [hsight] <;> rfl

/-! ### Scopes within scopes -/

namespace NestedScopes

/-- Account 1 has value to pay with. -/
def store : Store := Store.ofAccounts [(⟨1⟩, .ofBalance 100)]

/-- The slot that is written. -/
def slot : Slot := ⟨⟨1⟩, ⟨9⟩⟩

/-- Three scopes, the inner two of which are kept at once and the outer one dropped; two of
the payments fail. -/
def operations : List Operation := [
  .debit ⟨1⟩ 30, .checkpoint, .setSlot slot [1], .debit ⟨1⟩ 71, .checkpoint, .bumpNonce ⟨1⟩,
  .checkpoint, .credit ⟨2⟩ 5, .credit ⟨2⟩ maxWei, .commitTo 2, .resync, .debit ⟨2⟩ 5,
  .addLog ⟨⟨2⟩, [], [7]⟩, .revertTo 1, .checkpoint, .credit ⟨1⟩ 1]

end NestedScopes

open NestedScopes in
/-- Only what was done outside of the dropped scope is left. -/
theorem view_refines_snapshots_nested :
    let v := View.Operation.run (View.act store) View.fresh operations
    let c := View.Operation.run Snapshots.act ⟨store.sight [], []⟩ operations
    View.Operation.areOpen 0 operations = true ∧ v.1 = c.1 ∧
      c.1.filter (· ≠ .done) = [.opened 1, .stopped (.error (.insufficientBalance 71 70)),
        .opened 2, .opened 3, .stopped (.error (.balanceOverflow ⟨2⟩)), .opened 1] ∧
      c.2.saved.length = 1 ∧ v.2.account store ⟨1⟩ = ⟨0, 71, .zero⟩ ∧
      v.2.account store ⟨2⟩ = .empty ∧ v.2.slot store slot = [] ∧ v.2.logs = [] := by
  have hopen : View.Operation.areOpen 0 operations = true := by decide
  obtain ⟨hanswers, haccount, -, hslot, hlogs⟩ :=
    view_refines_snapshots store .zero false operations hopen
  have hcopies : let c := View.Operation.run Snapshots.act ⟨store.sight [], []⟩ operations
      c.1.filter (· ≠ .done) = [.opened 1, .stopped (.error (.insufficientBalance 71 70)),
        .opened 2, .opened 3, .stopped (.error (.balanceOverflow ⟨2⟩)), .opened 1] ∧
      c.2.saved.length = 1 ∧ c.2.current.account ⟨1⟩ = ⟨0, 71, .zero⟩ ∧
      c.2.current.account ⟨2⟩ = .empty ∧ c.2.current.slot slot = [] ∧ c.2.current.logs = [] := by
    decide +kernel
  obtain ⟨hgiven, hsaved, hfirst, hsecond, hempty, hnone⟩ := hcopies
  exact ⟨hopen, hanswers, hgiven, hsaved, (haccount ⟨1⟩).trans hfirst,
    (haccount ⟨2⟩).trans hsecond, (hslot slot).trans hempty, hlogs.trans hnone⟩

end MeteredLedger
