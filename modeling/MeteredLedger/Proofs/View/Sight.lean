import Mathlib.Logic.Function.Basic
import MeteredLedger.Proofs.Action
import MeteredLedger.View

/-!
# What a view shows

A view is read in four ways: by account, by code, by slot and for its logs. What it
answers to all of them together is its sight (`View.sight`), a plain state without
layers. Every operation is described here by what it does to the sight: a write
changes one place of it, opening and committing a scope change nothing
(`sight_checkpoint`, `commitTop_alike`), and bringing an account into the innermost
layer changes nothing either (`sight_touch`).

The sight hangs on the layers and on what the view would answer without them
(`View.backing`), and on nothing else (`Alike.sight`).
-/

namespace MeteredLedger

/-! ### Sights -/

/-- A state without layers. -/
@[ext] structure Sight where
  /-- The account of every address. -/
  account : Address → Account
  /-- The code of every address. -/
  code : Address → Bytes
  /-- The value of every slot. -/
  slot : Slot → Bytes
  /-- The logs left. -/
  logs : List Log

namespace Sight

/-- With another account at an address. -/
def putAccount (σ : Sight) (a : Address) (account : Account) : Sight :=
  { σ with account := Function.update σ.account a account }

/-- With other code at an address. -/
def putCode (σ : Sight) (a : Address) (code : Bytes) : Sight :=
  { σ with code := Function.update σ.code a code }

/-- With another value in a slot. -/
def putSlot (σ : Sight) (slot : Slot) (value : Bytes) : Sight :=
  { σ with slot := Function.update σ.slot slot value }

/-- With one more log. -/
def addLog (σ : Sight) (log : Log) : Sight := { σ with logs := σ.logs ++ [log] }

section

variable (σ : Sight) (a : Address) (x : Account)

@[simp] theorem putAccount_account : (σ.putAccount a x).account = Function.update σ.account a x := rfl

@[simp] theorem putAccount_code : (σ.putAccount a x).code = σ.code := rfl

@[simp] theorem putAccount_slot : (σ.putAccount a x).slot = σ.slot := rfl

@[simp] theorem putAccount_logs : (σ.putAccount a x).logs = σ.logs := rfl

end

section

variable (σ : Sight) (a : Address) (code : Bytes)

@[simp] theorem putCode_account : (σ.putCode a code).account = σ.account := rfl

@[simp] theorem putCode_code : (σ.putCode a code).code = Function.update σ.code a code := rfl

@[simp] theorem putCode_slot : (σ.putCode a code).slot = σ.slot := rfl

@[simp] theorem putCode_logs : (σ.putCode a code).logs = σ.logs := rfl

end

section

variable (σ : Sight) (x : Slot) (value : Bytes)

@[simp] theorem putSlot_account : (σ.putSlot x value).account = σ.account := rfl

@[simp] theorem putSlot_code : (σ.putSlot x value).code = σ.code := rfl

@[simp] theorem putSlot_slot : (σ.putSlot x value).slot = Function.update σ.slot x value := rfl

@[simp] theorem putSlot_logs : (σ.putSlot x value).logs = σ.logs := rfl

end

section

variable (σ : Sight) (log : Log)

@[simp] theorem addLog_account : (σ.addLog log).account = σ.account := rfl

@[simp] theorem addLog_code : (σ.addLog log).code = σ.code := rfl

@[simp] theorem addLog_slot : (σ.addLog log).slot = σ.slot := rfl

@[simp] theorem addLog_logs : (σ.addLog log).logs = σ.logs ++ [log] := rfl

end

theorem putAccount_self (σ : Sight) (a : Address) : σ.putAccount a (σ.account a) = σ := by
  simp [putAccount]

end Sight

/-- What a store shows of itself, beside some logs. -/
def Store.sight (s : Store) (logs : List Log) : Sight := ⟨s.account, s.codeAt, s.slot, logs⟩

/-! ### Single layers -/

namespace Layer

theorem accounts_empty (a : Address) : empty.accounts[a]? = none := Std.ExtTreeMap.getElem?_empty

theorem code_empty (a : Address) : empty.code[a]? = none := Std.ExtTreeMap.getElem?_empty

theorem slots_empty (x : Slot) : empty.slots[x]? = none := Std.ExtTreeMap.getElem?_empty

variable (outer inner : Layer)

theorem accounts_absorb (a : Address) :
    (outer.absorb inner).accounts[a]? = inner.accounts[a]?.or outer.accounts[a]? :=
  Std.ExtTreeMap.getElem?_union

theorem code_absorb (a : Address) :
    (outer.absorb inner).code[a]? = inner.code[a]?.or outer.code[a]? :=
  Std.ExtTreeMap.getElem?_union

theorem slots_absorb (x : Slot) :
    (outer.absorb inner).slots[x]? = inner.slots[x]?.or outer.slots[x]? :=
  Std.ExtTreeMap.getElem?_union

end Layer

namespace View

/-- What a view shows. -/
def sight (s : Store) (v : View) : Sight := ⟨v.account s, v.codeAt s, v.slot s, v.logs⟩

@[simp] theorem sight_account (s : Store) (v : View) : (v.sight s).account = v.account s := rfl

@[simp] theorem sight_code (s : Store) (v : View) : (v.sight s).code = v.codeAt s := rfl

@[simp] theorem sight_slot (s : Store) (v : View) : (v.sight s).slot = v.slot s := rfl

@[simp] theorem sight_logs (s : Store) (v : View) : (v.sight s).logs = v.logs := rfl

/-- The account that an address has where no layer knows it. -/
def backing (s : Store) (v : View) (a : Address) : Account := v.remembered[a]?.getD (s.account a)

/-- Before anything is remembered, only the store lies behind the layers. -/
theorem backing_resync (s : Store) (v : View) (a : Address) :
    v.resync.backing s a = s.account a := by
  unfold backing resync
  rw [Std.ExtTreeMap.getElem?_empty]
  rfl

/-! ### Layers -/

/-- The layers around the innermost one, from the inside out. -/
def below (v : View) : List Layer :=
  match v.scopes with
  | [] => []
  | _ :: outer => outer ++ [v.base]

theorem layers_eq (v : View) : v.layers = v.top :: v.below := by
  unfold layers top below
  cases v.scopes <;> rfl

theorem length_below (v : View) : v.below.length = v.depth := by
  unfold below depth
  cases v.scopes <;> simp

theorem find?_eq {α : Type} (v : View) (look : Layer → Option α) :
    v.find? look = v.layers.findSome? look := by
  unfold find? layers
  rw [List.findSome?_append]
  cases v.scopes.findSome? look <;> simp [Option.or]

/-- What the innermost layer answers goes first. -/
theorem find?_eq_or {α : Type} (v : View) (look : Layer → Option α) :
    v.find? look = (look v.top).or (v.below.findSome? look) := by
  rw [find?_eq, layers_eq, List.findSome?_cons]
  cases look v.top <;> rfl

theorem account_eq (s : Store) (v : View) (a : Address) :
    v.account s a = (v.find? (·.accounts[a]?)).getD (v.backing s a) := by
  unfold account backing
  cases v.find? (·.accounts[a]?) with
  | some x => rfl
  | none => cases v.remembered[a]? <;> rfl

theorem codeAt_eq (s : Store) (v : View) (a : Address) :
    v.codeAt s a = (v.find? (·.code[a]?)).getD (s.codeAt a) := by
  unfold codeAt
  cases v.find? (·.code[a]?) <;> rfl

theorem slot_eq (s : Store) (v : View) (x : Slot) :
    v.slot s x = (v.find? (·.slots[x]?)).getD (s.slot x) := by
  unfold slot
  cases v.find? (·.slots[x]?) <;> rfl

/-! ### Views alike -/

/-- **Views that hold the same changes**, in whatever layers they lie, in front of the same
accounts. -/
structure Alike (s : Store) (v w : View) : Prop where
  accounts : ∀ a : Address, w.find? (·.accounts[a]?) = v.find? (·.accounts[a]?)
  code : ∀ a : Address, w.find? (·.code[a]?) = v.find? (·.code[a]?)
  slots : ∀ x : Slot, w.find? (·.slots[x]?) = v.find? (·.slots[x]?)
  logs : w.logs = v.logs
  backing : ∀ a, w.backing s a = v.backing s a

namespace Alike

variable {s : Store} {u v w : View}

theorem refl (v : View) : Alike s v v :=
  ⟨fun _ => rfl, fun _ => rfl, fun _ => rfl, rfl, fun _ => rfl⟩

theorem trans (h : Alike s u v) (h' : Alike s v w) : Alike s u w :=
  ⟨fun a => (h'.accounts a).trans (h.accounts a), fun a => (h'.code a).trans (h.code a),
    fun x => (h'.slots x).trans (h.slots x), h'.logs.trans h.logs,
    fun a => (h'.backing a).trans (h.backing a)⟩

theorem of_layers (hl : w.layers = v.layers) (hb : ∀ a, w.backing s a = v.backing s a) :
    Alike s v w :=
  ⟨fun _ => by simp only [find?_eq, hl], fun _ => by simp only [find?_eq, hl],
    fun _ => by simp only [find?_eq, hl], by simp only [View.logs, hl], hb⟩

/-- They show the same. -/
theorem sight (h : Alike s v w) : w.sight s = v.sight s := by
  ext1
  · funext a
    simp only [sight_account, account_eq, h.accounts, h.backing]
  · funext a
    simp only [sight_code, codeAt_eq, h.code]
  · funext x
    simp only [sight_slot, slot_eq, h.slots]
  · exact h.logs

end Alike

/-! ### Changes to the innermost layer -/

section ModifyTop

variable (v : View) (f : Layer → Layer)

@[simp] theorem top_modifyTop : (v.modifyTop f).top = f v.top := by
  unfold modifyTop top
  cases v.scopes <;> simp

@[simp] theorem below_modifyTop : (v.modifyTop f).below = v.below := by
  unfold modifyTop below
  cases v.scopes <;> simp

@[simp] theorem remembered_modifyTop : (v.modifyTop f).remembered = v.remembered := by
  unfold modifyTop
  cases v.scopes <;> rfl

@[simp] theorem txHash_modifyTop : (v.modifyTop f).txHash = v.txHash := by
  unfold modifyTop
  cases v.scopes <;> rfl

@[simp] theorem isReadOnly_modifyTop : (v.modifyTop f).isReadOnly = v.isReadOnly := by
  unfold modifyTop
  cases v.scopes <;> rfl

@[simp] theorem backing_modifyTop (s : Store) (a : Address) :
    (v.modifyTop f).backing s a = v.backing s a := by
  unfold backing
  rw [remembered_modifyTop]

theorem find?_modifyTop {α : Type} (look : Layer → Option α) :
    (v.modifyTop f).find? look = (look (f v.top)).or (v.below.findSome? look) := by
  rw [find?_eq_or, top_modifyTop, below_modifyTop]

theorem logs_eq : v.logs = (v.below.reverse.flatMap (·.logs)) ++ v.top.logs := by
  unfold logs
  rw [layers_eq]
  simp

end ModifyTop

/-! What a change to the innermost layer leaves alone shows as before. -/

section Untouched

variable {v : View} {f : Layer → Layer}

theorem account_modifyTop (s : Store) (h : (f v.top).accounts = v.top.accounts) :
    (v.modifyTop f).account s = v.account s := by
  funext a
  rw [account_eq, account_eq, find?_modifyTop, find?_eq_or, backing_modifyTop, h]

theorem codeAt_modifyTop (s : Store) (h : (f v.top).code = v.top.code) :
    (v.modifyTop f).codeAt s = v.codeAt s := by
  funext a
  rw [codeAt_eq, codeAt_eq, find?_modifyTop, find?_eq_or, h]

theorem slot_modifyTop (s : Store) (h : (f v.top).slots = v.top.slots) :
    (v.modifyTop f).slot s = v.slot s := by
  funext x
  rw [slot_eq, slot_eq, find?_modifyTop, find?_eq_or, h]

theorem logs_modifyTop (h : (f v.top).logs = v.top.logs) : (v.modifyTop f).logs = v.logs := by
  rw [logs_eq, logs_eq, below_modifyTop, top_modifyTop, h]

end Untouched

/-! ### Writing -/

theorem sight_putAccount (s : Store) (v : View) (a : Address) (x : Account) :
    (v.putAccount a x).sight s = (v.sight s).putAccount a x := by
  unfold putAccount
  refine Sight.ext ?_ (codeAt_modifyTop s rfl) (slot_modifyTop s rfl) (logs_modifyTop rfl)
  funext b
  rw [sight_account, account_eq, find?_modifyTop, backing_modifyTop, Sight.putAccount_account,
    Function.update_apply, sight_account, account_eq, find?_eq_or, Std.ExtTreeMap.getElem?_insert]
  by_cases h : b = a
  · simp [h]
  · simp [h, Ne.symm h]

theorem sight_setSlot (s : Store) (v : View) (x : Slot) (value : Bytes) :
    (v.setSlot x value).sight s = (v.sight s).putSlot x value := by
  unfold setSlot
  refine Sight.ext (account_modifyTop s rfl) (codeAt_modifyTop s rfl) ?_ (logs_modifyTop rfl)
  funext y
  rw [sight_slot, slot_eq, find?_modifyTop, Sight.putSlot_slot, Function.update_apply, sight_slot,
    slot_eq, find?_eq_or, Std.ExtTreeMap.getElem?_insert]
  by_cases h : y = x
  · simp [h]
  · simp [h, Ne.symm h]

/-- Writing code into the innermost layer. -/
theorem sight_insertCode (s : Store) (v : View) (a : Address) (code : Bytes) :
    (v.modifyTop fun layer => { layer with code := layer.code.insert a code }).sight s
      = (v.sight s).putCode a code := by
  refine Sight.ext (account_modifyTop s rfl) ?_ (slot_modifyTop s rfl) (logs_modifyTop rfl)
  funext b
  rw [sight_code, codeAt_eq, find?_modifyTop, Sight.putCode_code, Function.update_apply, sight_code,
    codeAt_eq, find?_eq_or, Std.ExtTreeMap.getElem?_insert]
  by_cases h : b = a
  · simp [h]
  · simp [h, Ne.symm h]

theorem sight_addLog (s : Store) (v : View) (log : Log) :
    (v.addLog log).sight s = (v.sight s).addLog log := by
  unfold addLog
  refine Sight.ext (account_modifyTop s rfl) (codeAt_modifyTop s rfl) (slot_modifyTop s rfl) ?_
  simp [logs_eq, Sight.addLog]

/-! ### Bringing an account in -/

theorem touch_fst (s : Store) (v : View) (a : Address) : (v.touch s a).1 = v.account s a := by
  unfold touch account
  cases v.find? (·.accounts[a]?) with
  | some x => rfl
  | none => cases v.remembered[a]? <;> rfl

/-! ### What stays around a scope -/

/-- **One view comes of another within a scope**: the layers around the innermost one
are the same, and so is what the view answers behind all layers. -/
structure Inside (s : Store) (v v' : View) : Prop where
  below : v'.below = v.below
  backing : ∀ a, v'.backing s a = v.backing s a
  txHash : v'.txHash = v.txHash
  isReadOnly : v'.isReadOnly = v.isReadOnly

namespace Inside

variable {s : Store} {u v w : View}

theorem refl (v : View) : Inside s v v := ⟨rfl, fun _ => rfl, rfl, rfl⟩

theorem trans (h : Inside s u v) (h' : Inside s v w) : Inside s u w :=
  ⟨h'.below.trans h.below, fun a => (h'.backing a).trans (h.backing a),
    h'.txHash.trans h.txHash, h'.isReadOnly.trans h.isReadOnly⟩

theorem depth (h : Inside s u v) : v.depth = u.depth := by
  rw [← length_below, ← length_below, h.below]

end Inside

theorem modifyTop_inside (s : Store) (v : View) (f : Layer → Layer) :
    Inside s v (v.modifyTop f) :=
  ⟨below_modifyTop v f, backing_modifyTop v f s, txHash_modifyTop v f, isReadOnly_modifyTop v f⟩

theorem putAccount_inside (s : Store) (v : View) (a : Address) (x : Account) :
    Inside s v (v.putAccount a x) := modifyTop_inside s v _

theorem setSlot_inside (s : Store) (v : View) (x : Slot) (value : Bytes) :
    Inside s v (v.setSlot x value) := modifyTop_inside s v _

theorem addLog_inside (s : Store) (v : View) (log : Log) : Inside s v (v.addLog log) :=
  modifyTop_inside s v _

/-- Remembering what the store says makes no difference behind the layers. -/
theorem remember_inside {s : Store} {v : View} {a : Address} (h : v.remembered[a]? = none) :
    Inside s v { v with remembered := v.remembered.insert a (s.account a) } := by
  refine ⟨rfl, fun b => ?_, rfl, rfl⟩
  unfold backing
  rw [Std.ExtTreeMap.getElem?_insert]
  by_cases hb : a = b
  · subst hb
    simp [h]
  · simp [hb]

/-- An account is brought in by putting it, as it is, into the innermost layer of a
view that differs at most in what it remembers. -/
theorem touch_snd (s : Store) (v : View) (a : Address) :
    ∃ u : View, (v.touch s a).2 = u.putAccount a (v.account s a) ∧ u.top = v.top ∧
      Inside s v u := by
  have hx := touch_fst s v a
  unfold touch at hx ⊢
  split at hx
  · exact ⟨v, by rw [← hx], rfl, .refl v⟩
  · split at hx
    · exact ⟨v, by rw [← hx], rfl, .refl v⟩
    · rename_i hr
      exact ⟨{ v with remembered := v.remembered.insert a (s.account a) }, by rw [← hx], rfl,
        remember_inside hr⟩

theorem touch_inside (s : Store) (v : View) (a : Address) : Inside s v (v.touch s a).2 := by
  obtain ⟨u, hu, -, hin⟩ := touch_snd s v a
  rw [hu]
  exact hin.trans (putAccount_inside s u a _)

/-- Bringing an account in shows nothing new. -/
theorem sight_touch (s : Store) (v : View) (a : Address) :
    (v.touch s a).2.sight s = v.sight s := by
  obtain ⟨u, hu, ht, hin⟩ := touch_snd s v a
  have hs : u.sight s = v.sight s :=
    (Alike.of_layers (by rw [layers_eq, layers_eq, ht, hin.below]) hin.backing).sight
  rw [hu, sight_putAccount, hs]
  exact Sight.putAccount_self (v.sight s) a

/-- Bringing an account in and changing it. -/
theorem sight_touch_putAccount (s : Store) (v : View) (a : Address) (x : Account) :
    ((v.touch s a).2.putAccount a x).sight s = (v.sight s).putAccount a x := by
  rw [sight_putAccount, sight_touch]

theorem touch_putAccount_inside (s : Store) (v : View) (a : Address) (x : Account) :
    Inside s v ((v.touch s a).2.putAccount a x) :=
  (touch_inside s v a).trans (putAccount_inside s _ a x)

/-! ### Operations on accounts -/

/-- What giving an address more value comes to. -/
theorem credit_meets (s : Store) (a : Address) (amount : Wei) (v : View) :
    Meets (credit s a amount) v
      (fun _ v' => Inside s v v' ∧ ∃ x, (v.account s a).credit? amount = some x ∧
        v'.sight s = (v.sight s).putAccount a x)
      (fun stop v' => Inside s v v' ∧ v'.sight s = v.sight s ∧
        stop = .error (.balanceOverflow a)) := by
  unfold Meets credit
  simp only [touch_fst]
  cases h : (v.account s a).credit? amount with
  | some x => exact ⟨touch_putAccount_inside s v a x, x, rfl, sight_touch_putAccount s v a x⟩
  | none => exact ⟨touch_inside s v a, sight_touch s v a, rfl⟩

/-- What taking value from an address comes to. -/
theorem debit_meets (s : Store) (a : Address) (amount : Wei) (v : View) :
    Meets (debit s a amount) v
      (fun _ v' => Inside s v v' ∧ ∃ x, (v.account s a).debit? amount = some x ∧
        v'.sight s = (v.sight s).putAccount a x)
      (fun stop v' => Inside s v v' ∧ v'.sight s = v.sight s ∧
        stop = .error (.insufficientBalance amount (v.balance s a))) := by
  unfold Meets debit
  simp only [touch_fst]
  cases h : (v.account s a).debit? amount with
  | some x => exact ⟨touch_putAccount_inside s v a x, x, rfl, sight_touch_putAccount s v a x⟩
  | none => exact ⟨touch_inside s v a, sight_touch s v a, rfl⟩

/-- What moving value comes to: two accounts changed, or none of what is behind the
innermost layer. -/
theorem transfer_meets (s : Store) (source target : Address) (amount : Wei) (v : View) :
    Meets (transfer s source target amount) v
      (fun _ v' => Inside s v v' ∧ ∃ x y, (v.account s source).debit? amount = some x ∧
        (((v.sight s).putAccount source x).account target).credit? amount = some y ∧
        v'.sight s = ((v.sight s).putAccount source x).putAccount target y)
      (fun stop v' => Inside s v v' ∧ (stop = .error (.balanceOverflow target) ∨
        stop = .error (.insufficientBalance amount (v.balance s source)))) := by
  refine Meets.bind ((debit_meets s source amount v).mono ?_ ?_)
  · rintro _ v₁ ⟨hin, x, hx, hs⟩
    refine (credit_meets s target amount v₁).mono ?_ ?_
    · rintro _ v₂ ⟨hin', y, hy, hs'⟩
      refine ⟨hin.trans hin', x, y, hx, ?_, ?_⟩
      · rw [← hs]
        exact hy
      · rw [hs', hs]
    · rintro stop v₂ ⟨hin', -, he⟩
      exact ⟨hin.trans hin', .inl he⟩
  · rintro stop v₁ ⟨hin, -, he⟩
    exact ⟨hin, .inr he⟩

/-- What taking an address to its next nonce comes to. -/
theorem bumpNonce_meets (s : Store) (a : Address) (v : View) :
    Meets (bumpNonce s a) v
      (fun _ v' => Inside s v v' ∧ (v.account s a).nonce.toNat + 1 < UInt64.size ∧
        v'.sight s = (v.sight s).putAccount a
          { v.account s a with nonce := (v.account s a).nonce + 1 })
      (fun stop _ => stop = .fault .nonceOverflow) := by
  unfold Meets bumpNonce Account.bumpNonce
  simp only [touch_fst]
  by_cases h : (v.account s a).nonce.toNat + 1 < UInt64.size
  · rw [if_pos h]
    exact ⟨touch_putAccount_inside s v a _, h, sight_touch_putAccount s v a _⟩
  · rw [if_neg h]

theorem sight_setNonce (s : Store) (v : View) (a : Address) (nonce : Nonce) :
    (v.setNonce s a nonce).sight s = (v.sight s).putAccount a { v.account s a with nonce } := by
  unfold setNonce
  simp only [touch_fst]
  exact sight_touch_putAccount s v a _

theorem setNonce_inside (s : Store) (v : View) (a : Address) (nonce : Nonce) :
    Inside s v (v.setNonce s a nonce) := touch_putAccount_inside s v a _

theorem sight_setCode (s : Store) (v : View) (a : Address) (code : Bytes) :
    (v.setCode s a code).sight s
      = ((v.sight s).putAccount a { v.account s a with codeHash := codeHash code }).putCode a
        code := by
  unfold setCode
  simp only [touch_fst]
  rw [sight_insertCode, sight_touch_putAccount]

theorem setCode_inside (s : Store) (v : View) (a : Address) (code : Bytes) :
    Inside s v (v.setCode s a code) := by
  unfold setCode
  exact (touch_putAccount_inside s v a _).trans (modifyTop_inside s _ _)

/-! ### Scopes -/

@[simp] theorem below_checkpoint (v : View) : v.checkpoint.2.below = v.layers := rfl

@[simp] theorem backing_checkpoint (s : Store) (v : View) (a : Address) :
    v.checkpoint.2.backing s a = v.backing s a := rfl

theorem checkpoint_fst (v : View) : v.checkpoint.1 = v.depth + 1 := rfl

theorem find?_checkpoint {α : Type} (v : View) {look : Layer → Option α}
    (h : look .empty = none) : v.checkpoint.2.find? look = v.find? look := by
  rw [find?_eq_or, below_checkpoint, ← find?_eq]
  show (look .empty).or _ = _
  rw [h, Option.none_or]

/-- Opening a scope changes nothing. -/
theorem checkpoint_alike (s : Store) (v : View) : Alike s v v.checkpoint.2 where
  accounts a := find?_checkpoint v (Layer.accounts_empty a)
  code a := find?_checkpoint v (Layer.code_empty a)
  slots x := find?_checkpoint v (Layer.slots_empty x)
  logs := by
    rw [logs_eq, below_checkpoint]
    exact List.append_nil _
  backing _ := rfl

theorem sight_checkpoint (s : Store) (v : View) : v.checkpoint.2.sight s = v.sight s :=
  (checkpoint_alike s v).sight

/-- A view inside the scope just opened goes back to the layers from before. -/
theorem layers_revertTo {s : Store} {v w : View} (h : Inside s v.checkpoint.2 w) :
    (w.revertTo v.checkpoint.1).layers = v.layers := by
  have hb : w.below = v.layers := h.below
  have hd : w.depth = v.depth + 1 := h.depth
  obtain ⟨inner, outer, hs⟩ : ∃ inner outer, w.scopes = inner :: outer := by
    cases hw : w.scopes with
    | nil => simp [depth, hw] at hd
    | cons inner outer => exact ⟨inner, outer, rfl⟩
  have hn : w.depth - Mark.outside v.checkpoint.1 = 1 := by
    rw [checkpoint_fst, hd, Mark.outside]
    omega
  unfold revertTo layers
  rw [hn, hs]
  unfold below at hb
  rw [hs] at hb
  exact hb

/-- Dropping the scope just opened. -/
theorem revertTo_inside {s : Store} {v w : View} (h : Inside s v.checkpoint.2 w) :
    Inside s v (w.revertTo v.checkpoint.1) := by
  refine ⟨?_, h.backing, h.txHash, h.isReadOnly⟩
  have hl := layers_revertTo h
  rw [layers_eq, layers_eq] at hl
  exact (List.cons.inj hl).2

/-- Dropping the scope just opened takes back what was done in it. -/
theorem revertTo_alike {s : Store} {v w : View} (h : Inside s v.checkpoint.2 w) :
    Alike s v (w.revertTo v.checkpoint.1) := .of_layers (layers_revertTo h) h.backing

theorem sight_revertTo {s : Store} {v w : View} (h : Inside s v.checkpoint.2 w) :
    (w.revertTo v.checkpoint.1).sight s = v.sight s := (revertTo_alike h).sight

/-- Folding the innermost scope into the layer around it. -/
theorem layers_commitTop {w : View} {inner outer : Layer} {rest : List Layer}
    (h : w.layers = inner :: outer :: rest) : w.commitTop.layers = outer.absorb inner :: rest := by
  unfold layers at h ⊢
  unfold commitTop
  match hs : w.scopes with
  | [] => simp [hs] at h
  | [layer] =>
    simp only [hs, List.cons_append, List.nil_append, List.cons.injEq] at h ⊢
    obtain ⟨rfl, rfl, rfl⟩ := h
    simp
  | layer :: next :: others =>
    simp only [hs, List.cons_append, List.cons.injEq] at h ⊢
    obtain ⟨rfl, rfl, rfl⟩ := h
    simp

theorem find?_commitTop {α : Type} {w : View} {inner outer : Layer} {rest : List Layer}
    (h : w.layers = inner :: outer :: rest) {look : Layer → Option α}
    (hl : look (outer.absorb inner) = (look inner).or (look outer)) :
    w.commitTop.find? look = w.find? look := by
  rw [find?_eq, find?_eq, layers_commitTop h, h, List.findSome?_cons, List.findSome?_cons,
    List.findSome?_cons, hl]
  cases look inner <;> rfl

theorem backing_commitTop (s : Store) (w : View) (a : Address) :
    w.commitTop.backing s a = w.backing s a := by
  unfold commitTop
  split <;> rfl

/-- Folding the innermost scope changes nothing. -/
theorem commitTop_alike (s : Store) (w : View) : Alike s w w.commitTop := by
  obtain hb | ⟨inner, outer, rest, h⟩ :
      w.scopes = [] ∨ ∃ inner outer rest, w.layers = inner :: outer :: rest := by
    unfold layers
    match w.scopes with
    | [] => exact .inl rfl
    | [inner] => exact .inr ⟨inner, w.base, [], rfl⟩
    | inner :: outer :: rest => exact .inr ⟨inner, outer, rest ++ [w.base], rfl⟩
  · have heq : w.commitTop = w := by simp only [commitTop, hb]
    rw [heq]
    exact .refl w
  · refine ⟨fun a => find?_commitTop h (Layer.accounts_absorb outer inner a),
      fun a => find?_commitTop h (Layer.code_absorb outer inner a),
      fun x => find?_commitTop h (Layer.slots_absorb outer inner x), ?_, backing_commitTop s w⟩
    rw [logs, logs, layers_commitTop h, h]
    simp [Layer.absorb]

/-- Keeping the scope just opened folds one layer. -/
theorem commitTo_eq {s : Store} {v w : View} (h : Inside s v.checkpoint.2 w) :
    w.commitTo v.checkpoint.1 = w.commitTop := by
  have hd : w.depth = v.depth + 1 := h.depth
  have hn : w.depth - Mark.outside v.checkpoint.1 = 1 := by
    rw [checkpoint_fst, hd, Mark.outside]
    omega
  unfold commitTo
  rw [hn]
  rfl

/-- Keeping the scope just opened keeps what was done in it. -/
theorem commitTo_alike {s : Store} {v w : View} (h : Inside s v.checkpoint.2 w) :
    Alike s w (w.commitTo v.checkpoint.1) := by
  rw [commitTo_eq h]
  exact commitTop_alike s w

theorem sight_commitTo {s : Store} {v w : View} (h : Inside s v.checkpoint.2 w) :
    (w.commitTo v.checkpoint.1).sight s = w.sight s := (commitTo_alike h).sight

/-- Keeping the scope just opened changes only the layer that it lies in. -/
theorem commitTo_inside {s : Store} {v w : View} (h : Inside s v.checkpoint.2 w) :
    Inside s v (w.commitTo v.checkpoint.1) := by
  have hl : w.layers = w.top :: v.top :: v.below := by
    rw [layers_eq, h.below, below_checkpoint, layers_eq]
  rw [commitTo_eq h]
  refine ⟨?_, fun a => ?_, ?_, ?_⟩
  · have hc := layers_commitTop hl
    rw [layers_eq] at hc
    exact (List.cons.inj hc).2
  · rw [backing_commitTop, h.backing, backing_checkpoint]
  · rw [← show v.checkpoint.2.txHash = v.txHash from rfl, ← h.txHash]
    unfold commitTop
    split <;> rfl
  · rw [← show v.checkpoint.2.isReadOnly = v.isReadOnly from rfl, ← h.isReadOnly]
    unfold commitTop
    split <;> rfl

end View

end MeteredLedger
