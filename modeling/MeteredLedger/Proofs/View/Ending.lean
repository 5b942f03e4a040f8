import MeteredLedger.Proofs.View.Publish
import MeteredLedger.Proofs.View.Snapshots

/-!
# How a view ends

Whatever is done to a view, the store stays behind its layers as it is, and whether the
view may be published stays settled (`InFront.act`, `InFront.run`). So when it is published
the store reads as the view did, place by place, however many scopes are still open
(`publish_publishes_sight`): what an inner layer has written over is written once, and what
has been emptied is taken away. A view that is dropped, and one that may not be published,
leave the store as it was.
-/

namespace MeteredLedger

namespace View

/-- **The view lies in front of the store as it is**, and may be published or not. -/
structure InFront (s : Store) (isReadOnly : Bool) (v : View) : Prop where
  backing : ∀ a, v.backing s a = s.account a
  isReadOnly : v.isReadOnly = isReadOnly

/-- A view without changes remembers nothing. -/
theorem inFront_fresh (s : Store) (txHash : Hash) (isReadOnly : Bool) :
    InFront s isReadOnly { fresh with txHash, isReadOnly } := by
  refine ⟨fun a => ?_, rfl⟩
  show (∅ : AddressMap Account)[a]?.getD _ = _
  rw [Std.ExtTreeMap.getElem?_empty]
  rfl

/-- An account that is brought in, and replaced or not, lies in the innermost scope. -/
theorem replace_inside (s : Store) (v : View) (a : Address) (x? : Except Stop Account) :
    Inside s v (answered (v.replace s a x?)).2 := by
  cases x? with
  | ok x => exact touch_putAccount_inside s v a x
  | error stop => exact touch_inside s v a

theorem isReadOnly_commitTop (v : View) : v.commitTop.isReadOnly = v.isReadOnly := by
  unfold commitTop
  split <;> rfl

theorem isReadOnly_commitScopes (n : Nat) (v : View) :
    (commitScopes n v).isReadOnly = v.isReadOnly := by
  induction n generalizing v with
  | zero => rfl
  | succ n ih => rw [commitScopes, ih, isReadOnly_commitTop]

namespace InFront

variable {s : Store} {isReadOnly : Bool} {v w : View}

/-- What happens within the innermost scope happens in front of the store. -/
theorem inside (h : InFront s isReadOnly v) (hin : Inside s v w) : InFront s isReadOnly w :=
  ⟨fun a => (hin.backing a).trans (h.backing a), hin.isReadOnly.trans h.isReadOnly⟩

/-- Scopes may be kept up to any mark, open or not. -/
theorem commitTo (h : InFront s isReadOnly v) (mark : Mark) :
    InFront s isReadOnly (v.commitTo mark) :=
  ⟨fun a => ((commitScopes_alike s _ v).backing a).trans (h.backing a),
    (isReadOnly_commitScopes _ v).trans h.isReadOnly⟩

/-- **One operation.** -/
theorem act (h : InFront s isReadOnly v) (op : Operation) :
    InFront s isReadOnly (v.act s op).2 := by
  cases op with
  | credit a amount =>
    rw [View.act, credit_eq]
    exact h.inside (replace_inside s v a _)
  | debit a amount =>
    rw [View.act, debit_eq]
    exact h.inside (replace_inside s v a _)
  | bumpNonce a =>
    rw [View.act, bumpNonce_eq]
    exact h.inside (replace_inside s v a _)
  | setNonce a nonce => exact h.inside (setNonce_inside s v a nonce)
  | setCode a code => exact h.inside (setCode_inside s v a code)
  | setSlot slot value => exact h.inside (setSlot_inside s v slot value)
  | addLog log => exact h.inside (addLog_inside s v log)
  | resync => exact ⟨backing_resync s v, h.isReadOnly⟩
  | checkpoint => exact ⟨h.backing, h.isReadOnly⟩
  | revertTo mark => exact ⟨h.backing, h.isReadOnly⟩
  | commitTo mark => exact h.commitTo mark

/-- **Any number of operations.** -/
theorem run (h : InFront s isReadOnly v) (ops : List Operation) :
    InFront s isReadOnly (Operation.run (View.act s) v ops).2 := by
  induction ops generalizing v with
  | nil => exact h
  | cons op ops ih => exact ih (h.act op)

end InFront

/-! ### Publishing and dropping -/

/-- The store once a view is ended: it stays as it is if the view may not be published. -/
def storeAfter (v : View) (commit : Bool) (s : Store) : Store :=
  match v.publish commit s with
  | .ok (_, s') => s'
  | .error _ => s

theorem publish_of_writable {s : Store} {v : View} (h : v.isReadOnly = false) :
    v.publish true s = .ok (v.logs, s.apply v.pending) := by
  simp [publish, h]

theorem publish_of_isReadOnly {s : Store} {v : View} (h : v.isReadOnly = true) :
    v.publish true s = .error .readOnly := by
  simp [publish, h]

/-- A view is published only if it may be. -/
theorem publish_eq_ok {s s' : Store} {v : View} {logs : List Log}
    (h : v.publish true s = .ok (logs, s')) :
    v.isReadOnly = false ∧ logs = v.logs ∧ s' = s.apply v.pending := by
  cases hw : v.isReadOnly with
  | true =>
    rw [publish_of_isReadOnly hw] at h
    cases h
  | false =>
    rw [publish_of_writable hw] at h
    cases h
    exact ⟨rfl, rfl, rfl⟩

/-- **A store into which a view is published reads as the view did.** After any operations
on a new view, with any scopes still open, publishing a writable view succeeds and hands out
the logs of the view; every account, every code and every slot of the store is from then on
what the view answered. Dropping a view leaves the store as it was, and so does a view that
is only for reading, which refuses to be published. -/
theorem publish_publishes_sight (s : Store) (txHash : Hash) (isReadOnly : Bool)
    (ops : List Operation) :
    let v := (Operation.run (View.act s) { fresh with txHash, isReadOnly } ops).2
    (isReadOnly = false → ∃ s', v.publish true s = .ok (v.logs, s') ∧ v.storeAfter true s = s' ∧
      (∀ a, s'.account a = v.account s a) ∧ (∀ a, s'.codeAt a = v.codeAt s a) ∧
      (∀ x, s'.slot x = v.slot s x)) ∧
    (v.publish false s = .ok ([], s) ∧ v.storeAfter false s = s) ∧
    (isReadOnly = true → v.publish true s = .error .readOnly ∧ v.storeAfter true s = s) := by
  intro v
  have hv : InFront s isReadOnly v := (inFront_fresh s txHash isReadOnly).run ops
  refine ⟨?_, ⟨rfl, rfl⟩, ?_⟩
  · rintro rfl
    have hp := publish_of_writable (s := s) hv.isReadOnly
    refine ⟨s.apply v.pending, hp, by rw [storeAfter, hp], ?_, ?_, ?_⟩
    · exact congrFun (account_apply_pending hv.backing)
    · exact congrFun (codeAt_apply_pending s v)
    · exact congrFun (slot_apply_pending s v)
  · rintro rfl
    have hp := publish_of_isReadOnly (s := s) hv.isReadOnly
    exact ⟨hp, by rw [storeAfter, hp]⟩

/-! ### Scopes left open -/

namespace OpenScopes

/-- The slot that is written. -/
def counter : Slot := ⟨⟨1⟩, ⟨9⟩⟩

/-- Account 1 has value, code and a slot that is written. -/
def store : Store :=
  ((Store.ofAccounts [(⟨1⟩, .ofBalance 100)]).putCode ⟨1⟩ [7]).putSlot counter [1]

/-- Account 1 gives its value away, is cleared in an inner scope, and is not written again:
the scope in which it would have been is dropped. Two scopes stay open. -/
def operations : List Operation := [
  .debit ⟨1⟩ 100, .setSlot counter [2], .checkpoint, .setCode ⟨1⟩ [], .setSlot counter [],
  .checkpoint, .credit ⟨2⟩ 100, .addLog ⟨⟨2⟩, [], [7]⟩, .checkpoint, .setSlot counter [3],
  .credit ⟨1⟩ 1, .revertTo 3]

end OpenScopes

open OpenScopes in
/-- What has been emptied is gone from the store, and what was done in the open scopes is in
it; a view on which the same was done, but which is only for reading, changes nothing. -/
theorem publish_publishes_sight_open :
    let v := (Operation.run (View.act store) fresh operations).2
    let r := (Operation.run (View.act store) readOnly operations).2
    v.depth = 2 ∧ (∃ s', v.publish true store = .ok ([⟨⟨2⟩, [], [7]⟩], s') ∧
      s'.account ⟨1⟩ = .empty ∧ s'.codeAt ⟨1⟩ = [] ∧ s'.slot counter = [] ∧
      s'.account ⟨2⟩ = .ofBalance 100) ∧
    r.publish true store = .error .readOnly ∧ r.storeAfter true store = store := by
  intro v r
  have hview : v.depth = 2 ∧ v.logs = [⟨⟨2⟩, [], [7]⟩] ∧ v.account store ⟨1⟩ = .empty ∧
      v.codeAt store ⟨1⟩ = [] ∧ v.slot store counter = [] ∧
      v.account store ⟨2⟩ = .ofBalance 100 := by
    decide +kernel
  obtain ⟨hdepth, hlogs, hfirst, hcode, hslot, hsecond⟩ := hview
  obtain ⟨s', hp, -, haccount, hcodeAt, hslots⟩ :=
    (publish_publishes_sight store .zero false operations).1 rfl
  refine ⟨hdepth, ⟨s', ?_, (haccount _).trans hfirst, (hcodeAt _).trans hcode,
    (hslots _).trans hslot, (haccount _).trans hsecond⟩, ?_⟩
  · rw [← hlogs]
    exact hp
  · exact (publish_publishes_sight store .zero true operations).2.2 rfl

end View

end MeteredLedger
