import MeteredLedger.Proofs.Block.Admission
import MeteredLedger.Proofs.Block.Failures

/-!
# Blocks one after another

The transactions of a block can be cut in two at any place. Those before the place and those
behind it are blocks of their own, under the same header but for the root; executed one after
the other, they come to what the whole block comes to (`blocks_compose`). For nothing goes
from one transaction to the next but the store: their course falls in two wherever it is cut
(`Course.split`), and what is left of it is a course from the first place of another block
(`Course.shifted`).
-/

namespace MeteredLedger

/-- A block is sealed anew as if it had not been. -/
theorem Block.sealed_header (h : Header) (ts us : List Transaction) :
    Block.sealed (Block.sealed h ts).header us = Block.sealed h us := rfl

namespace BlockExecution

variable {p : Processor}

/-- Receipts as they are in a block with so many transactions in front of them. -/
def moveUp (n : Nat) (rs : List Receipt) : List Receipt :=
  rs.map fun r => { r with transactionIndex := r.transactionIndex + UInt64.ofNat n }

@[simp] theorem moveUp_zero (rs : List Receipt) : moveUp 0 rs = rs := by
  simp [moveUp]

@[simp] theorem chargedTotal_moveUp (n : Nat) (rs : List Receipt) :
    chargedTotal (moveUp n rs) = chargedTotal rs := by
  simp [chargedTotal, moveUp, Function.comp_def]

/-- A receipt at a place farther up. -/
theorem receipt_add (h : Header) (k n : Nat) (q : Prepared) (t : Transition) (gas : Gas) :
    receipt h (k + n) q t gas
      = { receipt h k q t gas with
          transactionIndex := (receipt h k q t gas).transactionIndex + UInt64.ofNat n } := by
  simp [receipt, UInt64.ofNat_add]

/-- **A course falls in two wherever it is cut.** -/
theorem Course.split {h : Header} {n : Nat} {s s' : Store} {ps qs : List Prepared}
    {rs : List Receipt} {es : List Event} (hcourse : Course p h n s (ps ++ qs) rs es s') :
    ∃ u rs₁ rs₂ es₁ es₂, Course p h n s ps rs₁ es₁ u ∧ Course p h (n + ps.length) u qs rs₂ es₂ s' ∧
      rs = rs₁ ++ rs₂ ∧ es = es₁ ++ es₂ := by
  induction ps generalizing n s rs es with
  | nil => exact ⟨s, [], rs, [], es, .nil, hcourse, rfl, rfl⟩
  | cons q ps ih =>
    cases hcourse with
    | cons head tail =>
      obtain ⟨u, rs₁, rs₂, es₁, es₂, hfirst, hsecond, rfl, rfl⟩ := ih tail
      refine ⟨u, _, rs₂, _, es₂, .cons head hfirst, ?_, rfl, (List.append_assoc _ _ _).symm⟩
      rw [List.length_cons, ← Nat.succ_add_eq_add_succ]
      exact hsecond

/-- **A course can start at a lower place**, and in another block whose header has the same
context and number: all that it leaves differently are the places. -/
theorem Course.shifted {h h' : Header} (hc : Context.ofHeader h' = Context.ofHeader h)
    (hn : h'.number = h.number) {k n : Nat} {s s' : Store} {ps : List Prepared}
    {rs : List Receipt} {es : List Event} (hcourse : Course p h (k + n) s ps rs es s') :
    ∃ rs', Course p h' k s ps rs' es s' ∧ rs = moveUp n rs' := by
  induction ps generalizing k s rs es with
  | nil =>
    cases hcourse
    exact ⟨[], .nil, rfl⟩
  | cons q ps ih =>
    cases hcourse with
    | cons head tail =>
      rw [Nat.add_right_comm] at tail
      obtain ⟨rs', hrest, rfl⟩ := ih tail
      refine ⟨_, .cons (Processor.execute_withHeader hc head) hrest, ?_⟩
      rw [receipt_add, receipt, receipt, ← hn]
      rfl

/-- What two lists of receipts charge together. -/
theorem countGas_append (rs rs' : List Receipt) :
    countGas 0 (rs ++ rs') = addGasCapped (countGas 0 rs) (countGas 0 rs') := by
  have happend : chargedTotal (rs ++ rs') = chargedTotal rs + chargedTotal rs' := by
    simp [chargedTotal]
  refine UInt64.toNat_inj.1 ?_
  rw [toNat_addGasCapped, toNat_countGas_zero, toNat_countGas_zero, toNat_countGas_zero, happend]
  omega

theorem countGas_moveUp (n : Nat) (rs : List Receipt) :
    countGas 0 (moveUp n rs) = countGas 0 rs := by
  refine UInt64.toNat_inj.1 ?_
  rw [toNat_countGas_zero, toNat_countGas_zero, chargedTotal_moveUp]

/-- **Blocks compose.** A block that is executed can be cut in two: what its transactions come
to one after another, the first of them come to in a block of their own, and then the others in
another one. The store ends the same and so does its root, the events and the receipts are those
of the first block and then those of the second, whose places alone are counted from the cut,
and the gas of both adds up. Of every transaction there is a receipt at its place, which carries
its hash, names its signer and its recipient, and charges no more than it declares. -/
theorem blocks_compose {h : Header} {ts us : List Transaction} {s s' : Store} {e : BlockExecution}
    (hx : executeWith (.ofProcessor p) (.sealed h (ts ++ us)) s = .ok (.ok e, s')) :
    (∃ e₁ s₁ e₂, executeWith (.ofProcessor p) (.sealed h ts) s = .ok (.ok e₁, s₁) ∧
      executeWith (.ofProcessor p) (.sealed h us) s₁ = .ok (.ok e₂, s') ∧
      e.stateRoot = e₂.stateRoot ∧ e.events = e₁.events ++ e₂.events ∧
      e.receipts = e₁.receipts ++ moveUp ts.length e₂.receipts ∧
      e.gasUsed = addGasCapped e₁.gasUsed e₂.gasUsed) ∧
    e.receipts.length = (ts ++ us).length ∧
    ∀ (i : Nat) (t : Transaction) (r : Receipt),
      (ts ++ us)[i]? = some t → e.receipts[i]? = some r → r.IsOf h i t := by
  obtain ⟨ps, rs, es, hp, hcourse, rfl⟩ := executeWith_eq_ok_iff.1 hx
  obtain ⟨-, (hts : List.Forall₂ Prepared.Of (ts ++ us) ps), -⟩ := prepare_eq_ok_iff.1 hp
  obtain ⟨hlength, hreceipts⟩ := hcourse.receipts hts
  refine ⟨?_, hlength, fun i t r ht hr => ?_⟩
  · have hps₁ := List.forall₂_take ts.length hts
    have hps₂ := List.forall₂_drop ts.length hts
    rw [List.take_left] at hps₁
    rw [List.drop_left] at hps₂
    rw [← List.take_append_drop ts.length ps] at hcourse
    obtain ⟨u, _, _, es₁, es₂, hbefore, hbehind, rfl, rfl⟩ := Course.split hcourse
    rw [← hps₁.length_eq] at hbehind
    -- of its header, code sees neither the root nor what lies in front of it
    have hcontext : ∀ vs, Context.ofHeader (Block.sealed h vs).header
        = Context.ofHeader (Block.sealed h (ts ++ us)).header := fun _ => rfl
    obtain ⟨rs₁, hfirst, rfl⟩ := Course.shifted (k := 0) (n := 0) (hcontext ts) rfl hbefore
    obtain ⟨rs₂, hsecond, rfl⟩ := Course.shifted (k := 0) (hcontext us) rfl hbehind
    have hp₁ := prepare_sealed_of_sublist hp (List.sublist_append_left ts us) hps₁
    have hp₂ := prepare_sealed_of_sublist hp (List.sublist_append_right ts us) hps₂
    refine ⟨_, u, _, executeWith_eq_ok_iff.2 ⟨_, rs₁, es₁, hp₁, hfirst, rfl⟩,
      executeWith_eq_ok_iff.2 ⟨_, rs₂, es₂, hp₂, hsecond, rfl⟩, rfl, rfl, ?_, ?_⟩
    · rw [moveUp_zero]
    · rw [moveUp_zero, countGas_append, countGas_moveUp]
  · have hr := hreceipts i t r ht hr
    rw [Nat.zero_add] at hr
    exact ⟨hr.hash, hr.place, hr.number, hr.sender, hr.recipient, hr.gas⟩

open OnceOnly BurntBlock in
/-- Three transactions are cut behind the first, the only one that succeeds. -/
theorem blocks_compose_cut :
    ∃ e s' e₁ s₁ e₂, execute .standard (block 3) OnceOnly.store = .ok (.ok e, s') ∧
      e.receipts.map (·.succeeded) = [true, false, false] ∧
      execute .standard (.sealed (block 3).header [spender]) OnceOnly.store = .ok (.ok e₁, s₁) ∧
      execute .standard (.sealed (block 3).header [spender, spender]) s₁ = .ok (.ok e₂, s') ∧
      e.stateRoot = e₂.stateRoot ∧ e.receipts = e₁.receipts ++ moveUp 1 e₂.receipts ∧
      ∃ r, e.receipts[2]? = some r ∧ r.IsOf (block 3).header 2 spender := by
  obtain ⟨e, s', hx, hstatus⟩ := OnceOnly.execute_block
  have hwhole : executeWith (.ofProcessor (.ofParams .standard))
      (.sealed (block 3).header ([spender] ++ [spender, spender])) OnceOnly.store
        = .ok (.ok e, s') := by
    -- otherwise the roots of the two blocks would be hashed to be compared
    rw [block, Block.sealed_header]
    exact hx
  obtain ⟨⟨e₁, s₁, e₂, hx₁, hx₂, hroot, -, happend, -⟩, hlength, hreceipts⟩ :=
    blocks_compose hwhole
  have hlast : 2 < e.receipts.length := by simp [hlength]
  exact ⟨e, s', e₁, s₁, e₂, hx, hstatus, hx₁, hx₂, hroot, happend, _,
    List.getElem?_eq_getElem hlast, hreceipts 2 spender _ rfl (List.getElem?_eq_getElem hlast)⟩

end BlockExecution

end MeteredLedger
