import MeteredLedger.Address
import MeteredLedger.Bytes.Lemmas

/-!
# Where a written value ends

A way of writing values delimits them if a written value can be told from what follows
it (`Delimits`). Numbers of a fixed width do so, and with them hashes and addresses
(`delimits_littleEndian`, `delimits_address`); so does a string behind its length. Values
written one after another can then be read back if one knows how many there are
(`Delimits.flatMap`), or where they end (`Delimits.flatMap_end`).
-/

namespace MeteredLedger

/-- **What is written says where it ends**, for values in `P`. -/
def Delimits {α : Type} (P : α → Prop) (write : α → Bytes) : Prop :=
  ∀ a b x y, P a → P b → write a ++ x = write b ++ y → a = b ∧ x = y

namespace Delimits

variable {α : Type} {P : α → Prop} {write : α → Bytes}

/-- What has a fixed width says where it ends. -/
theorem of_width (width : Nat) (hw : ∀ a, P a → (write a).length = width)
    (inj : ∀ a b, P a → P b → write a = write b → a = b) : Delimits P write := by
  intro a b x y ha hb h
  have hl : (write a).length = (write b).length := by rw [hw a ha, hw b hb]
  obtain ⟨h₁, h₂⟩ := List.append_inj h hl
  exact ⟨inj a b ha hb h₁, h₂⟩

/-- As many values as there are in another list. -/
theorem flatMap (h : Delimits P write) {l l' : List α} {x y : Bytes} (hl : ∀ a ∈ l, P a)
    (hl' : ∀ a ∈ l', P a) (hlen : l.length = l'.length)
    (he : l.flatMap write ++ x = l'.flatMap write ++ y) : l = l' ∧ x = y := by
  induction l generalizing l' with
  | nil =>
    cases l' with
    | nil => exact ⟨rfl, he⟩
    | cons b l' => cases hlen
  | cons a l ih =>
    cases l' with
    | nil => cases hlen
    | cons b l' =>
      rw [List.flatMap_cons, List.flatMap_cons, List.append_assoc, List.append_assoc] at he
      obtain ⟨rfl, hrest⟩ := h a b _ _ (hl a List.mem_cons_self) (hl' b List.mem_cons_self) he
      obtain ⟨rfl, hxy⟩ := ih (fun a ha => hl a (List.mem_cons_of_mem _ ha))
        (fun a ha => hl' a (List.mem_cons_of_mem _ ha)) (Nat.succ.inj hlen) hrest
      exact ⟨rfl, hxy⟩

/-- Values up to the end, if none is written as nothing. -/
theorem flatMap_end (h : Delimits P write) (hne : ∀ a, P a → write a ≠ []) {l l' : List α}
    (hl : ∀ a ∈ l, P a) (hl' : ∀ a ∈ l', P a) (he : l.flatMap write = l'.flatMap write) :
    l = l' := by
  induction l generalizing l' with
  | nil =>
    cases l' with
    | nil => rfl
    | cons b l' =>
      have hb := hne b (hl' b List.mem_cons_self)
      rw [List.flatMap_nil, List.flatMap_cons] at he
      exact absurd (List.append_eq_nil_iff.1 he.symm).1 hb
  | cons a l ih =>
    have ha := hl a List.mem_cons_self
    cases l' with
    | nil =>
      rw [List.flatMap_nil, List.flatMap_cons] at he
      exact absurd (List.append_eq_nil_iff.1 he).1 (hne a ha)
    | cons b l' =>
      rw [List.flatMap_cons, List.flatMap_cons] at he
      obtain ⟨rfl, hrest⟩ := h a b _ _ ha (hl' b List.mem_cons_self) he
      rw [ih (fun a ha => hl a (List.mem_cons_of_mem _ ha))
        (fun a ha => hl' a (List.mem_cons_of_mem _ ha)) hrest]

end Delimits

/-! ### Numbers, hashes and addresses -/

theorem delimits_littleEndian (width : Nat) :
    Delimits (fun n => n < 256 ^ width) (Bytes.littleEndian width) := by
  refine .of_width width (fun n _ => Bytes.length_littleEndian width n) ?_
  intro m n hm hn h
  rw [← Bytes.ofLittleEndian_littleEndian hm, h, Bytes.ofLittleEndian_littleEndian hn]

theorem delimits_bigEndian (width : Nat) :
    Delimits (fun n => n < 256 ^ width) (Bytes.bigEndian width) := by
  refine .of_width width (fun n _ => Bytes.length_bigEndian width n) ?_
  intro m n hm hn h
  rw [← Bytes.ofBigEndian_bigEndian hm, h, Bytes.ofBigEndian_bigEndian hn]

theorem delimits_address : Delimits (fun _ => True) Address.toBytes := by
  rintro ⟨a⟩ ⟨b⟩ x y - - h
  have ha : a.toNat < 256 ^ Address.width := a.isLt
  have hb : b.toNat < 256 ^ Address.width := b.isLt
  obtain ⟨hn, hxy⟩ := delimits_bigEndian Address.width _ _ x y ha hb h
  exact ⟨congrArg Address.mk (BitVec.eq_of_toNat_eq hn), hxy⟩

theorem delimits_hash : Delimits (fun _ => True) Hash.toBytes := by
  rintro ⟨a⟩ ⟨b⟩ x y - - h
  have ha : a.toNat < 256 ^ Hash.width := a.isLt
  have hb : b.toNat < 256 ^ Hash.width := b.isLt
  obtain ⟨hn, hxy⟩ := delimits_bigEndian Hash.width _ _ x y ha hb h
  exact ⟨congrArg Hash.mk (BitVec.eq_of_toNat_eq hn), hxy⟩

end MeteredLedger
