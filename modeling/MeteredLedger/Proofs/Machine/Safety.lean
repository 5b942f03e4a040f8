import MeteredLedger.Proofs.Gas.Meters
import MeteredLedger.Proofs.Machine.Moves

/-!
# No instruction meets a fault

Memory is touched where it has been paid for and grown before, a larger memory never costs
less than a smaller one, and the meter of a frame whose breakdown adds up can count whatever
it lets through. So from a machine that is sound (`Machine.Sound`) an instruction ends in a
sound machine again, or for an error (`Exec.step_safe`). It is never abandoned, unless it asks for
a frame below a depth that is the largest number there is; and a frame is that deep only where
frames may nest so far.

What the parts of an instruction hand on to each other is how far memory reaches: a part is
safe with a number of bytes if it needs no more of them to be there, and then leaves them there
(`Exec.SafeTo`).
-/

namespace MeteredLedger

/-! ### Growing memory -/

theorem toNat_gasOfNat (n : Nat) : (gasOfNat n).toNat = min n maxGas.toNat := by
  have hsize := size_eq
  unfold gasOfNat
  split_ifs with h
  · rw [UInt64.toNat_ofNat_of_lt' h]
    omega
  · omega

namespace Memory

/-- More words do not cost less. -/
theorem cost_mono (costs : EffectCosts) {few many : Nat} (h : few ≤ many) :
    cost costs few ≤ cost costs many := by
  have hwords : (gasOfNat few).toNat ≤ (gasOfNat many).toNat := by
    rw [toNat_gasOfNat, toNat_gasOfNat]
    omega
  have hlinear := Nat.mul_le_mul_right costs.memory.toNat hwords
  have hsquare := Nat.mul_le_mul hwords hwords
  unfold cost
  dsimp only
  rw [UInt64.le_iff_toNat_le, toNat_addGasCapped, toNat_addGasCapped, UInt64.toNat_div,
    UInt64.toNat_div, toNat_mulGasCapped, toNat_mulGasCapped, toNat_mulGasCapped,
    toNat_mulGasCapped]
  generalize (if costs.quadCoeffDiv = 0 then (1 : Gas) else costs.quadCoeffDiv).toNat = divisor
  have hquotient : min ((gasOfNat few).toNat * (gasOfNat few).toNat) maxGas.toNat / divisor
      ≤ min ((gasOfNat many).toNat * (gasOfNat many).toNat) maxGas.toNat / divisor :=
    Nat.div_le_div_right (by omega)
  omega

theorem growthCost_ok (costs : EffectCosts) (current limit : Nat) :
    ∃ gas, growthCost costs current limit = .ok gas := by
  unfold growthCost
  dsimp only
  split_ifs with hfew hle
  · exact ⟨0, rfl⟩
  · exact ⟨_, rfl⟩
  · exact absurd (cost_mono costs (Nat.le_of_lt (Nat.lt_of_not_le hfew))) hle

/-- Memory can grow to any limit that a region may have, and then reaches that far. -/
theorem grow_ok (m : Memory) {limit : Nat} (h : limit ≤ 2 * Exec.regionBound) :
    ∃ m', m.grow limit = .ok m' ∧ limit ≤ m'.size ∧ m.size ≤ m'.size := by
  have hfits : 32 * wordsFor limit ≤ addressable := by
    unfold wordsFor addressable
    unfold Exec.regionBound at h
    omega
  have hcovers : limit ≤ 32 * wordsFor limit := by
    unfold wordsFor
    omega
  refine ⟨_, if_pos hfits, ?_⟩
  simp only [size, Array.size_append, Array.size_replicate]
  omega

@[simp] theorem size_place (bytes : Array UInt8) (offset : Nat) (bs : Bytes) :
    (place bytes offset bs).size = bytes.size := by
  induction bs generalizing bytes offset with
  | nil => rfl
  | cons b bs ih => rw [place, ih, Array.size_setIfInBounds]

theorem write_ok (m : Memory) {offset : Nat} {bs : Bytes} (h : offset + bs.length ≤ m.size) :
    ∃ m', m.write offset bs = .ok m' ∧ m'.size = m.size := by
  unfold write
  split_ifs with hnone hin
  · exact ⟨m, rfl, rfl⟩
  · exact ⟨_, rfl, size_place _ _ _⟩
  · exact absurd h hin

theorem read_ok (m : Memory) {offset size : Nat} (h : offset + size ≤ m.size) :
    ∃ bs, m.read offset size = .ok bs := by
  unfold read
  split_ifs with hnone hin
  · exact ⟨[], rfl⟩
  · exact ⟨_, rfl⟩
  · exact absurd h hin

end Memory

/-! ### Sound machines -/

/-- **The machine is sound**: the breakdown of its gas adds up, and it is no deeper than frames
may nest. -/
structure Machine.Sound (most : Nat) (m : Machine) : Prop where
  balanced : m.gas.Balanced
  depth : m.frame.depth ≤ most

/-- Another frame at the same depth. -/
theorem Machine.Sound.withFrame {most : Nat} {m : Machine} (h : m.Sound most) {f : Frame}
    (hf : f.depth = m.frame.depth) : Machine.Sound most { m with frame := f } :=
  ⟨h.balanced, hf ▸ h.depth⟩

/-- What an instruction leaves to be done fits the memory: the output of a call has its place. -/
def Control.Fits (m : Machine) : Control → Prop
  | .call _ offset size => offset + size ≤ m.frame.memory.size
  | _ => True

namespace Exec

variable {α β : Type} {most n : Nat} {x : Exec α} {Q : β → Machine → Prop}

/-- **How an action may stop on a sound machine**: for an error, or because a frame below would
have no number for its depth, and it leaves a sound machine. -/
structure FailsSound (most : Nat) (stop : Stop) (m : Machine) : Prop where
  cause : (∃ e, stop = .error e) ∨ stop = .fault .depthOverflow ∧ UInt64.size ≤ most + 1
  sound : m.Sound most

/-- An action that stops for an error. -/
theorem FailsSound.of_error {m : Machine} (hm : m.Sound most) (e : LedgerError) :
    FailsSound most (.error e) m := ⟨.inl ⟨e, rfl⟩, hm⟩

/-- **The action is safe if memory has `n` bytes**, and comes to `Q` then: from a sound machine
it ends in a sound machine that has these bytes still, or as a sound machine may stop. -/
def SafeTo (most n : Nat) (Q : α → Machine → Prop) (x : Exec α) : Prop :=
  ∀ m, m.Sound most → n ≤ m.frame.memory.size →
    Meets x m (fun a m' => m'.Sound most ∧ n ≤ m'.frame.memory.size ∧ Q a m') (FailsSound most)

/-- The action is safe if memory has `n` bytes. -/
abbrev Safe (most n : Nat) (x : Exec α) : Prop := SafeTo most n (fun _ _ => True) x

/-! ### Putting actions together -/

theorem Safe.bind {f : α → Exec β} (hx : Safe most n x) (hf : ∀ a, SafeTo most n Q (f a)) :
    SafeTo most n Q (x >>= f) := by
  intro m hm hn
  refine Meets.bind ((hx m hm hn).mono ?_ fun _ _ h => h)
  rintro a m₁ ⟨hm₁, hn₁, -⟩
  exact hf a m₁ hm₁ hn₁

theorem safe_pure (a : α) : Safe most n (pure a) := fun _ hm hn => Meets.pure ⟨hm, hn, trivial⟩

theorem safe_fail (e : LedgerError) : SafeTo most n Q (fail e) :=
  fun _ hm _ => Meets.throw (.of_error hm e)

theorem safe_inspect (g : Machine → α) : Safe most n (inspect g) := fun _ hm hn => ⟨hm, hn, trivial⟩

theorem safe_modifyFrame {g : Frame → Frame}
    (h : ∀ f, (g f).depth = f.depth ∧ (g f).memory = f.memory) : Safe most n (modifyFrame g) := by
  intro m hm hn
  refine ⟨hm.withFrame (h m.frame).1, ?_, trivial⟩
  rw [← (h m.frame).2] at hn
  exact hn

theorem safe_modifyView (g : View → View) : Safe most n (modifyView g) :=
  fun _ hm hn => ⟨⟨hm.balanced, hm.depth⟩, hn, trivial⟩

theorem safe_orFail (r : Except LedgerError α) : Safe most n (orFail r) := by
  cases r with
  | ok a => exact safe_pure a
  | error e => exact safe_fail e

/-- An action that ends in a control for which nothing has to fit. -/
theorem Safe.next (hx : Safe most n x) :
    SafeTo most n (fun ctl m => Control.Fits m ctl) (x >>= fun _ => pure Control.next) :=
  hx.bind fun _ _ hm hn => Meets.pure ⟨hm, hn, trivial⟩

/-! ### Gas -/

theorem safe_charge (amount : Gas) (label : String) : Safe most n (charge amount label) := by
  intro m hm hn
  unfold Meets charge
  obtain ⟨gas, hgas, hbalanced⟩ | ⟨e, he⟩ := hm.balanced.consume amount label
  · rw [hgas]
    exact ⟨⟨hbalanced, hm.depth⟩, hn, trivial⟩
  · rw [he]
    exact .of_error hm e

theorem safe_setAside (amount : Gas) (label : String) : Safe most n (setAside amount label) := by
  intro m hm hn
  unfold Meets setAside
  obtain ⟨gas, hgas, hbalanced⟩ | ⟨e, he⟩ := hm.balanced.consume amount label
  · rw [hgas]
    exact ⟨⟨hbalanced, hm.depth⟩, hn, trivial⟩
  · rw [he]
    exact .of_error hm e

theorem safe_chargeWords (price : Gas) (size : Nat) (op : Opcode) :
    Safe most n (chargeWords price size op) := safe_charge _ _

/-! ### The stack -/

theorem safe_push (w : Word) : Safe most n (push w) :=
  (safe_inspect _).bind fun _ => (safe_orFail _).bind fun _ =>
    safe_modifyFrame fun _ => ⟨by rfl, by rfl⟩

theorem safe_pop : Safe most n pop :=
  (safe_inspect _).bind fun _ => (safe_orFail _).bind fun (w, _) =>
    (safe_modifyFrame fun _ => ⟨by rfl, by rfl⟩).bind fun _ => safe_pure w

theorem safe_popMany (count : Nat) : Safe most n (popMany count) :=
  (safe_inspect _).bind fun _ => (safe_orFail _).bind fun (ws, _) =>
    (safe_modifyFrame fun _ => ⟨by rfl, by rfl⟩).bind fun _ => safe_pure ws

theorem safe_popTwo : Safe most n popTwo := (safe_popMany 2).bind fun _ => safe_pure _

theorem safe_popThree : Safe most n popThree := (safe_popMany 3).bind fun _ => safe_pure _

/-! ### Memory -/

theorem safe_writeMemory {offset : Nat} {bs : Bytes} (h : offset + bs.length ≤ n) :
    Safe most n (writeMemory offset bs) := by
  intro m hm hn
  obtain ⟨memory, hwrite, hsize⟩ := m.frame.memory.write_ok (h.trans hn)
  unfold Meets writeMemory onMemory
  simp only [hwrite]
  exact ⟨hm.withFrame rfl, hn.trans_eq hsize.symm, trivial⟩

theorem safe_readMemory {offset size : Nat} (h : offset + size ≤ n) :
    Safe most n (readMemory offset size) := by
  intro m hm hn
  obtain ⟨bs, hread⟩ := m.frame.memory.read_ok (h.trans hn)
  refine meets_inspect ?_
  rw [hread]
  exact safe_pure bs m hm hn

/-- **A region is there once it is paid for**: what comes after it may count on it. -/
theorem safe_region (costs : EffectCosts) {offset size : Word} {f : Nat × Nat → Exec β}
    (h : ∀ o n', n ≤ n' → o + size.toNat ≤ n' → SafeTo most n' Q (f (o, size.toNat))) :
    SafeTo most n Q (region costs offset size >>= f) := by
  intro m hm hn
  have after : ∀ o m', n ≤ m'.frame.memory.size → o + size.toNat ≤ m'.frame.memory.size →
      m'.Sound most → Meets (f (o, size.toNat)) m'
        (fun a m'' => m''.Sound most ∧ n ≤ m''.frame.memory.size ∧ Q a m'') (FailsSound most) := by
    intro o m' hn' hin hm'
    refine (h o _ hn' hin m' hm' (Nat.le_refl _)).mono ?_ fun _ _ h => h
    rintro a m'' ⟨hm'', hsize, hQ⟩
    exact ⟨hm'', hn'.trans hsize, hQ⟩
  refine Meets.bind ?_
  unfold region
  by_cases hzero : size = 0
  · subst hzero
    exact Meets.pure (after 0 m hn (Nat.zero_le _) hm)
  · rw [if_neg hzero]
    by_cases hfar : regionBound < offset.toNat ∨ regionBound < size.toNat
    · rw [if_pos hfar]
      exact meets_inspect (Meets.bind (Meets.throw (.of_error hm _)))
    · rw [if_neg hfar]
      refine meets_inspect ?_
      obtain ⟨cost, hcost⟩ :=
        Memory.growthCost_ok costs m.frame.memory.size (offset.toNat + size.toNat)
      rw [hcost]
      refine Meets.bind (show Meets (pure cost) m _ _ from Meets.pure ?_)
      refine Meets.bind ((safe_charge cost "memory" m hm hn).mono ?_ fun _ _ h => h)
      rintro _ m₁ ⟨hm₁, hn₁, -⟩
      have hnear : offset.toNat + size.toNat ≤ 2 * regionBound := by omega
      obtain ⟨memory, hgrow, hin, hmore⟩ := m₁.frame.memory.grow_ok hnear
      refine Meets.bind ?_
      unfold Meets onMemory
      simp only [hgrow]
      exact after offset.toNat _ (hn₁.trans hmore) hin (hm₁.withFrame rfl)

theorem safe_copyToMemory (costs : EffectCosts) (op : Opcode) (source : Frame → Array UInt8) :
    Safe most n (copyToMemory costs op source) := by
  rw [copyToMemory_eq]
  exact safe_popThree.bind fun (_, start, _) => safe_region costs fun _ _ _ hin =>
    (safe_chargeWords _ _ _).bind fun _ => (safe_inspect _).bind fun _ =>
      safe_writeMemory (by rw [length_zeroExtended]; exact hin)

/-! ### Instructions with a part of their own -/

/-- The action is safe if memory has `n` bytes, and what it asks for next fits. -/
abbrev Proceeds (most n : Nat) (x : Exec Control) : Prop :=
  SafeTo most n (fun ctl m => Control.Fits m ctl) x

theorem proceeds_pure {ctl : Control} (h : ∀ m, Control.Fits m ctl) : Proceeds most n (pure ctl) :=
  fun m hm hn => Meets.pure ⟨hm, hn, h m⟩

theorem proceeds_jumpTo (dest : Word) : Proceeds most n (jumpTo dest) :=
  (safe_inspect _).bind fun _ => (safe_orFail _).bind fun _ =>
    (safe_modifyFrame fun _ => ⟨by rfl, by rfl⟩).bind fun _ => proceeds_pure fun _ => trivial

theorem proceeds_decline : Proceeds most n decline :=
  (safe_modifyFrame fun _ => ⟨by rfl, by rfl⟩).bind fun _ => (safe_push 0).next

/-- The depth below a sound machine has a number, or frames may nest to the largest one. -/
theorem safe_depthBelow : Safe most n depthBelow := by
  intro m hm hn
  refine meets_inspect ?_
  split_ifs with hroom
  · exact Meets.pure ⟨hm, hn, trivial⟩
  · refine Meets.throw ⟨.inr ⟨rfl, ?_⟩, hm⟩
    have hdepth := hm.depth
    omega

theorem proceeds_create (costs : EffectCosts) : Proceeds most n (create costs) := by
  refine safe_popThree.bind fun (value, offset, size) => safe_region costs fun o n' _ hin => ?_
  refine (safe_readMemory hin).bind fun initCode => ?_
  cases wordWei? value with
  | none => exact proceeds_decline
  | some value =>
    exact (safe_inspect _).bind fun _ => (safe_setAside _ _).bind fun _ =>
      safe_depthBelow.bind fun _ => (safe_inspect _).bind fun _ => proceeds_pure fun _ => trivial

theorem proceeds_call (costs : EffectCosts) : Proceeds most n (call costs) := by
  refine (safe_popMany 7).bind fun ws => safe_region costs fun i n₁ _ hinput => ?_
  refine safe_region costs fun o n₂ hmore houtput => ?_
  refine (safe_readMemory (hinput.trans hmore)).bind fun input => ?_
  cases wordWei? (ws.get 2) with
  | none => exact proceeds_decline
  | some value =>
    refine (safe_inspect _).bind fun _ => (safe_setAside _ _).bind fun _ =>
      safe_depthBelow.bind fun _ => (safe_inspect _).bind fun _ => ?_
    -- the output's place has been there since its region was paid for
    exact fun m hm hn => Meets.pure ⟨hm, hn, houtput.trans hn⟩

theorem safe_log (costs : EffectCosts) (count : Nat) : Safe most n (log costs count) :=
  safe_popTwo.bind fun (_, _) => (safe_popMany count).bind fun _ =>
    safe_region costs fun _ _ _ hin => (safe_charge _ _).bind fun _ =>
      (safe_readMemory hin).bind fun _ => (safe_inspect _).bind fun _ => safe_modifyView _

theorem safe_sstore (env : Setting) : Safe most n (sstore env) :=
  safe_popTwo.bind fun (_, _) => (safe_inspect _).bind fun _ => (safe_inspect _).bind fun _ =>
    (safe_charge _ _).bind fun _ => safe_modifyView _

theorem proceeds_finish (costs : EffectCosts) (how : Bytes → Exit) :
    Proceeds most n (finish costs how) :=
  safe_popTwo.bind fun (_, _) => safe_region costs fun _ _ _ hin =>
    (safe_readMemory hin).bind fun _ => proceeds_pure fun _ => trivial

/-- A word is read where it has been paid for. -/
theorem safe_readWord {offset : Nat} (h : offset + 32 ≤ n) : Safe most n (do
    orFault (← inspect fun m => m.frame.memory.readWord offset)) := by
  intro m hm hn
  obtain ⟨bs, hread⟩ := m.frame.memory.read_ok (h.trans hn)
  refine meets_inspect ?_
  simp only [Memory.readWord, hread]
  exact safe_pure _ m hm hn

/-! ### All instructions -/

/-- What an instruction does once its constant cost is paid. -/
theorem perform_proceeds (env : Setting) (op : Opcode) : Proceeds most n (perform env op) := by
  cases op with
  | stop => exact proceeds_pure fun _ => trivial
  | binary f => exact safe_popTwo.bind fun (_, _) => (safe_push _).next
  | unary f => exact safe_pop.bind fun _ => (safe_push _).next
  | keccak256 =>
    exact safe_popTwo.bind fun (_, _) => safe_region _ fun _ _ _ hin =>
      (safe_chargeWords _ _ _).bind fun _ => (safe_readMemory hin).bind fun _ =>
        (safe_push _).next
  | reading r => exact (safe_inspect _).bind fun _ => (safe_push _).next
  | balance =>
    exact safe_pop.bind fun _ => (safe_inspect _).bind fun _ => (safe_push _).next
  | callDataLoad =>
    exact safe_pop.bind fun _ => (safe_inspect _).bind fun _ => (safe_push _).next
  | callDataCopy => exact (safe_copyToMemory _ _ _).next
  | codeCopy => exact (safe_copyToMemory _ _ _).next
  | blockHash => exact safe_pop.bind fun _ => (safe_push _).next
  | pop => exact safe_pop.next
  | mload =>
    exact safe_pop.bind fun _ => safe_region _ fun _ _ _ hin =>
      (safe_readWord hin).bind fun _ => (safe_push _).next
  | mstore =>
    exact safe_popTwo.bind fun (_, _) => safe_region _ fun _ _ _ hin =>
      (safe_writeMemory (by rw [Bytes.length_bigEndian]; exact hin)).next
  | mstore8 =>
    exact safe_popTwo.bind fun (_, _) => safe_region _ fun _ _ _ hin =>
      (safe_writeMemory hin).next
  | sload =>
    exact (safe_charge _ _).bind fun _ => safe_pop.bind fun _ => (safe_inspect _).bind fun _ =>
      (safe_push _).next
  | sstore => exact (safe_sstore env).next
  | jump => exact safe_pop.bind proceeds_jumpTo
  | jumpi =>
    refine safe_popTwo.bind fun (dest, condition) => ?_
    show Proceeds most _ (if condition = 0 then pure .next else jumpTo dest)
    split_ifs
    · exact proceeds_pure fun _ => trivial
    · exact proceeds_jumpTo dest
  | jumpdest => exact proceeds_pure fun _ => trivial
  | push size =>
    exact (safe_inspect _).bind fun _ => (safe_push _).bind fun _ =>
      (safe_modifyFrame fun _ => ⟨by rfl, by rfl⟩).next
  | dup position =>
    exact (safe_inspect _).bind fun _ => (safe_orFail _).bind fun _ =>
      (safe_modifyFrame fun _ => ⟨by rfl, by rfl⟩).next
  | swap position =>
    exact (safe_inspect _).bind fun _ => (safe_orFail _).bind fun _ =>
      (safe_modifyFrame fun _ => ⟨by rfl, by rfl⟩).next
  | log count => exact (safe_log _ count).next
  | create => exact proceeds_create _
  | call => exact proceeds_call _
  | ret => exact proceeds_finish _ _
  | revert => exact proceeds_finish _ _
  | invalid byte => exact safe_fail _

/-- **An instruction on a sound machine** ends in a sound machine again, or as such a machine may
stop, and the output of the call that it may ask for has its place in memory. -/
theorem step_safe (env : Setting) (byte : UInt8) : Proceeds most n (step env byte) := by
  unfold step
  dsimp only
  split
  · exact safe_fail _
  · exact (safe_charge _ _).bind fun _ => perform_proceeds env _

end Exec

end MeteredLedger
