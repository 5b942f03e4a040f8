import MeteredLedger.Proofs.Gas.Meters
import MeteredLedger.Proofs.Machine.Runs

/-!
# The meter of a run mirrors its gas

Every charge is counted twice: by the frame that makes it, and on the meter that all
frames of a run share. Gas that is set aside for a frame below is taken from the frame
above alone; the frame below counts what it spends of it, and the rest is given back.
So what the shared meter has counted and what the frame has left add up to the same,
move by move and frame by frame (`Machine.Mirrors`), and a frame adds to the shared
meter what it does not hand back (`World.Paid`), whichever way it ends.
-/

namespace MeteredLedger

/-- A machine whose frame is within its limit, and whose shared meter is balanced and has
room for what the frame has left. -/
structure Machine.Solvent (m : Machine) (limit : Gas) : Prop where
  bounded : m.gas.limit = .bounded limit
  within : m.gas.consumed.toNat ≤ limit.toNat
  balanced : m.world.ledger.Balanced
  room : m.world.ledger.consumed.toNat + m.gas.remaining.toNat ≤ maxGas.toNat

/-- **Whatever was spent in between is on the shared meter.** -/
def Machine.Mirrors (m m' : Machine) : Prop :=
  ∀ limit, m.Solvent limit → m'.Solvent limit ∧
    m'.world.ledger.consumed.toNat + m'.gas.remaining.toNat
      = m.world.ledger.consumed.toNat + m.gas.remaining.toNat

/-- **Of the gas given, all but what is left has been counted**, in total and by label. -/
structure World.Paid (w w' : World) (gas left : Gas) : Prop where
  left_le : left ≤ gas
  consumed : w'.ledger.consumed.toNat = w.ledger.consumed.toNat + (gas.toNat - left.toNat)
  breakdown : w'.ledger.breakdownTotal = w.ledger.breakdownTotal + (gas.toNat - left.toNat)

namespace Machine

variable {m m' : Machine}

theorem Mirrors.refl (m : Machine) : m.Mirrors m := fun _ h => ⟨h, rfl⟩

theorem Mirrors.trans {m₁ m₂ m₃ : Machine} (h : m₁.Mirrors m₂) (h' : m₂.Mirrors m₃) :
    m₁.Mirrors m₃ := by
  intro limit hs
  obtain ⟨hs₂, he⟩ := h limit hs
  obtain ⟨hs₃, he'⟩ := h' limit hs₂
  exact ⟨hs₃, he'.trans he⟩

/-- Only the gas of the frame and the shared meter matter. -/
theorem Mirrors.of_eq (hg : m'.gas = m.gas) (hl : m'.world.ledger = m.world.ledger) :
    m.Mirrors m' := by
  intro limit h
  refine ⟨⟨?_, ?_, ?_, ?_⟩, ?_⟩
  · rw [hg]
    exact h.bounded
  · rw [hg]
    exact h.within
  · rw [hl]
    exact h.balanced
  · rw [hg, hl]
    exact h.room
  · rw [hg, hl]

/-- A charge is counted by the frame and on the shared meter. -/
theorem Mirrors.charged {amount : Gas} {label : String} {gas : Meter}
    (h : m.gas.consume amount label = .ok gas) : m.Mirrors (m.charged gas amount label) := by
  intro limit hs
  obtain ⟨hl, hc, hlimit⟩ := Meter.consume_eq_ok h
  have hfit := hlimit limit hs.bounded
  have hroom := hs.room
  have hr := Meter.toNat_remaining hs.bounded
  have hr' := Meter.toNat_remaining (hl.trans hs.bounded)
  have hledger : (m.world.ledger.record amount label).consumed.toNat
      = m.world.ledger.consumed.toNat + amount.toNat :=
    Meter.toNat_consumed_record (by omega)
  have hsum : (m.world.ledger.record amount label).consumed.toNat + gas.remaining.toNat
      = m.world.ledger.consumed.toNat + m.gas.remaining.toNat := by omega
  refine ⟨⟨hl.trans hs.bounded, hc.trans_le hfit,
    hs.balanced.record (by omega), ?_⟩, hsum⟩
  exact hsum.trans_le hroom

/-- Gas set aside for a frame below, what that frame has spent of it, and the rest of it
given back. -/
theorem Mirrors.descended {amount left : Gas} {label label' : String} {gas : Meter} {w : World}
    (h : m.gas.consume amount label = .ok gas)
    (hp : m.world.ledger.Balanced →
      m.world.ledger.consumed.toNat + amount.toNat ≤ maxGas.toNat → m.world.Paid w amount left) :
    m.Mirrors { m with world := w, gas := gas.refund left label' } := by
  intro limit hs
  obtain ⟨hl, hc, hlimit⟩ := Meter.consume_eq_ok h
  have hfit := hlimit limit hs.bounded
  have hroom := hs.room
  have hr := Meter.toNat_remaining hs.bounded
  have hpaid := hp hs.balanced (by omega)
  have hle : left.toNat ≤ amount.toNat := UInt64.le_iff_toNat_le.1 hpaid.left_le
  have hrefund : (gas.refund left label').consumed.toNat = gas.consumed.toNat - left.toNat :=
    Meter.toNat_consumed_refund
  have hr' : (gas.refund left label').remaining.toNat = _ :=
    Meter.toNat_remaining (hl.trans hs.bounded)
  have hcons := hpaid.consumed
  have hsum : w.ledger.consumed.toNat + (gas.refund left label').remaining.toNat
      = m.world.ledger.consumed.toNat + m.gas.remaining.toNat := by omega
  have hbal : m.world.ledger.breakdownTotal = m.world.ledger.consumed.toNat := hs.balanced
  refine ⟨⟨hl.trans hs.bounded, ?_, ?_, hsum.trans_le hroom⟩, hsum⟩
  · show (gas.refund left label').consumed.toNat ≤ limit.toNat
    omega
  · show w.ledger.breakdownTotal = w.ledger.consumed.toNat
    rw [hpaid.breakdown, hcons, hbal]

/-- Nothing in a frame leads away from it. -/
theorem Mirrors.steady (env : Setting) : Steady env Mirrors where
  refl := Mirrors.refl
  trans _ _ _ := Mirrors.trans
  frame _ _ := .of_eq rfl rfl
  pay := .charged
  view _ := .of_eq rfl rfl

end Machine

section Frames

variable {env : Setting} {body : Exec Exit} {w w' : World} {r : FrameResult}

/-- A frame that starts on some gas, at its end. -/
theorem Machine.Mirrors.paid {gas : Gas} {frame : Frame} {m : Machine}
    (h : Machine.Mirrors ⟨w, .bounded gas, frame⟩ m) (hbal : w.ledger.Balanced)
    (hroom : w.ledger.consumed.toNat + gas.toNat ≤ maxGas.toNat) :
    m.Solvent gas ∧ w.Paid m.world gas m.gas.remaining := by
  have hrem : (Meter.bounded gas).remaining.toNat = gas.toNat := Meter.toNat_remaining rfl
  obtain ⟨hsol, hsum⟩ := h gas ⟨rfl, Nat.zero_le _, hbal, by rw [hrem]; exact hroom⟩
  rw [hrem] at hsum
  have hle : m.gas.remaining.toNat ≤ gas.toNat := by
    rw [Meter.toNat_remaining hsol.bounded]
    exact Nat.sub_le _ _
  have hb : m.world.ledger.breakdownTotal = m.world.ledger.consumed.toNat := hsol.balanced
  have hb₀ : w.ledger.breakdownTotal = w.ledger.consumed.toNat := hbal
  dsimp only at hsum
  exact ⟨hsol, UInt64.le_iff_toNat_le.2 hle, by omega, by omega⟩

/-- What is counted by a frame that is entered and left. -/
theorem Settled.paid {gas : Gas} {frame : Frame} {mark : View.Mark}
    {result : EStateM.Result Stop Machine Exit} (hs : Settled mark result r w')
    (ok : ∀ exit m, result = .ok exit m → Machine.Mirrors ⟨w, .bounded gas, frame⟩ m)
    (error : ∀ e m, result = .error (.error e) m → Machine.Mirrors ⟨w, .bounded gas, frame⟩ m)
    (hbal : w.ledger.Balanced) (hroom : w.ledger.consumed.toNat + gas.toNat ≤ maxGas.toNat) :
    w.Paid w' gas r.gasRemaining := by
  cases hs with
  | returned output m =>
    obtain ⟨-, hp⟩ := (ok _ m rfl).paid hbal hroom
    exact ⟨hp.left_le, hp.consumed, hp.breakdown⟩
  | reverted output m =>
    obtain ⟨-, hp⟩ := (ok _ m rfl).paid hbal hroom
    exact ⟨hp.left_le, hp.consumed, hp.breakdown⟩
  | @burnt e m left he hg =>
    obtain ⟨hsol, hp⟩ := (error _ m rfl).paid hbal hroom
    have hzero : left.remaining.toNat = 0 := Meter.toNat_remaining_burn hg hsol.bounded
    have hc := hp.consumed
    have hb := hp.breakdown
    have hbal' : m.world.ledger.breakdownTotal = m.world.ledger.consumed.toNat := hsol.balanced
    have hroom' := hsol.room
    have hle : m.gas.remaining.toNat ≤ gas.toNat := UInt64.le_iff_toNat_le.1 hp.left_le
    refine ⟨UInt64.le_iff_toNat_le.2 ?_, ?_, ?_⟩
    · show left.remaining.toNat ≤ gas.toNat
      omega
    · show (m.world.ledger.record m.gas.remaining "exhausted").consumed.toNat
        = w.ledger.consumed.toNat + (gas.toNat - left.remaining.toNat)
      rw [Meter.toNat_consumed_record hroom']
      omega
    · show (m.world.ledger.record m.gas.remaining "exhausted").breakdownTotal
        = w.ledger.breakdownTotal + (gas.toNat - left.remaining.toNat)
      rw [Meter.breakdownTotal_record (by omega)]
      omega
  | kept he =>
    obtain ⟨-, hp⟩ := (error _ _ rfl).paid hbal hroom
    exact ⟨hp.left_le, hp.consumed, hp.breakdown⟩

/-- A frame that is refused spends nothing. -/
theorem World.Paid.refl (w : World) (gas : Gas) : w.Paid w gas gas :=
  ⟨UInt64.le_refl gas, by omega, by omega⟩

theorem callWith_paid (hb : Exec.Keeps Stop.OfCode Machine.Mirrors body) {c : Call}
    (h : callWith env body c w = .ok (r, w')) (hbal : w.ledger.Balanced)
    (hroom : w.ledger.consumed.toNat + c.gas.toNat ≤ maxGas.toNat) :
    w.Paid w' c.gas r.gasRemaining := by
  obtain ⟨e, -, rfl, rfl⟩ | ⟨-, hs⟩ := callWith_cases h
  · exact .refl _ _
  · have hk := Exec.enterCall_keeps (Machine.Mirrors.steady env) hb c (c.machine w)
    have hp := hs.paid (fun exit m hm => hk.of_ok hm) (fun e m hm => (hk.of_error hm).2 e rfl)
      hbal hroom
    exact ⟨hp.left_le, hp.consumed, hp.breakdown⟩

theorem createWith_paid (hb : Exec.Keeps Stop.OfCode Machine.Mirrors body) {c : Creation}
    (h : createWith env body c w = .ok (r, w')) (hbal : w.ledger.Balanced)
    (hroom : w.ledger.consumed.toNat + c.gas.toNat ≤ maxGas.toNat) :
    w.Paid w' c.gas r.gasRemaining := by
  obtain ⟨e, -, rfl, rfl⟩ | ⟨-, view, r', -, hs, rfl⟩ := createWith_cases h
  · exact .refl _ _
  · have hk := Exec.enterCreation_keeps (Machine.Mirrors.steady env) hb (c.address env w) c
      (c.machine env w view)
    have hp := hs.paid (fun exit m hm => hk.of_ok hm) (fun e m hm => (hk.of_error hm).2 e rfl)
      hbal hroom
    exact ⟨hp.left_le, hp.consumed, hp.breakdown⟩

end Frames

/-- A run spends nothing that the shared meter does not count. -/
theorem Exec.run_mirrors (env : Setting) (steps : Nat) :
    Exec.Keeps Stop.OfCode Machine.Mirrors (Exec.run env steps) := by
  refine Exec.run_keeps (Machine.Mirrors.steady env).lasting ?_ ?_ steps
  · intro body hb m c gas r w _ _ hc h
    exact .descended hc fun hbal hroom => callWith_paid hb h hbal hroom
  · intro body hb m c gas r w _ _ hc h
    exact .descended hc fun hbal hroom => createWith_paid hb h hbal hroom

end MeteredLedger
