import MeteredLedger.Gas.Meter
import MeteredLedger.Proofs.Action
import MeteredLedger.Proofs.Maps

/-!
# What meters count

What each operation on a meter does to its total and to the sum of its breakdown, in
numbers without bound. A meter is balanced if the two agree. A balanced meter that
has room for an amount stays balanced when the amount is recorded.

What is counted on a balanced meter meets no fault: no figure of its breakdown is beyond
the total, and the total is in range (`Balanced.add`, `Balanced.consume`, `Balanced.burn`).
It stays balanced, also when gas is given back that was taken under the label
(`Balanced.refund`). A higher limit lets through what a lower one does, and counts it alike
(`consume_withLimit`). So do meters that tell the same, whatever entries of zero are in their
breakdowns (`consume_tally`).
-/

namespace MeteredLedger

theorem size_eq : UInt64.size = maxGas.toNat + 1 := rfl

theorem toNat_le_maxGas (gas : Gas) : gas.toNat ≤ maxGas.toNat := Nat.le_of_lt_succ gas.toNat_lt

theorem toNat_add_gas {a b : Gas} (h : a.toNat + b.toNat ≤ maxGas.toNat) :
    (a + b).toNat = a.toNat + b.toNat := by
  rw [UInt64.toNat_add]
  exact Nat.mod_eq_of_lt (Nat.lt_succ_of_le h)

theorem addGasCapped_zero (gas : Gas) : addGasCapped gas 0 = gas := by
  refine UInt64.toNat_inj.1 ?_
  rw [toNat_addGasCapped]
  exact Nat.min_eq_left (toNat_le_maxGas gas)

namespace Meter

variable {m m' : Meter} {amount : Gas} {label : String}

/-- The sum of the breakdown. -/
def breakdownTotal (m : Meter) : Nat := (m.breakdown.toList.map fun e => e.2.toNat).sum

/-- Whether the breakdown adds up to the total. -/
def Balanced (m : Meter) : Prop := m.breakdownTotal = m.consumed.toNat

theorem balanced_fresh (limit : GasLimit) : (fresh limit).Balanced := rfl

theorem labelled_eq (m : Meter) (label : String) :
    (m.breakdown[label]?.map UInt64.toNat).getD 0 = (m.labelled label).toNat := by
  unfold labelled
  cases m.breakdown[label]? <;> rfl

theorem labelled_le (m : Meter) (label : String) : (m.labelled label).toNat ≤ m.breakdownTotal := by
  rw [← labelled_eq]
  exact Maps.le_sum m.breakdown UInt64.toNat label

/-- Another figure for a label. -/
theorem sum_breakdown_insert (m : Meter) (label : String) (figure : Gas) :
    ((m.breakdown.insert label figure).toList.map fun e => e.2.toNat).sum
      + (m.labelled label).toNat = m.breakdownTotal + figure.toNat := by
  have h := Maps.sum_insert m.breakdown UInt64.toNat label figure
  rw [labelled_eq] at h
  exact h

/-! ### Counting -/

theorem toNat_consumed_record (h : m.consumed.toNat + amount.toNat ≤ maxGas.toNat) :
    (m.record amount label).consumed.toNat = m.consumed.toNat + amount.toNat := by
  unfold record
  rw [toNat_addGasCapped]
  omega

theorem breakdownTotal_record (h : m.breakdownTotal + amount.toNat ≤ maxGas.toNat) :
    (m.record amount label).breakdownTotal = m.breakdownTotal + amount.toNat := by
  have hs := sum_breakdown_insert m label (addGasCapped (m.labelled label) amount)
  have hl := labelled_le m label
  rw [toNat_addGasCapped] at hs
  show (List.map _ (m.breakdown.insert label _).toList).sum = _
  omega

theorem Balanced.record (hm : m.Balanced) (h : m.consumed.toNat + amount.toNat ≤ maxGas.toNat) :
    (m.record amount label).Balanced := by
  have hm : m.breakdownTotal = m.consumed.toNat := hm
  unfold Balanced
  rw [toNat_consumed_record h, breakdownTotal_record (by omega), hm]

/-- Counting an amount that fits adds it to the total. -/
theorem add_eq_ok (h : m.add amount label = .ok m')
    (hfit : m.consumed.toNat + amount.toNat ≤ maxGas.toNat) :
    m'.limit = m.limit ∧ m'.consumed.toNat = m.consumed.toNat + amount.toNat := by
  unfold add at h
  split at h
  · cases h
    exact ⟨rfl, toNat_add_gas hfit⟩
  · cases h

/-- A charge is let through only if it fits. -/
theorem admits_iff : m.admits amount = true ↔ m.consumed.toNat + amount.toNat ≤ maxGas.toNat ∧
    ∀ limit, m.limit = .bounded limit → m.consumed.toNat + amount.toNat ≤ limit.toNat := by
  have hsize := size_eq
  unfold admits
  cases hl : m.limit with
  | untracked =>
    by_cases hlt : m.consumed.toNat + amount.toNat < UInt64.size
    · simp [addGas?, hlt]
      omega
    · simp [addGas?, hlt]
      omega
  | bounded limit =>
    by_cases hlt : m.consumed.toNat + amount.toNat < UInt64.size
    · have hn : (m.consumed + amount).toNat = _ := toNat_add_gas (by omega)
      simp [addGas?, hlt, UInt64.le_iff_toNat_le, hn]
      omega
    · simp [addGas?, hlt]
      omega

/-- **A charge that is let through adds to the total**, within the limit. -/
theorem consume_eq_ok (h : m.consume amount label = .ok m') :
    m'.limit = m.limit ∧ m'.consumed.toNat = m.consumed.toNat + amount.toNat ∧
      ∀ limit, m.limit = .bounded limit → m.consumed.toNat + amount.toNat ≤ limit.toNat := by
  unfold consume check at h
  by_cases ha : m.admits amount = true
  · obtain ⟨hfit, hlimit⟩ := admits_iff.1 ha
    rw [if_pos ha] at h
    dsimp only at h
    split at h
    · rename_i hadd
      cases h
      obtain ⟨hl, hc⟩ := add_eq_ok hadd hfit
      exact ⟨hl, hc, hlimit⟩
    · cases h
  · rw [if_neg ha] at h
    cases h

theorem toNat_consumed_refund :
    (m.refund amount label).consumed.toNat = m.consumed.toNat - amount.toNat :=
  toNat_subGasFloored _ _

/-! ### Balanced meters -/

theorem Balanced.add (hm : m.Balanced)
    (hfit : m.consumed.toNat + amount.toNat ≤ maxGas.toNat) (label : String) :
    ∃ m', m.add amount label = .ok m' ∧ m'.Balanced := by
  have htotal : m.breakdownTotal = m.consumed.toNat := hm
  have hlabel := labelled_le m label
  have hfigure : (m.labelled label + amount).toNat = _ :=
    toNat_add_gas (a := m.labelled label) (b := amount) (by omega)
  have hsum := sum_breakdown_insert m label (m.labelled label + amount)
  have hroom : (m.labelled label).toNat + amount.toNat < UInt64.size := by
    rw [size_eq]
    omega
  refine ⟨{ m with
      consumed := m.consumed + amount
      breakdown := m.breakdown.insert label (m.labelled label + amount) }, ?_, ?_⟩
  · simp only [Meter.add, addGas?, if_pos hroom]
  · show (List.map _ (m.breakdown.insert label _).toList).sum = (m.consumed + amount).toNat
    rw [toNat_add_gas hfit]
    omega

/-- A charge is made or refused, and nothing else. -/
theorem Balanced.consume (hm : m.Balanced) (amount : Gas) (label : String) :
    (∃ m', m.consume amount label = .ok m' ∧ m'.Balanced) ∨
      ∃ e, m.consume amount label = .error (.error e) := by
  unfold Meter.consume check
  by_cases ha : m.admits amount = true
  · obtain ⟨m', hadd, hbalanced⟩ := hm.add (admits_iff.1 ha).1 label
    rw [if_pos ha]
    exact .inl ⟨m', by simp only [hadd], hbalanced⟩
  · rw [if_neg ha]
    exact .inr ⟨_, rfl⟩

/-- All that is left can be counted. -/
theorem Balanced.burn (hm : m.Balanced) (label : String) : ∃ m', m.burn label = .ok m' := by
  unfold Meter.burn remaining?
  cases m.limit with
  | untracked => exact ⟨m, rfl⟩
  | bounded limit =>
    have hleft := toNat_subGasFloored limit m.consumed
    have hlimit := toNat_le_maxGas limit
    have hconsumed := toNat_le_maxGas m.consumed
    have hroom : m.consumed.toNat + (subGasFloored limit m.consumed).toNat ≤ maxGas.toNat := by
      omega
    obtain ⟨m', hadd, -⟩ := hm.add hroom label
    exact ⟨m', hadd⟩

/-- What has been charged under a label is among its figure. -/
theorem le_labelled_of_consume (h : m.consume amount label = .ok m') :
    amount ≤ m'.labelled label := by
  unfold Meter.consume at h
  split at h
  · cases h
  · split at h
    · rename_i hadd
      cases h
      unfold Meter.add addGas? at hadd
      split_ifs at hadd with hroom
      cases hadd
      have hfigure : (m.labelled label + amount).toNat = _ :=
        toNat_add_gas (by rw [size_eq] at hroom; omega)
      rw [UInt64.le_iff_toNat_le, ← labelled_eq, Std.ExtTreeMap.getElem?_insert_self]
      show amount.toNat ≤ (m.labelled label + amount).toNat
      omega
    · cases h

/-- What has been charged under a label is added to its figure, and to no other. -/
theorem labelled_consume (h : m.consume amount label = .ok m') (other : String) :
    m'.labelled other =
      if other = label then m.labelled label + amount else m.labelled other := by
  unfold Meter.consume at h
  split at h
  · cases h
  · split at h
    · rename_i hadd
      cases h
      unfold Meter.add addGas? at hadd
      split_ifs at hadd
      cases hadd
      unfold labelled
      dsimp only
      split_ifs with hother
      · rw [hother, Std.ExtTreeMap.getElem?_insert_self]
        rfl
      · rw [Std.ExtTreeMap.getElem?_insert, if_neg (by simpa using Ne.symm hother)]
    · cases h

theorem labelled_refund_of_ne {other : String} (h : other ≠ label) :
    (m.refund amount label).labelled other = m.labelled other := by
  unfold refund labelled
  dsimp only
  cases m.breakdown[label]? with
  | none => rfl
  | some figure =>
    dsimp only
    rw [Std.ExtTreeMap.getElem?_insert, if_neg (by simpa using Ne.symm h)]

theorem Balanced.refund (hm : m.Balanced) (h : amount ≤ m.labelled label) :
    (m.refund amount label).Balanced := by
  have htotal : m.breakdownTotal = m.consumed.toNat := hm
  have hlabel := labelled_le m label
  rw [UInt64.le_iff_toNat_le] at h
  unfold Balanced
  rw [toNat_consumed_refund]
  unfold Meter.refund breakdownTotal
  dsimp only
  cases hf : m.breakdown[label]? with
  | none =>
    have hzero : (m.labelled label).toNat = 0 := by rw [← labelled_eq, hf]; rfl
    show m.breakdownTotal = _
    omega
  | some figure =>
    have hfigure : (m.labelled label).toNat = figure.toNat := by rw [← labelled_eq, hf]; rfl
    have hsum := sum_breakdown_insert m label (subGasFloored figure amount)
    rw [toNat_subGasFloored] at hsum
    dsimp only
    omega

/-! ### What is left -/

theorem toNat_remaining {limit : Gas} (h : m.limit = .bounded limit) :
    m.remaining.toNat = limit.toNat - m.consumed.toNat := by
  unfold remaining remaining?
  rw [h]
  exact toNat_subGasFloored _ _

/-- Nothing is left of a meter that is burnt. -/
theorem toNat_remaining_burn {limit : Gas} (h : m.burn label = .ok m')
    (hl : m.limit = .bounded limit) : m'.remaining.toNat = 0 := by
  have hr := toNat_subGasFloored limit m.consumed
  unfold burn remaining? at h
  rw [hl] at h
  have hlimit := toNat_le_maxGas limit
  have hconsumed := toNat_le_maxGas m.consumed
  obtain ⟨hl', hc⟩ := add_eq_ok h (by omega)
  rw [toNat_remaining (hl'.trans hl), hc, hr]
  omega

/-! ### Higher limits -/

/-- The meter with another limit. -/
def withLimit (m : Meter) (limit : Gas) : Meter := { m with limit := .bounded limit }

theorem add_withLimit (m : Meter) (limit amount : Gas) (label : String) :
    (m.withLimit limit).add amount label = (m.add amount label).map (·.withLimit limit) := by
  unfold add
  rw [show (m.withLimit limit).labelled label = m.labelled label from rfl]
  cases addGas? (m.labelled label) amount <;> rfl

/-- **What a limit lets through, a higher one does**, and it is counted alike. -/
theorem consume_withLimit {limit more : Gas} (hl : m.limit = .bounded limit) (hle : limit ≤ more)
    (h : m.consume amount label = .ok m') :
    (m.withLimit more).consume amount label = .ok (m'.withLimit more) := by
  unfold consume check at h ⊢
  by_cases ha : m.admits amount = true
  · obtain ⟨hfit, hlimit⟩ := admits_iff.1 ha
    have hmore : (m.withLimit more).admits amount = true := by
      refine admits_iff.2 ⟨hfit, ?_⟩
      rintro _ ⟨⟩
      exact (hlimit limit hl).trans (UInt64.le_iff_toNat_le.1 hle)
    rw [if_pos ha] at h
    rw [if_pos hmore, add_withLimit]
    dsimp only at h ⊢
    cases hadd : m.add amount label with
    | ok counted =>
      rw [hadd] at h
      cases h
      rfl
    | error f =>
      rw [hadd] at h
      cases h
  · rw [if_neg ha] at h
    cases h

/-- What a higher limit leaves beyond a lower one that is not exceeded. -/
theorem remaining_withLimit {limit more : Gas} (hl : m.limit = .bounded limit) (hle : limit ≤ more)
    (hc : m.consumed ≤ limit) : (m.withLimit more).remaining = m.remaining + (more - limit) := by
  have hmore := toNat_remaining (m := m.withLimit more) rfl
  have hleft := toNat_remaining hl
  have hgap := UInt64.toNat_sub_of_le _ _ hle
  rw [UInt64.le_iff_toNat_le] at hle hc
  have hmax := toNat_le_maxGas more
  refine UInt64.toNat_inj.1 ?_
  rw [toNat_add_gas (by omega), hmore, hleft, hgap]
  show more.toNat - m.consumed.toNat = _
  omega

/-! ### What is told of a meter -/

/-- What a meter tells: its limit, its total and the figure of every label. -/
def tally (m : Meter) : GasLimit × Gas × (String → Gas) := (m.limit, m.consumed, m.labelled)

theorem tally_insert (m : Meter) (consumed : Gas) (label : String) (figure : Gas) :
    tally { m with consumed, breakdown := m.breakdown.insert label figure }
      = (m.limit, consumed, Function.update m.labelled label figure) := by
  refine congrArg (fun labelled => (m.limit, consumed, labelled)) (funext fun other => ?_)
  unfold labelled
  dsimp only
  rw [Std.ExtTreeMap.getElem?_insert]
  by_cases h : label = other
  · rw [if_pos (by simpa using h), h, Function.update_self]
    rfl
  · rw [if_neg (by simpa using h), Function.update_of_ne (Ne.symm h)]

theorem remaining_tally (h : m'.tally = m.tally) : m'.remaining = m.remaining := by
  have hlimit : m'.limit = m.limit := congrArg (·.1) h
  have hconsumed : m'.consumed = m.consumed := congrArg (·.2.1) h
  unfold remaining remaining?
  rw [hlimit, hconsumed]

/-- Meters that tell the same count alike. -/
theorem add_tally (h : m'.tally = m.tally) (amount : Gas) (label : String) :
    (m'.add amount label).map tally = (m.add amount label).map tally := by
  have hlimit : m'.limit = m.limit := congrArg (·.1) h
  have hconsumed : m'.consumed = m.consumed := congrArg (·.2.1) h
  have hlabelled : m'.labelled = m.labelled := congrArg (·.2.2) h
  unfold add
  rw [hlabelled]
  cases addGas? (m.labelled label) amount with
  | none => rfl
  | some figure =>
    show Except.ok (tally _) = Except.ok (tally _)
    rw [tally_insert, tally_insert, hlimit, hconsumed, hlabelled]

theorem consume_tally (h : m'.tally = m.tally) (amount : Gas) (label : String) :
    (m'.consume amount label).map tally = (m.consume amount label).map tally := by
  have hlimit : m'.limit = m.limit := congrArg (·.1) h
  have hconsumed : m'.consumed = m.consumed := congrArg (·.2.1) h
  have hcheck : m'.check amount = m.check amount := by
    unfold check admits remaining?
    rw [hlimit, hconsumed]
  have hadd := add_tally h amount label
  unfold consume
  rw [hcheck]
  cases m.check amount with
  | error e => rfl
  | ok _ =>
    dsimp only
    cases hm : m.add amount label with
    | ok counted =>
      obtain ⟨counted', hm', hsame⟩ := exists_of_map_eq_ok (hadd.trans (congrArg _ hm))
      rw [hm']
      exact congrArg Except.ok hsame
    | error f =>
      rw [eq_error_of_map (hadd.trans (congrArg _ hm))]

theorem burn_tally (h : m'.tally = m.tally) (label : String) :
    (m'.burn label).map tally = (m.burn label).map tally := by
  have hlimit : m'.limit = m.limit := congrArg (·.1) h
  have hconsumed : m'.consumed = m.consumed := congrArg (·.2.1) h
  unfold burn remaining?
  rw [hlimit, hconsumed]
  cases m.limit with
  | untracked => exact congrArg Except.ok h
  | bounded limit => exact add_tally h _ label

/-- A charge of nothing is let through, and tells nothing. -/
theorem consume_zero (within : ∀ limit, m.limit = .bounded limit → m.consumed ≤ limit)
    (label : String) : ∃ m', m.consume 0 label = .ok m' ∧ m'.tally = m.tally := by
  have hadmits : m.admits 0 = true := by
    refine admits_iff.2 ⟨toNat_le_maxGas m.consumed, fun limit hl => ?_⟩
    exact UInt64.le_iff_toNat_le.1 (within limit hl)
  have hfigure : addGas? (m.labelled label) 0 = some (m.labelled label) := by
    unfold addGas?
    rw [UInt64.add_zero]
    exact if_pos (m.labelled label).toNat_lt
  refine ⟨{ m with
    consumed := m.consumed + 0
    breakdown := m.breakdown.insert label (m.labelled label) }, ?_, ?_⟩
  · unfold consume check add
    rw [if_pos hadmits, hfigure]
  · rw [tally_insert, UInt64.add_zero, Function.update_eq_self]
    rfl

end Meter

end MeteredLedger
