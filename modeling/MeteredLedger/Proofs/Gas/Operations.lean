import MeteredLedger.Proofs.Gas.Meters

/-!
# Meters after any operations

A meter keeps two accounts of the same gas, and of its five operations only the charges look at
the limit. Whatever is done to a fresh meter, in whatever order and under whatever labels, the two
accounts agree to the unit, and no operation meets a fault (`counts_exactly`): as long as no more
is given back under a label than it holds, and nothing is recorded that cannot be counted.

The step is `Balanced.act`. A meter that is balanced stays so, and one that is within its limit
stays so unless something is recorded, since recording does not ask. What is asked of the total
alone therefore decides whether a charge is let through (`act_of_lt`, `act_of_le`).
-/

namespace MeteredLedger

/-- The most that a limit lets a meter count. -/
def GasLimit.capacity : GasLimit → Nat
  | .bounded limit => limit.toNat
  | .untracked => maxGas.toNat

namespace Meter

/-- What a meter can be asked to do. -/
inductive Operation where
  /-- To say whether an amount is let through. -/
  | check (amount : Gas)
  | consume (amount : Gas) (label : String)
  | record (amount : Gas) (label : String)
  | burn (label : String)
  | refund (amount : Gas) (label : String)
  deriving DecidableEq, Repr

/-- An operation on a meter: for what it is refused, if it is, and the meter after it. -/
def act (m : Meter) : Operation → Except Abort (Option LedgerError × Meter)
  | .check amount => match m.check amount with
    | .ok () => .ok (none, m)
    | .error e => .ok (some e, m)
  | .consume amount label => match m.consume amount label with
    | .ok m' => .ok (none, m')
    | .error (.error e) => .ok (some e, m)
    | .error (.abort a) => .error a
  | .record amount label => .ok (none, m.record amount label)
  | .burn label => match m.burn label with
    | .ok m' => .ok (none, m')
    | .error f => .error (.fault f)
  | .refund amount label => .ok (none, m.refund amount label)

/-- The meter after operations in order. -/
def after (m : Meter) : List Operation → Except Abort Meter
  | [] => .ok m
  | op :: ops => m.act op >>= fun answer => after answer.2 ops

namespace Operation

/-- Whether an operation counts without asking. -/
def isRecord : Operation → Bool
  | .record .. => true
  | _ => false

/-- Whether an operation gives back what its label holds, and records what can be counted. -/
def isFair (m : Meter) : Operation → Bool
  | .refund amount label => amount ≤ m.labelled label
  | .record amount _ => m.consumed.toNat + amount.toNat ≤ maxGas.toNat
  | _ => true

end Operation

/-- Whether operations in order are fair, up to the first that meets a fault. -/
def areFair (m : Meter) : List Operation → Bool
  | [] => true
  | op :: ops => op.isFair m && match m.act op with
    | .ok (_, m') => areFair m' ops
    | .error _ => true

/-- Whether no more is counted than the limit lets through. -/
def IsWithin (m : Meter) : Prop := ∀ limit, m.limit = .bounded limit → m.consumed.toNat ≤ limit.toNat

variable {m m' : Meter} {amount : Gas} {label : String} {op : Operation}

/-! ### Charges -/

theorem capacity_le (limit : GasLimit) : limit.capacity ≤ maxGas.toNat := by
  cases limit with
  | bounded limit => exact toNat_le_maxGas limit
  | untracked => exact Nat.le_refl _

/-- The total alone decides whether an amount is let through. -/
theorem admits_iff_le : m.admits amount = true ↔ m.consumed.toNat + amount.toNat ≤ m.limit.capacity := by
  have hcapacity := capacity_le m.limit
  rw [admits_iff]
  cases hl : m.limit with
  | bounded limit =>
    rw [hl] at hcapacity
    refine ⟨fun ⟨_, h⟩ => h limit rfl, fun h => ⟨h.trans hcapacity, ?_⟩⟩
    rintro _ ⟨⟩
    exact h
  | untracked => exact ⟨fun ⟨h, _⟩ => h, fun h => ⟨h, nofun⟩⟩

/-- What is charged is within the limit. -/
theorem consume_within (h : m.consume amount label = .ok m') :
    m.consumed.toNat + amount.toNat ≤ m.limit.capacity := by
  by_contra hlt
  have hrefused : ¬ m.admits amount = true := fun ha => hlt (admits_iff_le.1 ha)
  unfold consume check at h
  rw [if_neg hrefused] at h
  cases h

/-- What is refused is beyond the limit, and refused for want of gas. -/
theorem consume_refused {e : LedgerError} (h : m.consume amount label = .error (.error e)) :
    (∃ available, e = .outOfGas amount available) ∧
      m.limit.capacity < m.consumed.toNat + amount.toNat := by
  unfold consume check at h
  by_cases ha : m.admits amount = true
  · rw [if_pos ha] at h
    dsimp only at h
    split at h <;> cases h
  · rw [if_neg ha] at h
    cases h
    exact ⟨⟨_, rfl⟩, Nat.lt_of_not_le fun hle => ha (admits_iff_le.2 hle)⟩

/-- What is left, as a refused charge is told. -/
theorem toNat_available (m : Meter) :
    (m.remaining?.getD (maxGas - m.consumed)).toNat = m.limit.capacity - m.consumed.toNat := by
  unfold remaining?
  cases m.limit with
  | bounded limit => exact toNat_subGasFloored limit m.consumed
  | untracked => exact UInt64.toNat_sub_of_le _ _ (UInt64.le_iff_toNat_le.2 (toNat_le_maxGas _))

/-- **A charge beyond the limit is refused**, and changes nothing. -/
theorem act_of_lt (h : m.limit.capacity < m.consumed.toNat + amount.toNat) (label : String) :
    ∃ available : Gas, available.toNat = m.limit.capacity - m.consumed.toNat ∧
      m.act (.check amount) = .ok (some (.outOfGas amount available), m) ∧
      m.act (.consume amount label) = .ok (some (.outOfGas amount available), m) := by
  have hrefused : ¬ m.admits amount = true := fun ha => Nat.not_le_of_lt h (admits_iff_le.1 ha)
  refine ⟨_, m.toNat_available, ?_, ?_⟩
  · simp only [act, check, if_neg hrefused]
  · simp only [act, consume, check, if_neg hrefused]

/-- **A charge within the limit is made** on a balanced meter, and is added to the total. -/
theorem Balanced.act_of_le (hm : m.Balanced)
    (h : m.consumed.toNat + amount.toNat ≤ m.limit.capacity) (label : String) :
    m.act (.check amount) = .ok (none, m) ∧
    ∃ m', m.act (.consume amount label) = .ok (none, m') ∧ m'.limit = m.limit ∧ m'.Balanced ∧
      m'.consumed.toNat = m.consumed.toNat + amount.toNat := by
  have hadmits : m.admits amount = true := admits_iff_le.2 h
  have hfit := h.trans (capacity_le m.limit)
  obtain ⟨m', hadd, hbalanced⟩ := hm.add hfit label
  obtain ⟨hlimit, hconsumed⟩ := add_eq_ok hadd hfit
  refine ⟨?_, m', ?_, hlimit, hbalanced, hconsumed⟩
  · simp only [Meter.act, check, if_pos hadmits]
  · simp only [Meter.act, Meter.consume, check, if_pos hadmits, hadd]

/-! ### One operation -/

/-- A bounded meter that is burnt has counted its limit, or what it had counted beyond it. -/
theorem Balanced.act_burn (hm : m.Balanced) (label : String) :
    ∃ m', m.act (.burn label) = .ok (none, m') ∧ m'.limit = m.limit ∧ m'.Balanced ∧
      (m.IsWithin → m'.IsWithin) := by
  cases hl : m.limit with
  | untracked =>
    refine ⟨m, ?_, hl, hm, id⟩
    simp only [Meter.act, Meter.burn, remaining?, hl]
  | bounded limit =>
    have hleft := toNat_subGasFloored limit m.consumed
    have hlimit := toNat_le_maxGas limit
    have hconsumed := toNat_le_maxGas m.consumed
    have hfit : m.consumed.toNat + (subGasFloored limit m.consumed).toNat ≤ maxGas.toNat := by omega
    obtain ⟨m', hadd, hbalanced⟩ := hm.add hfit label
    obtain ⟨hsame, hsum⟩ := add_eq_ok hadd hfit
    refine ⟨m', ?_, hsame.trans hl, hbalanced, fun hw other ho => ?_⟩
    · simp only [Meter.act, Meter.burn, remaining?, hl, hadd]
    · have hw := hw limit hl
      cases hl.symm.trans (hsame.symm.trans ho)
      omega

/-- **What one operation keeps.** A fair operation on a balanced meter meets no fault and leaves it
balanced, and within its limit if it was and nothing is recorded. -/
theorem Balanced.act (hm : m.Balanced) (hop : op.isFair m = true) :
    ∃ answer m', m.act op = .ok (answer, m') ∧ m'.limit = m.limit ∧ m'.Balanced ∧
      (op.isRecord = false → m.IsWithin → m'.IsWithin) := by
  cases op with
  | check amount =>
    by_cases h : m.consumed.toNat + amount.toNat ≤ m.limit.capacity
    · exact ⟨none, m, (hm.act_of_le h "").1, rfl, hm, fun _ => id⟩
    · obtain ⟨_, -, hcheck, -⟩ := act_of_lt (Nat.lt_of_not_le h) ""
      exact ⟨_, m, hcheck, rfl, hm, fun _ => id⟩
  | consume amount label =>
    by_cases h : m.consumed.toNat + amount.toNat ≤ m.limit.capacity
    · obtain ⟨-, m', hconsume, hlimit, hbalanced, hsum⟩ := hm.act_of_le h label
      refine ⟨none, m', hconsume, hlimit, hbalanced, fun _ _ limit hl => ?_⟩
      rw [hlimit] at hl
      rw [hl] at h
      exact hsum.trans_le h
    · obtain ⟨_, -, -, hconsume⟩ := act_of_lt (Nat.lt_of_not_le h) label
      exact ⟨_, m, hconsume, rfl, hm, fun _ => id⟩
  | record amount label =>
    exact ⟨none, _, rfl, rfl, hm.record (of_decide_eq_true hop), nofun⟩
  | burn label =>
    obtain ⟨m', hburn, hlimit, hbalanced, hwithin⟩ := hm.act_burn label
    exact ⟨none, m', hburn, hlimit, hbalanced, fun _ => hwithin⟩
  | refund amount label =>
    refine ⟨none, _, rfl, rfl, hm.refund (of_decide_eq_true hop), fun _ hw limit hl => ?_⟩
    have hrefund : (m.refund amount label).consumed.toNat = _ := toNat_consumed_refund
    have := hw limit hl
    omega

/-! ### Any number of them -/

/-- **What operations in order keep.** -/
theorem Balanced.after {ops : List Operation} (hm : m.Balanced) (h : m.areFair ops = true) :
    ∃ m', m.after ops = .ok m' ∧ m'.limit = m.limit ∧ m'.Balanced ∧
      ((∀ op ∈ ops, op.isRecord = false) → m.IsWithin → m'.IsWithin) := by
  induction ops generalizing m with
  | nil => exact ⟨m, rfl, rfl, hm, fun _ => id⟩
  | cons op ops ih =>
    rw [areFair, Bool.and_eq_true] at h
    obtain ⟨hop, hops⟩ := h
    obtain ⟨answer, m₁, hact, hlimit₁, hbalanced₁, hwithin₁⟩ := hm.act hop
    rw [hact] at hops
    obtain ⟨m₂, hafter, hlimit₂, hbalanced₂, hwithin₂⟩ := ih hbalanced₁ hops
    refine ⟨m₂, ?_, hlimit₂.trans hlimit₁, hbalanced₂, fun hnone hw => ?_⟩
    · rw [Meter.after, hact]
      exact hafter
    · exact hwithin₂ (fun op h => hnone op (List.mem_cons_of_mem _ h))
        (hwithin₁ (hnone op List.mem_cons_self) hw)

theorem isWithin_fresh (limit : GasLimit) : (fresh limit).IsWithin := fun _ _ => Nat.zero_le _

/-- What a meter within its limit has counted and what it has left make up the limit. -/
theorem IsWithin.add_remaining {limit : Gas} (hw : m.IsWithin) (hl : m.limit = .bounded limit) :
    m.consumed.toNat + m.remaining.toNat = limit.toNat := by
  have hle := hw limit hl
  have hleft := toNat_remaining hl
  omega

/-- **A meter counts exactly.** Fair operations on a fresh meter, in any order, meet no fault, and
leave a total that is the sum of the breakdown. Then a charge is refused exactly if the total with
it would be more than the limit, or for an untracked meter more than can be counted; it is told how
much is left, and nothing is changed. One that is not refused is added to the total. Unless
something was recorded, a bounded meter has counted no more than its limit, and the rest is left. -/
theorem counts_exactly (limit : GasLimit) (ops : List Operation)
    (h : (fresh limit).areFair ops = true) :
    ∃ m, (fresh limit).after ops = .ok m ∧ m.limit = limit ∧ m.consumed.toNat = m.breakdownTotal ∧
      (∀ amount label,
        (limit.capacity < m.consumed.toNat + amount.toNat → ∃ available : Gas,
          available.toNat = limit.capacity - m.consumed.toNat ∧
          m.act (.check amount) = .ok (some (.outOfGas amount available), m) ∧
          m.act (.consume amount label) = .ok (some (.outOfGas amount available), m)) ∧
        (m.consumed.toNat + amount.toNat ≤ limit.capacity → m.act (.check amount) = .ok (none, m) ∧
          ∃ m', m.act (.consume amount label) = .ok (none, m') ∧
            m'.consumed.toNat = m.consumed.toNat + amount.toNat ∧
            m'.consumed.toNat = m'.breakdownTotal)) ∧
      ((∀ op ∈ ops, op.isRecord = false) → ∀ bound, limit = .bounded bound →
        m.consumed ≤ bound ∧ m.consumed.toNat + m.remaining.toNat = bound.toNat) := by
  obtain ⟨m, hafter, hlimit, hbalanced, hwithin⟩ := (balanced_fresh limit).after h
  have hlimit : m.limit = limit := hlimit
  refine ⟨m, hafter, hlimit, hbalanced.symm, fun amount label => ⟨fun hlt => ?_, fun hle => ?_⟩, ?_⟩
  · rw [← hlimit] at hlt ⊢
    exact act_of_lt hlt label
  · rw [← hlimit] at hle
    obtain ⟨hcheck, m', hconsume, -, hbalanced', hsum⟩ := hbalanced.act_of_le hle label
    exact ⟨hcheck, m', hconsume, hsum, hbalanced'.symm⟩
  · rintro hnone bound rfl
    have hw := hwithin hnone (isWithin_fresh _)
    exact ⟨UInt64.le_iff_toNat_le.2 (hw bound hlimit), hw.add_remaining hlimit⟩

/-! ### Charges, and records beyond the limit -/

namespace MixedUse

/-- A charge is partly given back, one is refused, and then more is recorded than the limit. -/
def recorded : List Operation :=
  [.consume 100 "call", .refund 40 "call", .consume 441 "call", .check 440, .record 1000 "mirror",
    .burn "exhausted", .refund 300 "mirror"]

/-- All that is left is burnt, and some of it given back. -/
def charged : List Operation := [.consume 100 "call", .burn "exhausted", .refund 40 "exhausted"]

end MixedUse

open MixedUse in
/-- What is recorded takes the meter beyond its limit, where not even one unit is let through; by
charges alone it stays below. -/
theorem counts_exactly_mixed :
    (fresh (.bounded 500)).areFair recorded = true ∧ (fresh (.bounded 500)).areFair charged = true ∧
    (∀ op ∈ charged, op.isRecord = false) ∧
    (∃ m, (fresh (.bounded 500)).after recorded = .ok m ∧ m.consumed = 760 ∧ m.breakdownTotal = 760 ∧
      m.act (.consume 1 "call") = .ok (some (.outOfGas 1 0), m)) ∧
    ∃ m, (fresh (.bounded 500)).after charged = .ok m ∧ m.consumed = 460 ∧ m.consumed ≤ 500 ∧
      m.consumed.toNat + m.remaining.toNat = 500 := by
  have hrecorded : (fresh (.bounded 500)).areFair recorded = true := by decide +kernel
  have hcharged : (fresh (.bounded 500)).areFair charged = true := by decide +kernel
  have hnone : ∀ op ∈ charged, op.isRecord = false := by decide
  have hbeyond : ((fresh (.bounded 500)).after recorded).toOption.map (·.consumed) = some 760 := by
    decide +kernel
  have hbelow : ((fresh (.bounded 500)).after charged).toOption.map (·.consumed) = some 460 := by
    decide +kernel
  obtain ⟨m, hm, -, hsum, hcharge, -⟩ := counts_exactly (.bounded 500) recorded hrecorded
  obtain ⟨m', hm', -, -, -, hwithin⟩ := counts_exactly (.bounded 500) charged hcharged
  rw [hm] at hbeyond
  rw [hm'] at hbelow
  have hconsumed : m.consumed = 760 := Option.some.inj hbeyond
  have hconsumed' : m'.consumed = 460 := Option.some.inj hbelow
  obtain ⟨available, havailable, -, hrefused⟩ := (hcharge 1 "call").1 (by rw [hconsumed]; decide)
  have hzero : available = 0 := UInt64.toNat_inj.1 (by rw [havailable, hconsumed]; decide)
  rw [hzero] at hrefused
  have htotal : m.breakdownTotal = 760 := by rw [← hsum, hconsumed]; rfl
  obtain ⟨hle, hrest⟩ := hwithin hnone 500 rfl
  exact ⟨hrecorded, hcharged, hnone, ⟨m, hm, hconsumed, htotal, hrefused⟩, m', hm', hconsumed', hle,
    hrest⟩

end Meter

end MeteredLedger
