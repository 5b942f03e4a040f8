import MeteredLedger.Proofs.Frame.Turns

/-!
# Memory is paid for by its size

What a memory costs depends on its size alone, and a larger one never costs less. So it makes no
difference in how many steps a memory is grown, nor to which sizes in between, nor how often a
region is touched that is there already: the costs add up to what it costs to grow once to the
largest (`Memory.growthCosts_eq`). A frame starts without memory and without a charge for it; each
instruction grows the memory only once the difference is paid, and grows it then; nothing else is
ever charged or given back under the label of memory. So at every moment of every frame its meter
holds under that label exactly what its memory costs (`memory_is_paid_by_size`).
-/

namespace MeteredLedger

namespace Memory

variable (costs : EffectCosts)

/-! ### Chains of sizes -/

/-- What it costs, in all, to grow a memory of `current` bytes to one limit after the other. -/
def growthCosts : Nat → List Nat → Except Fault Nat
  | _, [] => .ok 0
  | current, limit :: limits => do
    let gas ← growthCost costs current limit
    return gas.toNat + (← growthCosts (max current limit) limits)

theorem wordsFor_max (a b : Nat) : wordsFor (max a b) = max (wordsFor a) (wordsFor b) := by
  unfold wordsFor
  omega

/-- Growing costs the difference between what the sizes cost. -/
theorem growthCost_eq (current limit : Nat) :
    growthCost costs current limit =
      .ok (cost costs (wordsFor (max current limit)) - cost costs (wordsFor current)) := by
  rw [wordsFor_max]
  unfold growthCost
  dsimp only
  split_ifs with hfew hle
  · rw [Nat.max_eq_left hfew, UInt64.sub_self]
  · rw [Nat.max_eq_right (Nat.le_of_not_le hfew)]
  · exact absurd (cost_mono costs (Nat.le_of_not_le hfew)) hle

theorem le_foldl_max (current : Nat) (limits : List Nat) :
    current ≤ limits.foldl max current := by
  induction limits generalizing current with
  | nil => exact Nat.le_refl _
  | cons limit limits ih => exact (Nat.le_max_left _ _).trans (ih _)

/-- **Costs of growing add up** along any chain of sizes. -/
theorem growthCosts_eq (current : Nat) (limits : List Nat) :
    growthCosts costs current limits
      = (growthCost costs current (limits.foldl max current)).map UInt64.toNat := by
  have difference : ∀ {few many}, few ≤ many →
      (cost costs (wordsFor many) - cost costs (wordsFor few)).toNat
          = (cost costs (wordsFor many)).toNat - (cost costs (wordsFor few)).toNat ∧
        (cost costs (wordsFor few)).toNat ≤ (cost costs (wordsFor many)).toNat := by
    intro few many h
    have hle := cost_mono costs (show wordsFor few ≤ wordsFor many by unfold wordsFor; omega)
    exact ⟨UInt64.toNat_sub_of_le _ _ hle, UInt64.le_iff_toNat_le.1 hle⟩
  induction limits generalizing current with
  | nil =>
    rw [growthCosts, List.foldl_nil, growthCost_eq, Nat.max_self, UInt64.sub_self]
    rfl
  | cons limit limits ih =>
    have hfirst := difference (Nat.le_max_left current limit)
    have hrest := difference (le_foldl_max (max current limit) limits)
    have hall := difference (le_foldl_max current (limit :: limits))
    rw [growthCosts, ih, growthCost_eq, growthCost_eq, growthCost_eq,
      Nat.max_eq_right (le_foldl_max _ _), Nat.max_eq_right (le_foldl_max _ _)]
    rw [List.foldl_cons] at hall ⊢
    show Except.ok (_ + _) = Except.ok _
    rw [hfirst.1, hrest.1, hall.1]
    congr 1
    omega

/-- No words cost nothing. -/
theorem cost_zero : cost costs 0 = 0 := by
  refine UInt64.toNat_inj.1 ?_
  unfold cost
  dsimp only
  rw [toNat_addGasCapped, UInt64.toNat_div, toNat_mulGasCapped, toNat_mulGasCapped,
    show (gasOfNat 0).toNat = 0 from rfl]
  simp

end Memory

/-! ### Frames -/

/-- A frame starts without memory, and has not paid for any. -/
theorem Machine.Blank.paidBy {m : Machine} (h : m.Blank) (costs : EffectCosts) :
    m.frame.memory.PaidBy costs m.gas := by
  rw [Memory.PaidBy, h.memory, h.paid]
  exact ⟨Nat.dvd_zero 32, (Memory.cost_zero costs).symm⟩

namespace Exec

variable {env : Setting}

/-- **A turn keeps to it that memory is paid for**, also one that fails. -/
theorem turn_paid (env : Setting) (body : Exec Exit) (byte : UInt8) {m : Machine}
    (hm : m.frame.memory.PaidBy env.params.effects m.gas) :
    Meets (turn env body byte) m
      (fun _ m' => m'.frame.memory.PaidBy env.params.effects m'.gas)
      fun stop m' => ∀ e, stop = .error e → m'.frame.memory.PaidBy env.params.effects m'.gas := by
  refine (turn_meets env body byte m).mono ?_ fun stop m' h e he => h.paid e he hm
  rintro exit m' ⟨ctl, m₁, hstep, hconcludes⟩
  obtain ⟨ws, mid, hperformed⟩ := (step_performs_acts env byte m).of_ok hstep
  exact hconcludes.paid (hperformed.acts.paid (hperformed.ready.paid hm))

/-- Memory is paid for at every iteration of a run, and when it ends. -/
theorem run_paid (steps : Nat) {m : Machine}
    (hm : m.frame.memory.PaidBy env.params.effects m.gas) :
    (∀ m' ∈ (traced env steps m).1, m'.frame.memory.PaidBy env.params.effects m'.gas) ∧
    Meets (run env steps) m (fun _ m' => m'.frame.memory.PaidBy env.params.effects m'.gas)
      fun stop m' => ∀ e, stop = .error e → m'.frame.memory.PaidBy env.params.effects m'.gas := by
  have htraced : ∀ m' ∈ (traced env steps m).1,
      m'.frame.memory.PaidBy env.params.effects m'.gas := by
    intro m' hm'
    obtain ⟨past, hran⟩ := traced_ran .here hm'
    exact hran.keeps (P := fun m => m.frame.memory.PaidBy env.params.effects m.gas)
      (fun steps byte m₁ m₂ hturn hm₁ => (turn_paid env _ byte hm₁).of_ok hturn) hm
  refine ⟨htraced, (run_traced env steps m).mono ?_ ?_⟩
  · rintro exit m' ⟨mid, hmid, ⟨-, -, rfl⟩ | ⟨byte, few, -, hturn⟩⟩
    · exact htraced _ (List.mem_of_getLast? hmid)
    · exact (turn_paid env _ byte (htraced mid (List.mem_of_getLast? hmid))).of_ok hturn
  · rintro stop m' (rfl | ⟨mid, hmid, byte, few, -, hturn⟩)
    · exact nofun
    · exact (turn_paid env _ byte (htraced mid (List.mem_of_getLast? hmid))).of_error hturn

end Exec

open Exec in
/-- **Memory is paid for by its size.** Whatever the prices, more words never cost less, no cost of
growing falls short, and the costs of growing add up along any chain of sizes. In every frame,
called or creating, the meter holds under the label of memory what a memory of its size costs, and
its size is a number of whole words: at every iteration of its run, and when the run ends, with
output or for an error. -/
theorem memory_is_paid_by_size :
    (∀ costs few many, few ≤ many → Memory.cost costs few ≤ Memory.cost costs many) ∧
    (∀ costs current limits, ∃ gas,
      Memory.growthCost costs current (limits.foldl max current) = .ok gas ∧
      Memory.growthCosts costs current limits = .ok gas.toNat) ∧
    ∀ env w m, ((∃ c : Call, c.Starts env w m) ∨ ∃ c : Creation, c.Starts env w m) → ∀ steps,
      (∀ m' ∈ (traced env steps m).1, 32 ∣ m'.frame.memory.size ∧
        m'.gas.labelled "memory" = Memory.cost env.params.effects (m'.frame.memory.size / 32)) ∧
      (∀ m', ((∃ exit, run env steps m = .ok exit m') ∨
          ∃ e, run env steps m = .error (.error e) m') →
        32 ∣ m'.frame.memory.size ∧
        m'.gas.labelled "memory" = Memory.cost env.params.effects (m'.frame.memory.size / 32)) := by
  refine ⟨fun costs _ _ => Memory.cost_mono costs, fun costs current limits => ?_,
    fun env w m hstarts steps => ?_⟩
  · obtain ⟨gas, hgas⟩ := Memory.growthCost_ok costs current (limits.foldl max current)
    refine ⟨gas, hgas, ?_⟩
    rw [Memory.growthCosts_eq, hgas]
    rfl
  · have hblank : m.Blank := by
      obtain ⟨c, hc⟩ | ⟨c, hc⟩ := hstarts
      · exact hc.blank
      · exact hc.blank
    obtain ⟨htraced, hends⟩ := run_paid steps (hblank.paidBy env.params.effects)
    refine ⟨htraced, ?_⟩
    rintro m' (⟨exit, hok⟩ | ⟨e, herror⟩)
    · exact hends.of_ok hok
    · exact hends.of_error herror e rfl

/-! ### A memory that grows in two steps -/

namespace GrownMemory

/-- Writes a word across the second and the third word of memory, reads the first, and then one that
is not there yet. -/
def code : Bytes := [0x60, 1, 0x60, 40, 0x52, 0x60, 0, 0x51, 0x60, 128, 0x51]

/-- The squares of sizes are paid in full. -/
def params : Params :=
  { Params.standard with effects := { Params.standard.effects with quadCoeffDiv := 0 } }

/-- The account `2` has the code. -/
def env : Setting := ⟨params, .ofHeader .genesis ⟨1⟩ 1000, Store.empty.putCode ⟨2⟩ code⟩

/-- Nothing has been changed or counted. -/
def world : World := ⟨.fresh, .untracked⟩

/-- A call of the account. -/
def request : Call := ⟨⟨1⟩, ⟨2⟩, [], 100000, 0, 0⟩

end GrownMemory

open GrownMemory Exec in
/-- The memory grows to three words and then to five, and what is booked for it is the cost of its
size at every turn. -/
theorem memory_is_paid_by_size_grown :
    Memory.cost params.effects 3 ≤ Memory.cost params.effects 5 ∧
    ∃ m, request.Starts env world m ∧
    (traced env 9 m).1.map (fun m' => (m'.frame.memory.size, m'.gas.labelled "memory")) =
      [(0, 0), (0, 0), (0, 0), (96, 18), (96, 18), (96, 18), (96, 18), (160, 40)] ∧
    ∀ m' ∈ (traced env 9 m).1, 32 ∣ m'.frame.memory.size ∧
      m'.gas.labelled "memory" = Memory.cost env.params.effects (m'.frame.memory.size / 32) := by
  have hsizes : (request.start? env world).map (fun m =>
      (traced env 9 m).1.map fun m' => (m'.frame.memory.size, m'.gas.labelled "memory")) =
      some [(0, 0), (0, 0), (0, 0), (96, 18), (96, 18), (96, 18), (96, 18), (160, 40)] := by
    decide +kernel
  obtain ⟨m, hm, hread⟩ := Option.map_eq_some_iff.1 hsizes
  have hstarts := Call.starts_of_start? hm
  exact ⟨memory_is_paid_by_size.1 params.effects 3 5 (by decide), m, hstarts, hread,
    (memory_is_paid_by_size.2.2 env world m (.inl ⟨_, hstarts⟩) 9).1⟩

end MeteredLedger
