import MeteredLedger.Proofs.Machine.Instructions
import MeteredLedger.Proofs.View.Sight

/-!
# Access to storage

A slot holds a word: what its value spells with its last 32 bytes, and zero if it has no value
(`World.held`). `SLOAD` puts the word of a slot of the frame's account on the stack, and `SSTORE`
gives such a slot another one; what they find in the slot is also what the price of the latter hangs
on. They fail only for gas, if their operands are there (`Exec.step_sload`, `Exec.step_sstore`).
-/

namespace MeteredLedger

/-- The word that a slot holds. -/
def World.held (env : Setting) (w : World) (x : Slot) : Word := bytesWord (w.view.slot env.store x)

/-- A slot holds zero that has no value in any layer, nor in the store. -/
theorem World.held_of_unset {env : Setting} {w : World} {x : Slot}
    (hlayers : ∀ layer ∈ w.view.layers, layer.slots[x]? = none)
    (hstore : env.store.slots[x]? = none) : w.held env x = 0 := by
  have hfind : w.view.find? (·.slots[x]?) = none := by
    rw [View.find?_eq, List.findSome?_eq_none_iff]
    exact hlayers
  rw [held, View.slot_eq, hfind, Store.slot, hstore]
  rfl

/-- The meter lets two charges through, one after the other. -/
def Meter.Affords (gas : Meter) (first second : Gas) (label : String) : Prop :=
  ∃ gas₁ gas₂, gas.consume first label = .ok gas₁ ∧ gas₁.consume second label = .ok gas₂

theorem Meter.Affords.second {gas gas₁ : Meter} {first second : Gas} {label : String}
    (h : gas.Affords first second label) (paid : gas.consume first label = .ok gas₁) :
    ∃ gas₂, gas₁.consume second label = .ok gas₂ := by
  obtain ⟨gas', gas₂, hfirst, hsecond⟩ := h
  obtain rfl := Except.ok.inj (paid.symm.trans hfirst)
  exact ⟨gas₂, hsecond⟩

namespace Exec

variable {env : Setting} {m : Machine}

/-- **`SLOAD` puts the word of the slot in place of its key**, for as much gas as it costs. -/
theorem step_sload {key : Word} {rest : List Word} (hm : m.frame.stack.words = key :: rest) :
    Meets (step env 0x54) m
      (fun ctl m' => ctl = .next ∧ m'.world.view = m.world.view ∧
        m'.frame.stack.words = m.world.held env ⟨m.frame.address, ⟨key⟩⟩ :: rest)
      fun _ _ => ¬ m.gas.Affords env.params.instructions.zero env.params.effects.sload "SLOAD" := by
  refine Meets.bind (meets_charge (fun gas hgas => Meets.bind ?_)
    fun hnone _ ⟨gas, _, hgas, _⟩ => hnone gas hgas)
  refine meets_charge (fun gas' _ => Meets.bind ?_)
    fun hnone _ hpaid => (hpaid.second hgas).elim hnone
  refine meets_pop hm fun stack hstack => meets_inspect (Meets.bind ?_)
  obtain ⟨stack', hpush, hwords⟩ := room_of_pop hm hstack
    (m.world.held env ⟨m.frame.address, ⟨key⟩⟩)
  exact meets_push hpush ⟨rfl, rfl, hwords⟩

/-- **`SSTORE` gives a slot of its account another word**, and changes nothing else of what the view
shows. -/
theorem step_sstore {key value : Word} {rest : List Word}
    (hm : m.frame.stack.words = key :: value :: rest) :
    Meets (step env 0x55) m
      (fun ctl m' => ctl = .next ∧ m'.frame.stack.words = rest ∧
        m'.world.view.sight env.store
          = (m.world.view.sight env.store).putSlot ⟨m.frame.address, ⟨key⟩⟩ (slotValue value))
      fun _ _ => ¬ m.gas.Affords env.params.instructions.zero
        (if m.world.held env ⟨m.frame.address, ⟨key⟩⟩ = 0 ∧ value ≠ 0
          then env.params.effects.sstoreSet else env.params.effects.sstoreReset) "SSTORE" := by
  refine Meets.bind (meets_charge (fun gas hgas => Meets.bind (Meets.bind ?_))
    fun hnone _ ⟨gas, _, hgas, _⟩ => hnone gas hgas)
  refine meets_popTwo hm fun stack hstack => meets_inspect (meets_inspect (Meets.bind ?_))
  refine meets_charge (fun gas' _ => ?_) fun hnone _ hpaid => (hpaid.second hgas).elim hnone
  exact ⟨rfl, hstack, View.sight_setSlot _ _ _ _⟩

end Exec

end MeteredLedger
