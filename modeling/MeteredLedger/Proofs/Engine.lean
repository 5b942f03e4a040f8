import MeteredLedger.Engine

/-!
# Engines that run code

What is shown of calls and creations in any number of steps holds of every engine
that answers as they do. The engine that runs code is one of them (`runsCode_machine`),
whatever number of steps it allows itself.
-/

namespace MeteredLedger

namespace Engine

/-- **The engine runs code**: it answers as a call or a creation does in some number of
steps. -/
structure RunsCode (params : Params) (e : Engine) : Prop where
  call : ∀ context store c w,
    ∃ steps, e.call context store c w = callIn steps ⟨params, context, store⟩ c w
  create : ∀ context store c w,
    ∃ steps, e.create context store c w = createIn steps ⟨params, context, store⟩ c w

theorem runsCode_machine (params : Params) : (machine params).RunsCode params :=
  ⟨fun _ _ _ _ => ⟨_, rfl⟩, fun _ _ _ _ => ⟨_, rfl⟩⟩

variable {params : Params} {e : Engine}

/-- A message is a call or a creation on the gas that goes with it. -/
theorem RunsCode.run_cases (he : e.RunsCode params) (context : Context) (store : Store)
    (m : Message) (gas : Gas) (w : World) :
    (∃ steps, ∃ c : Call, c.gas = gas ∧
      e.run context store m gas w = callIn steps ⟨params, context, store⟩ c w) ∨
    (∃ steps, ∃ c : Creation, c.gas = gas ∧
      e.run context store m gas w = createIn steps ⟨params, context, store⟩ c w) := by
  cases m with
  | create sender value initCode gasLimit =>
    obtain ⟨steps, h⟩ := he.create context store ⟨sender, initCode, gas, value, 0⟩ w
    exact .inr ⟨steps, _, rfl, h⟩
  | invoke sender recipient value payload gasLimit =>
    obtain ⟨steps, h⟩ := he.call context store ⟨sender, recipient, payload, gas, value, 0⟩ w
    exact .inl ⟨steps, _, rfl, h⟩

end Engine

end MeteredLedger
