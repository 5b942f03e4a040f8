import MeteredLedger.Proofs.Frame.Steps
import MeteredLedger.Proofs.Gas.Tiers

/-!
# Blocks in any number of steps

Code may loop forever where jumps cost nothing, and so may a block. The engine that runs code counts
the steps of a run down from a number that it chooses (`stepsFor`); the number is left open here. A
transition that is not cut off is the same in more steps (`Processor.execute_of_le`), and so is a
block (`BlockExecution.executeIn_of_le`). Either it comes to one answer, in any number of steps that
is large enough, or it is cut off in every number of them (`ends_or_endless`). The number that the
engine chooses is large enough if it does not cut the block off (`exists_executeIn`).
-/

namespace MeteredLedger

/-! ### Engines -/

namespace Engine

/-- The engine that runs code in so many steps at most. -/
def inSteps (params : Params) (steps : Nat) : Engine where
  call context store c w := callIn steps ⟨params, context, store⟩ c w
  create context store c w := createIn steps ⟨params, context, store⟩ c w

theorem runsCode_inSteps (params : Params) (steps : Nat) : (inSteps params steps).RunsCode params :=
  ⟨fun _ _ _ _ => ⟨steps, rfl⟩, fun _ _ _ _ => ⟨steps, rfl⟩⟩

section

variable {params : Params} {context : Context} {store : Store} {m : Message} {gas : Gas} {w : World}

/-- A run that is not cut off is the same in more steps. -/
theorem inSteps_of_le {few many : Nat} (h : few ≤ many)
    (hends : (inSteps params few).run context store m gas w ≠ .error .unfinished) :
    (inSteps params many).run context store m gas w
      = (inSteps params few).run context store m gas w := by
  cases m with
  | create sender value initCode _ => exact createIn_of_le h hends
  | invoke sender recipient value payload _ => exact callIn_of_le h hends

end

/-- The engine that runs code chooses a number of steps for each run. -/
theorem machine_inSteps (params : Params) (context : Context) (store : Store) (m : Message)
    (gas : Gas) (w : World) : ∃ steps, (machine params).run context store m gas w
      = (inSteps params steps).run context store m gas w := by
  cases m with
  | create sender value initCode _ =>
    refine ⟨stepsFor params gas (longestCode ⟨params, context, store⟩ w initCode), ?_⟩
    dsimp only [run, machine, inSteps, Creation.perform]
  | invoke sender recipient value payload _ =>
    refine ⟨stepsFor params gas (longestCode ⟨params, context, store⟩ w []), ?_⟩
    dsimp only [run, machine, inSteps, Call.perform]

end Engine

/-! ### Transitions -/

namespace Processor

/-- The processor whose engine runs code in so many steps at most. -/
def inSteps (params : Params) (steps : Nat) : Processor := ⟨params, .inSteps params steps⟩

variable {params : Params} {m : Message} {a : Ambient}

/-- **The processor `p'` does what `p` does**, unless `p` is cut off. -/
def Extends (p p' : Processor) : Prop :=
  ∀ m a, p.execute m a ≠ .error .unfinished → p'.execute m a = p.execute m a

/-- Transitions are the same where the runs that they ask for are. -/
theorem execute_congr {e e' : Engine}
    (h : let gas := (Grant.ofMeter a.meter m.gasLimit).gas
      e.run (.ofHeader a.header m.sender gas) a.store m gas ⟨startView a, .untracked⟩
        = e'.run (.ofHeader a.header m.sender gas) a.store m gas ⟨startView a, .untracked⟩) :
    execute ⟨params, e⟩ m a = execute ⟨params, e'⟩ m a := by
  rw [execute_eq_run, execute_eq_run]
  dsimp only at h ⊢
  rw [h]

/-- **A transition that is not cut off is the same in more steps.** -/
theorem execute_of_le (params : Params) {few many : Nat} (h : few ≤ many) :
    (inSteps params few).Extends (inSteps params many) := by
  intro m a hends
  refine execute_congr (Engine.inSteps_of_le h fun hcut => hends ?_)
  rw [execute_eq_run]
  unfold inSteps
  dsimp only
  rw [hcut]
  rfl

/-- The processor of some parameters chooses a number of steps for each transition. -/
theorem ofParams_inSteps (params : Params) (m : Message) (a : Ambient) :
    ∃ steps, (ofParams params).execute m a = (inSteps params steps).execute m a := by
  obtain ⟨steps, h⟩ := Engine.machine_inSteps params _ a.store m
    (Grant.ofMeter a.meter m.gasLimit).gas ⟨startView a, .untracked⟩
  exact ⟨steps, execute_congr h⟩

end Processor

/-! ### Blocks -/

namespace BlockExecution

variable {p p' : Processor} {params : Params} {b : Block} {s : Store}

/-- Blocks are checked alike whoever executes them. -/
theorem prepare_ofProcessor (p p' : Processor) (b : Block) :
    prepare (.ofProcessor p) b = prepare (.ofProcessor p') b := by
  have hroute : ∀ p, (Router.ofProcessor p).hasRoute Message.route = true := by
    simp [Router.hasRoute, Router.ofProcessor]
  have hall : ∀ ts, prepareAll (.ofProcessor p) b.header.number ts
      = prepareAll (.ofProcessor p') b.header.number ts := by
    intro ts
    induction ts with
    | nil => rfl
    | cons t ts ih => simp only [prepareAll, hroute, ih]
  simp only [prepare, hall]

/-- Transactions that are not cut off come to the same with a processor that goes on longer. -/
theorem executeAll_extends (hp : p.Extends p') (h : Header) {ps : List Prepared} {done : Progress}
    (hends : executeAll (.ofProcessor p) h ps done ≠ .error .unfinished) :
    executeAll (.ofProcessor p') h ps done = executeAll (.ofProcessor p) h ps done := by
  induction ps generalizing done with
  | nil => rfl
  | cons q qs ih =>
    rw [executeAll_cons] at hends
    rw [executeAll_cons, executeAll_cons]
    have hhead := hp q.message ⟨.bounded q.transaction.gasLimit, h, q.bytes, done.store⟩
    cases hx : p.execute q.message ⟨.bounded q.transaction.gasLimit, h, q.bytes, done.store⟩ with
    | error f =>
      rw [hx] at hends hhead
      rw [hhead fun hcut => hends (by cases hcut; rfl)]
    | ok answer =>
      rw [hx] at hends hhead
      rw [hhead nofun]
      exact ih hends

theorem executeWith_extends (hp : p.Extends p')
    (hends : executeWith (.ofProcessor p) b s ≠ .error .unfinished) :
    executeWith (.ofProcessor p') b s = executeWith (.ofProcessor p) b s := by
  unfold executeWith at hends ⊢
  rw [prepare_ofProcessor p' p]
  cases hprepared : prepare (.ofProcessor p) b with
  | error e => rfl
  | ok ps =>
    rw [hprepared] at hends
    dsimp only at hends ⊢
    rw [executeAll_extends hp]
    intro hcut
    rw [hcut] at hends
    exact hends rfl

/-- Transactions that the processor of some parameters does not cut off come to the same in some
number of steps. -/
theorem exists_executeAll (h : Header) (ps : List Prepared) {done : Progress}
    (hends : executeAll (.ofProcessor (.ofParams params)) h ps done ≠ .error .unfinished) :
    ∃ few, executeAll (.ofProcessor (.inSteps params few)) h ps done
      = executeAll (.ofProcessor (.ofParams params)) h ps done := by
  induction ps generalizing done with
  | nil => exact ⟨0, by rw [executeAll, executeAll]⟩
  | cons q qs ih =>
    rw [executeAll_cons] at hends
    obtain ⟨few, hfew⟩ := Processor.ofParams_inSteps params q.message
      ⟨.bounded q.transaction.gasLimit, h, q.bytes, done.store⟩
    cases hx : (Processor.ofParams params).execute q.message
        ⟨.bounded q.transaction.gasLimit, h, q.bytes, done.store⟩ with
    | error f =>
      refine ⟨few, ?_⟩
      rw [executeAll_cons, executeAll_cons, ← hfew, hx]
    | ok answer =>
      rw [hx] at hends hfew
      obtain ⟨few', hrest⟩ := ih hends
      -- enough for the first transaction, and for the others
      refine ⟨max few few', ?_⟩
      have hhead := Processor.execute_of_le params (le_max_left few few') q.message
        ⟨.bounded q.transaction.gasLimit, h, q.bytes, done.store⟩ (by rw [← hfew]; simp)
      rw [executeAll_cons, executeAll_cons, hhead, ← hfew, hx]
      dsimp only
      rw [executeAll_extends (Processor.execute_of_le params (le_max_right few few')) h
        (by rw [hrest]; exact hends)]
      exact hrest

/-- Executes a block in so many steps for each transaction at most. -/
def executeIn (params : Params) (steps : Nat) (b : Block) (s : Store) :
    Except Abort (Except LedgerError BlockExecution × Store) :=
  executeWith (.ofProcessor (.inSteps params steps)) b s

/-- **The block never ends**: it is cut off in every number of steps. -/
def Endless (params : Params) (b : Block) (s : Store) : Prop :=
  ∀ steps, executeIn params steps b s = .error .unfinished

/-- **A block that is not cut off is the same in more steps.** -/
theorem executeIn_of_le {few many : Nat} (h : few ≤ many)
    (hends : executeIn params few b s ≠ .error .unfinished) :
    executeIn params many b s = executeIn params few b s :=
  executeWith_extends (Processor.execute_of_le params h) hends

/-- **A block that the processor of some parameters does not cut off** comes to the same in any
number of steps that is large enough. -/
theorem exists_executeIn (hends : execute params b s ≠ .error .unfinished) :
    ∃ few, ∀ steps, few ≤ steps → executeIn params steps b s = execute params b s := by
  obtain ⟨few, hfew⟩ : ∃ few, executeIn params few b s = execute params b s := by
    unfold executeIn execute executeWith at *
    cases hp : prepare (.ofProcessor (.ofParams params)) b with
    | error e => exact ⟨0, by rw [prepare_ofProcessor _ (.ofParams params), hp]⟩
    | ok ps =>
      rw [hp] at hends
      have hall : executeAll (.ofProcessor (.ofParams params)) b.header ps ⟨[], 0, [], s⟩
          ≠ .error .unfinished := fun hcut => hends (by simp only [hcut]; rfl)
      obtain ⟨few, hfew⟩ := exists_executeAll b.header ps hall
      refine ⟨few, ?_⟩
      rw [prepare_ofProcessor _ (.ofParams params), hp]
      dsimp only
      rw [hfew]
  refine ⟨few, fun steps h => ?_⟩
  rw [executeIn_of_le h (by rw [hfew]; exact hends), hfew]

/-- **A block comes to one answer in any number of steps that is large enough**, or it never
ends. -/
theorem ends_or_endless (params : Params) (b : Block) (s : Store) :
    (∃ answer few, answer ≠ .error .unfinished ∧
        ∀ steps, few ≤ steps → executeIn params steps b s = answer) ∨
      Endless params b s := by
  by_cases h : Endless params b s
  · exact .inr h
  · obtain ⟨few, hends⟩ := not_forall.1 h
    exact .inl ⟨_, few, hends, fun steps hle => executeIn_of_le hle hends⟩

/-- A block that never ends is cut off by the processor of its parameters as well. -/
theorem Endless.execute (h : Endless params b s) :
    BlockExecution.execute params b s = .error .unfinished := by
  by_contra hends
  obtain ⟨few, hfew⟩ := exists_executeIn hends
  exact hends ((hfew few (Nat.le_refl _)).symm.trans (h few))

end BlockExecution

end MeteredLedger
