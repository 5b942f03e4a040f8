import Mathlib.Algebra.Order.Ring.Nat
import Mathlib.Data.List.Forall2
import MeteredLedger.BlockExecution

/-!
# What a block does to the store

A block is executed transition by transition. What every transition keeps of the store
is kept by the whole block, whether it is executed to its end or not (`executeAll_keeps`,
`executeWith_keeps`).

A block that is executed to its end is one that passes the checks (`prepare_eq_ok_iff`) and
whose transactions are carried out one after another, each on the store that the one before
has left (`Course`, `executeWith_eq_ok_iff`).
-/

namespace MeteredLedger

/-- A processor's router hands every message to the processor. -/
theorem Router.dispatch_ofProcessor (p : Processor) (m : Message) (a : Ambient) :
    (ofProcessor p).dispatch m a = Handler.ofProcessor p m a := by
  unfold dispatch route? ofProcessor
  rw [Std.ExtTreeMap.getElem?_insert_self]

namespace BlockExecution

variable {p : Processor} {R : Store → Store → Prop}

/-- A transaction that is carried out adds its receipt. -/
theorem executeAll_cons (p : Processor) (h : Header) (q : Prepared) (qs : List Prepared)
    (done : Progress) :
    executeAll (.ofProcessor p) h (q :: qs) done
      = match p.execute q.message ⟨.bounded q.transaction.gasLimit, h, q.bytes, done.store⟩ with
        | .error f => .error f
        | .ok (t, a) => executeAll (.ofProcessor p) h qs
          { receipts :=
              receipt h done.receipts.length q t (settledMeter t a.meter).consumed :: done.receipts
            gasUsed := addGasCapped done.gasUsed (settledMeter t a.meter).consumed
            events := done.events ++ t.events
            store := a.store } := by
  rw [executeAll, Router.dispatch_ofProcessor]
  simp only [Handler.ofProcessor]
  cases p.execute q.message _ <;> rfl

/-- What all transitions keep of the store is kept by transactions one after another. -/
theorem executeAll_keeps (refl : ∀ s, R s s) (trans : ∀ s s' s'', R s s' → R s' s'' → R s s'')
    (step : ∀ m a t a', p.execute m a = .ok (t, a') → R a.store a'.store) {h : Header}
    {ps : List Prepared} {done : Progress} {result : Except LedgerError Progress} {s : Store}
    (hr : executeAll (.ofProcessor p) h ps done = .ok (result, s)) : R done.store s := by
  induction ps generalizing done with
  | nil =>
    cases hr
    exact refl _
  | cons q qs ih =>
    rw [executeAll_cons] at hr
    cases he : p.execute q.message ⟨.bounded q.transaction.gasLimit, h, q.bytes, done.store⟩ with
    | error a => simp [he] at hr
    | ok answer =>
      simp only [he] at hr
      exact trans _ _ _ (step _ _ _ _ he) (ih hr)

/-- **What all transitions keep of the store is kept by a block.** -/
theorem executeWith_keeps (refl : ∀ s, R s s) (trans : ∀ s s' s'', R s s' → R s' s'' → R s s'')
    (step : ∀ m a t a', p.execute m a = .ok (t, a') → R a.store a'.store) {b : Block}
    {s s' : Store} {result : Except LedgerError BlockExecution}
    (hr : executeWith (.ofProcessor p) b s = .ok (result, s')) : R s s' := by
  unfold executeWith at hr
  cases hp : prepare (.ofProcessor p) b with
  | error e =>
    rw [hp] at hr
    cases hr
    exact refl _
  | ok prepared =>
    rw [hp] at hr
    cases he : executeAll (.ofProcessor p) b.header prepared ⟨[], 0, [], s⟩ with
    | error a =>
      simp only [he] at hr
      cases hr
    | ok answer =>
      obtain ⟨answer, s₁⟩ := answer
      have hk := executeAll_keeps refl trans step he
      simp only [he] at hr
      cases answer with
      | error e =>
        cases hr
        exact hk
      | ok done =>
        cases hr
        exact hk

/-! ### Blocks that are executed to their end -/

/-- What is made ready of a transaction: its message and its canonical bytes with it. -/
inductive Prepared.Of (t : Transaction) : Prepared → Prop where
  | intro {message : Message} (h : Message.ofTransaction t = .ok message) :
      Of t ⟨t, message, t.encode⟩

/-- Transactions are made ready one by one, in order. -/
theorem prepareAll_eq_ok_iff {number : Height} {ts : List Transaction} {ps : List Prepared} :
    prepareAll (.ofProcessor p) number ts = .ok ps ↔ List.Forall₂ Prepared.Of ts ps := by
  have hroute : (Router.ofProcessor p).hasRoute Message.route = true := by
    simp [Router.hasRoute, Router.ofProcessor]
  induction ts generalizing ps with
  | nil =>
    rw [List.forall₂_nil_left_iff]
    constructor
    · rintro ⟨⟩
      rfl
    · rintro rfl
      rfl
  | cons t ts ih =>
    rw [List.forall₂_cons_left_iff, prepareAll]
    constructor
    · intro h
      cases hm : Message.ofTransaction t with
      | error e => simp [hm, bind, Except.bind] at h
      | ok message =>
        simp only [hm, hroute, bind, Except.bind, Bool.not_true, Bool.false_eq_true, if_false] at h
        cases hrest : prepareAll (.ofProcessor p) number ts with
        | error e => simp [hrest] at h
        | ok rest =>
          simp only [hrest, Except.ok.injEq] at h
          exact ⟨_, rest, .intro hm, ih.1 hrest, h.symm⟩
    · rintro ⟨_, rest, ⟨hm⟩, hrest, rfl⟩
      simp [hm, hroute, ih.2 hrest, bind, Except.bind]

/-- **What a block is checked for** before it is executed. -/
theorem prepare_eq_ok_iff {b : Block} {ps : List Prepared} :
    prepare (.ofProcessor p) b = .ok ps ↔
      b.isValid = true ∧ List.Forall₂ Prepared.Of b.transactions ps ∧
        declaredGas b.transactions ≤ b.header.gasLimit := by
  have hready : prepareAll (.ofProcessor p) b.header.number b.transactions = .ok ps ↔ _ :=
    prepareAll_eq_ok_iff
  rw [← hready, ← UInt64.not_lt]
  unfold prepare
  cases prepareAll (.ofProcessor p) b.header.number b.transactions with
  | error e => cases b.isValid <;> simp [bind, Except.bind]
  | ok rest =>
    cases b.isValid
    · simp
    · by_cases hlt : b.header.gasLimit < declaredGas b.transactions <;>
        simp [bind, Except.bind, hlt]

/-- **Transactions carried out one after another**, from a place in the block on: each on the
store that the one before has left, and on a meter of its own. They leave their receipts, their
events and a store. -/
inductive Course (p : Processor) (h : Header) :
    Nat → Store → List Prepared → List Receipt → List Event → Store → Prop where
  /-- There are none. -/
  | nil {n : Nat} {s : Store} : Course p h n s [] [] [] s
  /-- The first is carried out, and then the others. -/
  | cons {n : Nat} {s s' : Store} {q : Prepared} {qs : List Prepared} {t : Transition}
      {a : Ambient} {rs : List Receipt} {es : List Event}
      (head : p.execute q.message ⟨.bounded q.transaction.gasLimit, h, q.bytes, s⟩ = .ok (t, a))
      (tail : Course p h (n + 1) a.store qs rs es s') :
      Course p h n s (q :: qs)
        (receipt h n q t (settledMeter t a.meter).consumed :: rs) (t.events ++ es) s'

/-- The gas of receipts is counted to the largest amount. -/
def countGas (start : Gas) (rs : List Receipt) : Gas :=
  rs.foldl (fun sum r => addGasCapped sum r.gasUsed) start

/-- Transactions are executed to the end of the list exactly if they have a course. -/
theorem executeAll_eq_ok_iff {h : Header} {ps : List Prepared} {done done' : Progress}
    {s' : Store} :
    executeAll (.ofProcessor p) h ps done = .ok (.ok done', s') ↔
      ∃ rs es, Course p h done.receipts.length done.store ps rs es s' ∧
        done' = ⟨rs.reverse ++ done.receipts, countGas done.gasUsed rs, done.events ++ es, s'⟩ := by
  induction ps generalizing done with
  | nil =>
    constructor
    · rintro ⟨⟩
      exact ⟨[], [], .nil, by simp [countGas]⟩
    · rintro ⟨_, _, ⟨⟩, rfl⟩
      simp [executeAll, countGas]
  | cons q qs ih =>
    rw [executeAll_cons]
    cases he : p.execute q.message ⟨.bounded q.transaction.gasLimit, h, q.bytes, done.store⟩ with
    | error f =>
      constructor
      · rintro ⟨⟩
      · rintro ⟨_, _, hcourse, -⟩
        cases hcourse with
        | cons head _ =>
          rw [he] at head
          cases head
    | ok answer =>
      obtain ⟨t, a⟩ := answer
      dsimp only
      rw [ih]
      constructor
      · rintro ⟨rs, es, hrest, rfl⟩
        exact ⟨_, _, .cons he hrest, by simp [countGas, receipt]⟩
      · rintro ⟨_, _, hcourse, rfl⟩
        cases hcourse with
        | cons head tail =>
          rw [he] at head
          cases head
          exact ⟨_, _, tail, by simp [countGas, receipt]⟩

/-- **A block is executed to its end** exactly if it passes the checks and its transactions have
a course. -/
theorem executeWith_eq_ok_iff {b : Block} {s s' : Store} {e : BlockExecution} :
    executeWith (.ofProcessor p) b s = .ok (.ok e, s') ↔
      ∃ ps rs es, prepare (.ofProcessor p) b = .ok ps ∧ Course p b.header 0 s ps rs es s' ∧
        e = ⟨rs, countGas 0 rs, es, s'.root⟩ := by
  unfold executeWith
  cases hp : prepare (.ofProcessor p) b with
  | error f => simp
  | ok ps =>
    constructor
    · intro hr
      cases he : executeAll (.ofProcessor p) b.header ps ⟨[], 0, [], s⟩ with
      | error f => simp [he, bind, Except.bind] at hr
      | ok answer =>
        obtain ⟨answer, s₁⟩ := answer
        simp only [he, bind, Except.bind] at hr
        cases answer with
        | error f => cases hr
        | ok done =>
          cases hr
          obtain ⟨rs, es, hcourse, rfl⟩ := executeAll_eq_ok_iff.1 he
          exact ⟨ps, rs, es, rfl, hcourse, by simp⟩
    · rintro ⟨_, rs, es, ⟨⟩, hcourse, rfl⟩
      have hall : executeAll (.ofProcessor p) b.header ps ⟨[], 0, [], s⟩ = .ok (.ok _, s') :=
        executeAll_eq_ok_iff.2 ⟨rs, es, hcourse, rfl⟩
      simp [hall, bind, Except.bind]

/-- A block that passes the checks comes to what its transactions come to. -/
theorem executeWith_of_executeAll {b : Block} {ps : List Prepared} {s s' : Store}
    {done : Progress} (hp : prepare (.ofProcessor p) b = .ok ps)
    (hall : executeAll (.ofProcessor p) b.header ps ⟨[], 0, [], s⟩ = .ok (.ok done, s')) :
    done.store = s' ∧ executeWith (.ofProcessor p) b s
      = .ok (.ok ⟨done.receipts.reverse, done.gasUsed, done.events, s'.root⟩, s') := by
  obtain ⟨rs, es, hcourse, rfl⟩ := executeAll_eq_ok_iff.1 hall
  refine ⟨rfl, executeWith_eq_ok_iff.2 ⟨ps, rs, es, hp, hcourse, ?_⟩⟩
  simp

end BlockExecution

end MeteredLedger
