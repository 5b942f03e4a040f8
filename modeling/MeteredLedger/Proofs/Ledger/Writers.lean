import MeteredLedger.Proofs.Failure
import MeteredLedger.Proofs.Frame.Occupation

/-!
# Who writes

Slots are written and logs are left in the name of the account that a frame runs for. Only
code writes, so that account has code when it is called, or is being made a contract. The
code it is called with it has had from the start, or was given on the way, when it was made
a contract (`Sight.Founds`). So whoever leaves a mark is active in the sense of
`Sight.Active`, be the code run in whatever frame, and be other frames taken back around it
(`Deeds.marked`). A transition that fails leaves no marks at all (`only_code_writes`).
-/

namespace MeteredLedger

namespace Sight

variable {ρ σ τ : Sight}

/-- **Other code is given to contracts that are made**: nothing is taken from those who are
there, and who has other code than before is taken. -/
structure Founds (σ τ : Sight) : Prop where
  respects : σ.Respects τ
  recoded : ∀ x, τ.code x ≠ σ.code x → (τ.account x).nonce ≠ 0

namespace Founds

/-- Nobody is given code where only accounts change. -/
theorem of_same (same : τ = { σ with account := τ.account }) (h : σ.Respects τ) : σ.Founds τ := by
  refine ⟨h, fun x hx => ?_⟩
  rw [same] at hx
  exact absurd rfl hx

/-- Who is given other code was free before. -/
theorem free (h : σ.Founds τ) {x : Address} (hx : τ.code x ≠ σ.code x) : σ.IsFree x := by
  by_contra hn
  exact hx (h.respects.code x hn).1

end Founds

/-- **Code may have run in the name of an address** between two sights: it has code in the
first, or is free there and taken in the second. -/
def Active (σ τ : Sight) (x : Address) : Prop :=
  σ.code x ≠ [] ∨ σ.IsFree x ∧ (τ.account x).nonce ≠ 0

namespace Active

variable {x : Address}

theorem later (h : ρ.Active σ x) (hr : σ.Respects τ) : ρ.Active τ x :=
  h.imp_right fun ⟨free, taken⟩ => ⟨free, hr.nonce_ne_zero taken⟩

theorem earlier (hf : ρ.Founds σ) (hr : σ.Respects τ) (h : σ.Active τ x) : ρ.Active τ x := by
  obtain hcode | ⟨free, taken⟩ := h
  · by_cases hc : σ.code x = ρ.code x
    · rw [hc] at hcode
      exact .inl hcode
    · exact .inr ⟨hf.free hc, hr.nonce_ne_zero (hf.recoded x hc)⟩
  · exact .inr ⟨hf.respects.free free, taken⟩

end Active

/-- **What is written and left** between two sights, slots and logs, carries addresses of
one kind. -/
structure MarkedBy (P : Address → Prop) (σ τ : Sight) : Prop where
  slot : ∀ x, τ.slot x ≠ σ.slot x → P x.address
  logs : ∃ new, τ.logs = σ.logs ++ new ∧ ∀ l ∈ new, P l.address

namespace MarkedBy

variable {P Q : Address → Prop}

theorem of_eq (hs : τ.slot = σ.slot) (hl : τ.logs = σ.logs) : MarkedBy P σ τ :=
  ⟨fun x hx => absurd (congrFun hs x) hx, [], by rw [hl, List.append_nil], by simp⟩

theorem mono (h : MarkedBy P σ τ) (hPQ : ∀ x, P x → Q x) : MarkedBy Q σ τ := by
  obtain ⟨new, hnew, hall⟩ := h.logs
  exact ⟨fun x hx => hPQ _ (h.slot x hx), new, hnew, fun l hl => hPQ _ (hall l hl)⟩

theorem trans (h : MarkedBy P ρ σ) (h' : MarkedBy P σ τ) : MarkedBy P ρ τ := by
  obtain ⟨new, hnew, hall⟩ := h.logs
  obtain ⟨new', hnew', hall'⟩ := h'.logs
  refine ⟨fun x hx => ?_, new ++ new', by rw [hnew', hnew, List.append_assoc], fun l hl => ?_⟩
  · by_cases hs : τ.slot x = σ.slot x
    · rw [hs] at hx
      exact h.slot x hx
    · exact h'.slot x hs
  · exact (List.mem_append.1 hl).elim (hall l) (hall' l)

/-- Code that an account has from the start may mark what it likes in its name. -/
theorem of_code {a : Address} (h : MarkedBy (fun x => x = a ∨ σ.Active τ x) σ τ)
    (hcode : σ.code a ≠ []) : MarkedBy (σ.Active τ) σ τ := by
  refine h.mono fun x hx => ?_
  obtain rfl | hx := hx
  · exact .inl hcode
  · exact hx

/-- Marks that are left once accounts have changed. -/
theorem after (h : MarkedBy (σ.Active τ) σ τ) (same : σ = { ρ with account := σ.account })
    (respects : ρ.Respects σ) (hr : σ.Respects τ) : MarkedBy (ρ.Active τ) ρ τ := by
  refine trans ?_ (h.mono fun x hx => hx.earlier (.of_same same respects) hr)
  rw [same]
  exact .of_eq rfl rfl

end MarkedBy

end Sight

/-! ### Deeds -/

section

variable {env : Setting} {self address : Address} {amount : Wei} {code : Bytes}
  {v w v₁ v₂ : View}

/-- Other code is given by deeds to contracts that are made. -/
theorem Deeds.founds (h : Deeds env self v w) :
    (v.sight env.store).Founds (w.sight env.store) := by
  refine ⟨h.respects, fun x hx => ?_⟩
  induction h with
  | nothing h =>
    rw [h.sight] at hx
    exact absurd rfl hx
  | @trans self u v w h h' ih ih' =>
    by_cases hc : (w.sight env.store).code x = (v.sight env.store).code x
    · rw [hc] at hx
      exact h'.respects.nonce_ne_zero (ih hx)
    · exact ih' hc
  | write self v key value =>
    rw [View.sight_setSlot] at hx
    exact absurd rfl hx
  | leave self v topics data =>
    rw [View.sight_addLog] at hx
    exact absurd rfl hx
  | give h =>
    rw [h.sight] at hx
    exact absurd rfl hx
  | bump h =>
    rw [View.sight_bumpNonce h] at hx
    exact absurd rfl hx
  | call _ _ ih => exact ih hx
  | @create self address nonce amount code v v₁ v₂ named free endow body size ih =>
    by_cases ha : x = address
    · subst ha
      exact Deeds.taken endow body code
    · have hcode : (v₁.sight env.store).code x = (v.sight env.store).code x :=
        congrFun (congrArg Sight.code endow.sight_setNonce) x
      rw [View.sight_setCode, Sight.putCode_code, Function.update_of_ne ha, ← hcode] at hx
      exact (View.nonce_setCode _ _ _ _ _).trans_ne (ih hx)

/-- What is marked while a contract is made, of which the code that it is created with may
mark what it likes in the contract's name. -/
theorem Deeds.marked_created (free : (v.sight env.store).IsFree address)
    (endow : View.Gives env.store self address amount (v.setNonce env.store address 1) v₁)
    (body : Deeds env address v₁ v₂)
    (marks : Sight.MarkedBy
      (fun x => x = address ∨ (v₁.sight env.store).Active (v₂.sight env.store) x)
      (v₁.sight env.store) (v₂.sight env.store)) :
    Sight.MarkedBy
      ((v.sight env.store).Active ((v₂.setCode env.store address code).sight env.store))
      (v.sight env.store) ((v₂.setCode env.store address code).sight env.store) := by
  have hends : (v₂.setCode env.store address code).sight env.store
      = { v₂.sight env.store with
          account := ((v₂.setCode env.store address code).sight env.store).account
          code := ((v₂.setCode env.store address code).sight env.store).code } := by
    rw [View.sight_setCode]
    rfl
  have hf : (v.sight env.store).Founds (v₁.sight env.store) :=
    .of_same endow.sight_setNonce ((View.setNonce_respects free).trans endow.respects)
  have hbegins : Sight.MarkedBy (fun _ => False) (v.sight env.store) (v₁.sight env.store) := by
    rw [endow.sight_setNonce]
    exact .of_eq rfl rfl
  refine (hbegins.mono fun _ => False.elim).trans (.trans (marks.mono fun x hx => ?_) ?_)
  · obtain rfl | hx := hx
    · exact .inr ⟨free, Deeds.taken endow body code⟩
    · refine (Sight.Active.earlier hf body.respects hx).imp_right fun ⟨hfree, htaken⟩ => ⟨hfree, ?_⟩
      exact (View.nonce_setCode _ _ _ _ _).trans_ne htaken
  · rw [hends]
    exact .of_eq rfl rfl

/-- **Deeds mark what is theirs**: the slots that change and the logs that are left carry
the address of the account in whose name they are done, or of one whose code has run. -/
theorem Deeds.marked (h : Deeds env self v w) :
    Sight.MarkedBy (fun x => x = self ∨ (v.sight env.store).Active (w.sight env.store) x)
      (v.sight env.store) (w.sight env.store) := by
  induction h with
  | nothing h =>
    rw [h.sight]
    exact .of_eq rfl rfl
  | @trans self u v w h h' ih ih' =>
    refine (ih.mono fun x => ?_).trans (ih'.mono fun x => ?_)
    · exact Or.imp_right fun hx => hx.later h'.respects
    · exact Or.imp_right (.earlier h.founds h'.respects)
  | write self v key value =>
    rw [View.sight_setSlot]
    refine ⟨fun x hx => ?_, [], by simp, by simp⟩
    by_cases hk : x = ⟨self, key⟩
    · exact .inl (congrArg Slot.address hk)
    · exact absurd (Function.update_of_ne hk _ _) hx
  | leave self v topics data =>
    rw [View.sight_addLog]
    exact ⟨fun x hx => absurd rfl hx, [⟨self, topics, data⟩], rfl, by simp⟩
  | give h =>
    rw [h.sight]
    exact .of_eq rfl rfl
  | bump h =>
    rw [View.sight_bumpNonce h]
    exact .of_eq rfl rfl
  | call code body ih => exact (ih.of_code code).mono fun x => .inr
  | create _ free endow body _ ih =>
    exact (Deeds.marked_created free endow body ih).mono fun x => .inr

/-- A call that ends well marks what is theirs whose code has run. -/
theorem Call.Done.marked {c : Call} (h : c.Done env v w) :
    Sight.MarkedBy ((v.sight env.store).Active (w.sight env.store)) (v.sight env.store)
      (w.sight env.store) := by
  obtain ⟨v₁, gives, ⟨-, rfl⟩ | ⟨code, body⟩⟩ := h
  · rw [gives.sight]
    exact .of_eq rfl rfl
  · exact (body.marked.of_code code).after gives.sight gives.respects body.respects

theorem Creation.Done.marked {c : Creation} (h : c.Done env address code v w) :
    Sight.MarkedBy ((v.sight env.store).Active (w.sight env.store)) (v.sight env.store)
      (w.sight env.store) := by
  obtain ⟨free, -, v₁, v₂, endow, body, rfl⟩ := h
  exact Deeds.marked_created free endow body body.marked

/-- A message marks nothing but in the name of accounts whose code has run. -/
theorem Message.Done.marked {m : Message} {contract : Option Address}
    (h : m.Done env v contract w) :
    Sight.MarkedBy ((v.sight env.store).Active (w.sight env.store)) (v.sight env.store)
      (w.sight env.store) := by
  cases h with
  | invoke done =>
    have hmarked := done.marked
    rw [View.sight_checkpoint] at hmarked
    exact hmarked
  | create named bump done =>
    have hmarked := done.marked
    have hrespects := (named ▸ done).deeds.respects
    rw [View.sight_checkpoint] at hmarked hrespects
    exact hmarked.after (View.sight_bumpNonce bump) (View.bumpNonce_respects bump) hrespects

end

/-! ### Transitions -/

namespace Processor

variable {p : Processor} {m : Message} {a a' : Ambient} {t : Transition}

/-- The view that a transition starts on shows the store. -/
theorem sight_startView (a : Ambient) : (startView a).sight a.store = a.store.sight [] := by
  refine Sight.ext (funext fun x => ?_) (funext fun x => ?_) (funext fun x => ?_) rfl
  · rw [View.sight_account, View.account_eq, startView, View.backing_resync]
    rfl
  · rw [View.sight_code, View.codeAt_eq]
    rfl
  · rw [View.sight_slot, View.slot_eq]
    rfl

/-- A transition that takes effect marks what is theirs whose code has run, and gives other
code to contracts that are made. -/
theorem execute_marked (he : p.engine.RunsCode p.params) (h : p.execute m a = .ok (t, a'))
    (ht : t.isSuccess = true) :
    Sight.MarkedBy ((a.store.sight []).Active (a'.store.sight t.logs)) (a.store.sight [])
        (a'.store.sight t.logs) ∧ (a.store.sight []).Founds (a'.store.sight t.logs) := by
  obtain ⟨v, done, -, -, sight⟩ := execute_done he h ht
  rw [sight, ← sight_startView]
  exact ⟨done.marked, done.deeds.founds⟩

end Processor

theorem Sight.Active.read {s s' : Store} {l l' : List Log} {x : Address}
    (h : (s.sight l).Active (s'.sight l') x) :
    s.codeAt x ≠ [] ∨ (s.account x).nonce = 0 ∧ 1 ≤ (s'.account x).nonce :=
  h.imp_right fun ⟨free, taken⟩ => ⟨free.1, UInt64.pos_iff_ne_zero.2 taken⟩

/-- **Only code writes.** Whatever a transition runs, and whatever becomes of it: a slot
that has changed, and a log among its events, carry the address of an account that had code
before, or whose nonce was zero before and is not any more. Only at the latter has the code
changed. It holds of every engine that runs code. -/
theorem only_code_writes :
    (∀ params, (Engine.machine params).RunsCode params) ∧
    ∀ p : Processor, p.engine.RunsCode p.params → ∀ m a t a', p.execute m a = .ok (t, a') →
      (∀ x, a'.store.slot x ≠ a.store.slot x → a.store.codeAt x.address ≠ [] ∨
        (a.store.account x.address).nonce = 0 ∧ 1 ≤ (a'.store.account x.address).nonce) ∧
      (∀ tx l, Event.log tx l ∈ t.events → a.store.codeAt l.address ≠ [] ∨
        (a.store.account l.address).nonce = 0 ∧ 1 ≤ (a'.store.account l.address).nonce) ∧
      ∀ x, a'.store.codeAt x ≠ a.store.codeAt x →
        (a.store.account x).nonce = 0 ∧ 1 ≤ (a'.store.account x).nonce := by
  refine ⟨Engine.runsCode_machine, fun p he m a t a' h => ?_⟩
  by_cases ht : t.isSuccess = true
  · obtain ⟨marked, founds⟩ := Processor.execute_marked he h ht
    refine ⟨fun x hx => (marked.slot x hx).read, fun tx l hl => ?_, fun x hx => ?_⟩
    · obtain ⟨new, hnew, hall⟩ := marked.logs
      have hnew : t.logs = new := hnew
      have hlog : l ∈ t.logs := List.mem_filterMap.2 ⟨_, hl, rfl⟩
      exact (hall l (hnew ▸ hlog)).read
    · exact ⟨(founds.free hx).1, UInt64.pos_iff_ne_zero.2 (founds.recoded x hx)⟩
  · obtain ⟨rfl, hevents⟩ := Processor.execute_of_failure he.keepsWritable h (by simpa using ht)
    refine ⟨fun x hx => absurd rfl hx, fun tx l hl => ?_, fun x hx => absurd rfl hx⟩
    rw [hevents] at hl
    cases hl

/-! ### A contract that marks its creation -/

namespace Marking

/-- Writes 42 into slot 0 and leaves a log. -/
def mark : Bytes := [0x60, 42, 0x60, 0, 0x55, 0x60, 0, 0x60, 0, 0xa0]

/-- Does so, calls account 2, and returns the code [0]. -/
def initCode : Bytes :=
  mark ++ [0x60, 0, 0x60, 0, 0x60, 0, 0x60, 0, 0x60, 0, 0x60, 2, 0x61, 0x80, 0x00, 0xf1,
    0x60, 1, 0x60, 0, 0xf3]

/-- Account 2 has the code that marks. -/
def store : Store := (Store.ofAccounts [(⟨2⟩, ⟨1, 0, ⟨7⟩⟩)]).putCode ⟨2⟩ mark

theorem codeAt_store (x : Address) : store.codeAt x = if ⟨2⟩ = x then mark else [] :=
  Store.codeAt_putCode _ _ _ _

/-- Account 1 makes a contract. -/
def message : Message := .create ⟨1⟩ 0 initCode 200000

/-- A transaction around it, before its first charge. -/
def ambient : Ambient := ⟨.bounded 200000, .genesis, [], store⟩

/-- The contract. -/
def made : Address := .ofCreation ⟨1⟩ 0

end Marking

open Marking in
/-- Logs are left in the name of both the contract, which is taken only now, and account 2,
which had code and whose slot 0 is written. -/
theorem only_code_writes_marking :
    ∃ t a', (Processor.ofParams .standard).execute message ambient = .ok (t, a') ∧
      t.logs.map (·.address) = [made, ⟨2⟩] ∧
      a'.store.slot ⟨⟨2⟩, .zero⟩ ≠ ambient.store.slot ⟨⟨2⟩, .zero⟩ ∧
      ambient.store.codeAt ⟨2⟩ ≠ [] ∧
      a'.store.codeAt made ≠ ambient.store.codeAt made ∧
      (ambient.store.account made).nonce = 0 ∧ 1 ≤ (a'.store.account made).nonce := by
  -- the run works out the address for itself, so the one it is compared with is spelled out first
  have hmade : made = ⟨0x609a181ea27783ab295141c92610456e0289a7e3⟩ := by decide +kernel
  have hran : ((Processor.ofParams .standard).execute message ambient).toOption.bind (fun e =>
      some (e.1.logs.map (·.address), e.2.store.slot ⟨⟨2⟩, .zero⟩, e.2.store.codeAt made))
      = some ([made, ⟨2⟩], Bytes.bigEndian 32 42, [0]) := by
    rw [hmade]
    decide +kernel
  obtain ⟨⟨t, a'⟩, ht, hread⟩ := exists_of_read hran
  simp only [Option.some.injEq, Prod.mk.injEq] at hread
  obtain ⟨hlogs, hslot, hcode⟩ := hread
  have hempty : ambient.store.slot ⟨⟨2⟩, .zero⟩ = [] ∧ (ambient.store.account ⟨2⟩).nonce = 1 := by
    decide +kernel
  have hwritten : a'.store.slot ⟨⟨2⟩, .zero⟩ ≠ ambient.store.slot ⟨⟨2⟩, .zero⟩ := by
    rw [hslot, hempty.1]
    decide
  have hgiven : a'.store.codeAt made ≠ ambient.store.codeAt made := by
    rw [hcode, show ambient.store = store from rfl, codeAt_store]
    split_ifs <;> decide
  obtain ⟨hslots, -, hcodes⟩ := only_code_writes.2 (.ofParams .standard)
    (Engine.runsCode_machine .standard) message ambient t a' ht
  refine ⟨t, a', ht, hlogs, hwritten, ?_, hgiven, hcodes made hgiven⟩
  refine (hslots _ hwritten).resolve_right fun ⟨hzero, _⟩ => ?_
  rw [hempty.2] at hzero
  exact absurd hzero (by decide)

end MeteredLedger
