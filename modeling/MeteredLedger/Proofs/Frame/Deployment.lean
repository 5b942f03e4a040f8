import MeteredLedger.Proofs.Frame.Faults
import MeteredLedger.Proofs.Frame.Occupation

/-!
# What a creation leaves behind

Between the moment that a creation finds its address free and the moment that the contract is given
its code, the code that it is created with may do anything: call accounts, make other contracts,
even call back. Nothing of it undoes what has been taken: nonces do not go back
(`Creation.Done.respects`), and gas that is spent stays spent, since no frame below hands back more
than it was given (`Exec.run_spends`). So a creation that ends well leaves a contract at the address
that its creator and the nonce before name, free until then, with the output as its code
(`contract_stands`).
-/

namespace MeteredLedger

/-! ### Gas that is spent -/

/-- **Gas that was spent stays spent**, and the limit is the same. -/
structure Machine.Spends (m m' : Machine) : Prop where
  limit : m'.gas.limit = m.gas.limit
  spent : m.gas.consumed.toNat ≤ m'.gas.consumed.toNat

namespace Machine.Spends

theorem steady (env : Setting) : Steady env Machine.Spends where
  refl _ := ⟨rfl, Nat.le_refl _⟩
  trans _ _ _ h h' := ⟨h'.limit.trans h.limit, h.spent.trans h'.spent⟩
  frame _ _ := ⟨rfl, Nat.le_refl _⟩
  pay h := by
    obtain ⟨hlimit, hconsumed, -⟩ := Meter.consume_eq_ok h
    exact ⟨hlimit, (Nat.le_add_right _ _).trans hconsumed.ge⟩
  view _ := ⟨rfl, Nat.le_refl _⟩

/-- What is set aside for a frame below covers what it gives back. -/
theorem descended {m : Machine} {given left : Gas} {label label' : String} {gas : Meter} {w : World}
    (paid : m.gas.consume given label = .ok gas) (hle : left ≤ given) :
    m.Spends { m with world := w, gas := gas.refund left label' } := by
  obtain ⟨hlimit, hconsumed, -⟩ := Meter.consume_eq_ok paid
  refine ⟨hlimit, ?_⟩
  have hback : (gas.refund left label').consumed.toNat = gas.consumed.toNat - left.toNat :=
    Meter.toNat_consumed_refund
  have := UInt64.le_iff_toNat_le.1 hle
  show m.gas.consumed.toNat ≤ (gas.refund left label').consumed.toNat
  omega

end Machine.Spends

namespace Exec

variable {env : Setting} {body : Exec Exit}

theorem sameLimit_of_spends (hb : Keeps Stop.OfCode Machine.Spends body) :
    Keeps Stop.OfCode Machine.SameLimit body := hb.mono (fun _ h => h) fun _ _ h => h.limit

/-- **A run does not take back what it has spent.** -/
theorem run_spends (env : Setting) (steps : Nat) :
    Keeps Stop.OfCode Machine.Spends (run env steps) := by
  refine run_keeps (Machine.Spends.steady env).lasting ?_ ?_ steps
  · intro body hb m c gas r w _ _ hpaid h
    exact .descended hpaid (callWith_left_le (sameLimit_of_spends hb) h)
  · intro body hb m c gas r w _ _ hpaid h
    exact .descended hpaid (createWith_left_le (sameLimit_of_spends hb) h)

/-- What is charged is spent, within the limit. -/
theorem charge_spends (amount : Gas) (label : String) (m : Machine) :
    Meets (charge amount label) m
      (fun _ m' => m'.gas.limit = m.gas.limit ∧
        m'.gas.consumed.toNat = m.gas.consumed.toNat + amount.toNat ∧
        ∀ limit, m'.gas.limit = .bounded limit → m'.gas.consumed ≤ limit)
      fun _ _ => True := by
  unfold Meets charge
  cases h : m.gas.consume amount label with
  | error stop => trivial
  | ok gas =>
    obtain ⟨hlimit, hconsumed, hwithin⟩ := Meter.consume_eq_ok h
    refine ⟨hlimit, hconsumed, fun limit hl => ?_⟩
    rw [UInt64.le_iff_toNat_le, hconsumed]
    exact hwithin limit (hlimit.symm.trans hl)

/-- What a contract's code costs, when it is given to it. -/
def deposit (env : Setting) (code : Bytes) : Gas :=
  mulGasCapped (gasOfNat code.length) env.params.effects.createData

theorem deploy_spends (env : Setting) (address : Address) (code : Bytes) (m : Machine) :
    Meets (deploy env address code) m
      (fun _ m' => m'.gas.limit = m.gas.limit ∧
        m'.gas.consumed.toNat = m.gas.consumed.toNat + (deposit env code).toNat ∧
        ∀ limit, m'.gas.limit = .bounded limit → m'.gas.consumed ≤ limit)
      fun _ _ => True := by
  unfold deploy
  dsimp only
  split_ifs
  · exact Meets.bind (Meets.throw trivial)
  · exact Meets.bind ((charge_spends _ _ m).mono (fun _ _ h => h) fun _ _ h => h)

/-- The frame of a creation is paid for before it is made ready. -/
theorem openCreation_spends (address : Address) (c : Creation) (m : Machine) :
    Meets (openCreation env address c) m
      (fun _ m' => m'.gas.limit = m.gas.limit ∧
        m.gas.consumed.toNat + env.params.effects.create.toNat ≤ m'.gas.consumed.toNat)
      fun _ _ => True := by
  have hR := Machine.Spends.steady env
  refine Meets.bind ((charge_spends _ _ m).mono ?_ fun _ _ h => h)
  rintro _ m₁ ⟨hlimit, hspent, -⟩
  have hrest : Keeps Stop.OfFrame Machine.Spends (do
      claim env address
      endow env address c
      modifyFrame (·.load c.initCode)) :=
    Keeps.bind hR.trans (claim_keeps hR address) fun _ =>
      Keeps.bind hR.trans (endow_keeps hR address c) fun _ => modifyFrame_keeps hR _
  refine (hrest m₁).mono ?_ fun _ _ _ => trivial
  intro _ m₂ h
  exact ⟨h.limit.trans hlimit, hspent.ge.trans h.spent⟩

/-- The frame of a creation pays for itself first, and for the code of the contract last. -/
theorem enterCreation_spends (hb : Keeps Stop.OfCode Machine.Spends body) (address : Address)
    (c : Creation) (m : Machine) :
    Meets (enterCreation env body address c) m
      (fun exit m' => ∀ code, exit = .returned code → m'.gas.limit = m.gas.limit ∧
        m.gas.consumed.toNat + env.params.effects.create.toNat + (deposit env code).toNat
          ≤ m'.gas.consumed.toNat ∧
        ∀ limit, m'.gas.limit = .bounded limit → m'.gas.consumed ≤ limit)
      fun _ _ => True := by
  rw [enterCreation_eq_open]
  refine Meets.bind ((openCreation_spends address c m).mono ?_ fun _ _ h => h)
  rintro _ m₁ ⟨hlimit₁, hspent₁⟩
  refine Meets.bind ((hb m₁).mono ?_ fun _ _ _ => trivial)
  intro exit m₂ h₂
  cases exit with
  | reverted output => exact Meets.pure nofun
  | returned code =>
    refine Meets.bind ((deploy_spends env address code m₂).mono ?_ fun _ _ h => h)
    rintro _ m₃ ⟨hlimit₃, hspent₃, hwithin⟩
    refine Meets.pure ?_
    rintro _ ⟨⟩
    have hspent₂ := h₂.spent
    exact ⟨hlimit₃.trans (h₂.limit.trans hlimit₁), by omega, hwithin⟩

end Exec

/-! ### Whole creations -/

section

variable {env : Setting} {body : Exec Exit} {c : Creation} {w w' : World} {r : FrameResult}

/-- **What a creation costs that ends well**: at least its frame and the code of the contract. -/
theorem createWith_spends (hb : Exec.Keeps Stop.OfCode Machine.Spends body)
    (h : createWith env body c w = .ok (r, w')) (hr : r.error = none) :
    env.params.effects.create.toNat + (Exec.deposit env r.output).toNat + r.gasRemaining.toNat
      ≤ c.gas.toNat := by
  obtain ⟨e, -, rfl, -⟩ | ⟨-, view, r', -, hs, rfl⟩ := createWith_cases h
  · cases hr
  · have hspends := @Exec.enterCreation_spends env body hb (c.address env w) c
      (c.machine env w view)
    generalize hresult : Exec.enterCreation env body (c.address env w) c (c.machine env w view)
      = result at hs
    cases hs with
    | returned output m =>
      obtain ⟨hlimit, hspent, hwithin⟩ := hspends.of_ok hresult output rfl
      have hbounded : m.gas.limit = .bounded c.gas := hlimit
      have hle := UInt64.le_iff_toNat_le.1 (hwithin c.gas hbounded)
      have hleft := Meter.toNat_remaining hbounded
      have hstart : (c.machine env w view).gas.consumed.toNat = 0 := rfl
      show _ + (Exec.deposit env output).toNat + m.gas.remaining.toNat ≤ _
      omega
    | reverted => cases hr
    | burnt => cases hr
    | kept => cases hr

theorem Creation.Done.respects {address : Address} {code : Bytes} {v v' : View}
    (h : c.Done env address code v v') : (v.sight env.store).Respects (v'.sight env.store) := by
  obtain ⟨free, -, v₁, v₂, endow, body, rfl⟩ := h
  rw [View.sight_setCode]
  exact (((View.setNonce_respects free).trans endow.respects).trans body.respects).deployed free _ _

/-- The code of an address that was given it. -/
theorem Creation.Done.codeAt {address : Address} {code : Bytes} {v v' : View}
    (h : c.Done env address code v v') : v'.codeAt env.store address = code := by
  obtain ⟨-, -, v₁, v₂, -, -, rfl⟩ := h
  rw [View.codeAt_eq_given, View.given?_setCode, if_pos rfl]
  rfl

/-- **What is known of a contract that has been made.** -/
structure Creation.Stands (env : Setting) (c : Creation) (w : World) (r : FrameResult)
    (w' : World) :
    Prop where
  /-- Its address is named by its creator and the nonce before; -/
  named : r.address = some (.ofCreation c.creator (w.view.account env.store c.creator).nonce)
  /-- nobody had taken the address: it had no nonce -/
  nonce_before : (w.view.account env.store (c.address env w)).nonce = 0
  /-- and no code hash. -/
  codeHash_before : (w.view.account env.store (c.address env w)).codeHash = .zero
  /-- The output is its code, -/
  code : w'.view.codeAt env.store (c.address env w) = r.output
  /-- which is not too long, -/
  size : r.output.length ≤ env.params.maxCodeSize.toNat
  /-- it has a nonce, -/
  nonce : 1 ≤ (w'.view.account env.store (c.address env w)).nonce
  /-- and its creator has gone to the next one. -/
  creator : (w.view.account env.store c.creator).nonce.toNat + 1
    ≤ (w'.view.account env.store c.creator).nonce.toNat
  /-- Its frame and its code have been paid for. -/
  paid : env.params.effects.create.toNat +
    min (env.params.effects.createData.toNat * r.output.length) maxGas.toNat
      ≤ c.gas.toNat - r.gasRemaining.toNat

theorem createWith_stands (hacts : Exec.Acts env body)
    (hspends : Exec.Keeps Stop.OfCode Machine.Spends body)
    (h : createWith env body c w = .ok (r, w')) (hr : r.error = none) : c.Stands env w r w' := by
  obtain ⟨haddress, v₁, v₂, hbump, hdone, halike⟩ := (createWith_done hacts h).2 hr
  have hshown : ∀ a, w'.view.account env.store a = v₂.account env.store a := fun a =>
    congrFun (congrArg Sight.account halike.sight) a
  have hcode : w'.view.codeAt env.store (c.address env w) = v₂.codeAt env.store (c.address env w) :=
    congrFun (congrArg Sight.code halike.sight) _
  have hsize := hdone.2.1
  obtain ⟨hfree₁, htaken⟩ := hdone.taken
  have hrespects := hdone.respects
  rw [(View.checkpoint_alike env.store v₁).sight] at hfree₁ hrespects
  -- the address was free before its creator went to the next nonce, too
  obtain ⟨hnonce, hhash⟩ := (View.bumpNonce_respects hbump).free hfree₁
  obtain ⟨-, hlt, hsight⟩ := (View.bumpNonce_meets env.store c.creator w.view).of_ok hbump
  have hcreator : (v₁.account env.store c.creator).nonce.toNat
      = (w.view.account env.store c.creator).nonce.toNat + 1 := by
    rw [← View.sight_account, hsight, Sight.putAccount_account, Function.update_self]
    show ((w.view.account env.store c.creator).nonce + 1).toNat = _
    rw [UInt64.toNat_add, Nat.mod_eq_of_lt (by exact hlt)]
    rfl
  have hlater := UInt64.le_iff_toNat_le.1 (hrespects.nonce c.creator)
  have hpaid := createWith_spends hspends h hr
  have hmax : env.params.maxCodeSize.toNat ≤ maxGas.toNat := toNat_le_maxGas _
  rw [Exec.deposit, toNat_mulGasCapped, toNat_gasOfNat, Nat.min_eq_left (hsize.trans hmax),
    Nat.mul_comm] at hpaid
  refine ⟨haddress, hnonce, ?_, hcode.trans hdone.codeAt, hsize, ?_, ?_, by omega⟩
  · simpa [Account.isContract, Hash.isZero] using hhash
  · rw [hshown, UInt64.le_iff_toNat_le]
    have hne : (v₂.account env.store (c.address env w)).nonce.toNat ≠ 0 := fun hz =>
      htaken (UInt64.toNat_inj.1 hz)
    exact Nat.one_le_iff_ne_zero.2 hne
  · rw [hshown, ← hcreator]
    exact hlater

end

/-- **A creation that ends well leaves a contract behind**, whatever its code does and however deep
it nests: at the address named by its creator and the creator's nonce before, where there was
neither a nonce nor a code hash, stands the output as the code, no longer than allowed, under a
nonce; the creator has gone to a later nonce; and at least the creation and its code are paid
for. -/
theorem contract_stands (steps : Nat) (env : Setting) (c : Creation) (w w' : World)
    (r : FrameResult)
    (h : createIn steps env c w = .ok (r, w')) (hr : r.error = none) : c.Stands env w r w' :=
  createWith_stands (Exec.run_acts env steps) (Exec.run_spends env steps) h hr

/-! ### A contract whose code makes another one -/

namespace NestedCreation

/-- Creates a contract without code, and returns one byte. -/
def initCode : Bytes := [0x60, 0, 0x60, 0, 0x60, 0, 0xf0, 0x60, 1, 0x60, 0, 0xf3]

/-- Account 1 has value to give. -/
def setting : Setting where
  params := .standard
  context := ⟨⟨1⟩, .zero, 0, 0, 100000, .zero, View.canTransfer⟩
  store := .ofAccounts [(⟨1⟩, ⟨4, 1000, .zero⟩)]

/-- A creation by account 1, by a frame at depth 3. -/
def request : Creation := ⟨⟨1⟩, initCode, 100000, 10, 4⟩

/-- One scope is open already, as in a frame below another. -/
def world : World := ⟨View.fresh.checkpoint.2, .untracked⟩

end NestedCreation

open NestedCreation in
/-- The contract is made at an address of its own, has the byte that the code left, and is paid for
beyond the base cost. -/
theorem contract_stands_nested : ∃ r w', createIn 12 setting request world = .ok (r, w') ∧
    r.error = none ∧ r.output = [0] ∧ r.address = some (.ofCreation ⟨1⟩ 4) ∧
    w'.view.codeAt setting.store (request.address setting world) = [0] ∧
    32000 + 200 ≤ 100000 - r.gasRemaining.toNat := by
  -- two addresses are worked out along the way: the outer one is spelled out before the run
  have haddress : request.address setting world = ⟨0xdf11532750b8d46028a4bfb85ed6a103d75a0fb6⟩ := by
    decide +kernel
  have hmade : (createIn 12 setting request world).toOption.bind
      (fun e => some (e.1.error, e.1.output)) = some (none, [0]) := by
    rw [createIn, createWith_of_bumped rfl rfl, Creation.machine, haddress]
    decide +kernel
  obtain ⟨⟨r, w'⟩, hr, hread⟩ := exists_of_read hmade
  rw [Option.some.injEq, Prod.mk.injEq] at hread
  obtain ⟨herror, houtput⟩ := hread
  have hstands := contract_stands 12 setting request world w' r hr herror
  have hnonce : (world.view.account setting.store request.creator).nonce = 4 := by decide +kernel
  have hnamed := hstands.named
  have hpaid := hstands.paid
  rw [hnonce] at hnamed
  rw [houtput] at hpaid
  exact ⟨r, w', hr, herror, houtput, hnamed, hstands.code.trans houtput, hpaid⟩

end MeteredLedger
