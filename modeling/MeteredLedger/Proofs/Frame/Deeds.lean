import MeteredLedger.Proofs.Frame.Atomicity

/-!
# What frames do to a view

A frame acts in the name of one account. It writes the account's slots, leaves logs in
its name, gives its value away and takes its next nonce; it calls accounts, whose code
then acts in their own name; and it makes contracts at addresses that nobody has taken.
`Deeds` says so as a relation between views, in which nothing is left of gas, stacks and
memory, nor of frames that have failed: they leave the view as it was.

Every run is such a sequence of deeds (`Exec.run_acts`), and so is every frame
(`callWith_deeds`, `createWith_deeds`); of one that ends well it is also known how it went
(`Call.Done`, `Creation.Done`). What holds of the deeds, one kind after the other, holds
of all code.
-/

namespace MeteredLedger

/-- Nobody has taken the address. -/
def Sight.IsFree (σ : Sight) (a : Address) : Prop :=
  (σ.account a).nonce = 0 ∧ (σ.account a).isContract = false

namespace View

/-- An amount is given by one account to another; nothing is moved for an amount of zero. -/
def Gives (s : Store) (source target : Address) (amount : Wei) (v w : View) : Prop :=
  if 0 < amount then transfer s source target amount v = .ok () w else w = v

variable {s : Store} {v w : View}

/-- Only accounts change when value is given. -/
theorem Gives.sight {source target : Address} {amount : Wei}
    (h : Gives s source target amount v w) :
    w.sight s = { v.sight s with account := w.account s } := by
  unfold Gives at h
  split_ifs at h
  · obtain ⟨-, x, y, -, -, hs⟩ := (transfer_meets s source target amount v).of_ok h
    rw [← sight_account, hs]
    rfl
  · rw [h]
    rfl

/-- Only accounts change when a free address is taken and endowed. -/
theorem Gives.sight_setNonce {source target : Address} {amount : Wei} {a : Address} {nonce : Nonce}
    (h : Gives s source target amount (v.setNonce s a nonce) w) :
    w.sight s = { v.sight s with account := w.account s } := by
  rw [h.sight, View.sight_setNonce]
  rfl

/-- Only an account changes that takes its next nonce. -/
theorem sight_bumpNonce {a : Address} (h : bumpNonce s a v = .ok () w) :
    w.sight s = { v.sight s with account := w.account s } := by
  rw [← sight_account, ((bumpNonce_meets s a v).of_ok h).2.2]
  rfl

end View

/-- **What is done to a view in the name of an account.** -/
inductive Deeds (env : Setting) : Address → View → View → Prop where
  /-- Nothing, or what has been taken back. -/
  | nothing {self : Address} {v w : View} (h : View.Alike env.store v w) : Deeds env self v w
  /-- One thing after another. -/
  | trans {self : Address} {u v w : View} (h : Deeds env self u v) (h' : Deeds env self v w) :
      Deeds env self u w
  /-- A slot of the account is written. -/
  | write (self : Address) (v : View) (key : Hash) (value : Bytes) :
      Deeds env self v (v.setSlot ⟨self, key⟩ value)
  /-- A log is left in the account's name. -/
  | leave (self : Address) (v : View) (topics : List Hash) (data : Bytes) :
      Deeds env self v (v.addLog ⟨self, topics, data⟩)
  /-- Value is given away. -/
  | give {self target : Address} {amount : Wei} {v w : View}
      (h : View.Gives env.store self target amount v w) : Deeds env self v w
  /-- The account takes its next nonce. -/
  | bump {self : Address} {v w : View} (h : View.bumpNonce env.store self v = .ok () w) :
      Deeds env self v w
  /-- An account that has code is called. -/
  | call {self target : Address} {v w : View} (code : v.codeAt env.store target ≠ [])
      (body : Deeds env target v w) : Deeds env self v w
  /-- A contract is made: it takes a free address, is endowed, runs the code that it is
  created with, and is given the code that this returns. -/
  | create {self address : Address} {nonce : Nonce} {amount : Wei} {code : Bytes}
      {v v₁ v₂ : View} (named : address = .ofCreation self nonce)
      (free : (v.sight env.store).IsFree address)
      (endow : View.Gives env.store self address amount (v.setNonce env.store address 1) v₁)
      (body : Deeds env address v₁ v₂) (size : code.length ≤ env.params.maxCodeSize.toNat) :
      Deeds env self v (v₂.setCode env.store address code)

theorem Deeds.refl (env : Setting) (self : Address) (v : View) : Deeds env self v v :=
  .nothing (.refl v)

/-- What a call does that ends well: it brings its value, and then the code of the account
runs, if it has any. -/
def Call.Done (env : Setting) (c : Call) (v w : View) : Prop :=
  ∃ v₁, View.Gives env.store c.caller c.address c.value v v₁ ∧
    (v₁.codeAt env.store c.address = [] ∧ w = v₁ ∨
      v₁.codeAt env.store c.address ≠ [] ∧ Deeds env c.address v₁ w)

/-- What a creation does that ends well, once its creator is at the next nonce. -/
def Creation.Done (env : Setting) (c : Creation) (address : Address) (code : Bytes)
    (v w : View) : Prop :=
  (v.sight env.store).IsFree address ∧ code.length ≤ env.params.maxCodeSize.toNat ∧ ∃ v₁ v₂,
    View.Gives env.store c.creator address c.value (v.setNonce env.store address 1) v₁ ∧
      Deeds env address v₁ v₂ ∧ w = v₂.setCode env.store address code

theorem Call.Done.deeds {env : Setting} {c : Call} {v w : View} (h : c.Done env v w) :
    Deeds env c.caller v w := by
  obtain ⟨v₁, hgive, ⟨-, rfl⟩ | ⟨hcode, hbody⟩⟩ := h
  · exact .give hgive
  · exact .trans (.give hgive) (.call hcode hbody)

theorem Creation.Done.deeds {env : Setting} {c : Creation} {nonce : Nonce} {code : Bytes}
    {v w : View} (h : c.Done env (.ofCreation c.creator nonce) code v w) :
    Deeds env c.creator v w := by
  obtain ⟨hfree, hsize, v₁, v₂, hgive, hbody, rfl⟩ := h
  exact .create rfl hfree hgive hbody hsize

/-! ### Machines that act -/

/-- The view comes of the other within a scope, by deeds of the account that the frame
runs for. -/
structure Machine.Acts (env : Setting) (m m' : Machine) : Prop where
  address : m'.frame.address = m.frame.address
  inside : View.Inside env.store m.world.view m'.world.view
  deeds : Deeds env m.frame.address m.world.view m'.world.view

namespace Machine.Acts

variable {env : Setting}

theorem refl (m : Machine) : m.Acts env m := ⟨rfl, .refl _, .refl env _ _⟩

theorem trans {m₁ m₂ m₃ : Machine} (h : m₁.Acts env m₂) (h' : m₂.Acts env m₃) :
    m₁.Acts env m₃ := by
  refine ⟨h'.address.trans h.address, h.inside.trans h'.inside, h.deeds.trans ?_⟩
  rw [← h.address]
  exact h'.deeds

theorem move {m m' : Machine} (h : Move m m') : m.Acts env m' := by
  have haddress : m'.frame.address = m.frame.address := by
    show m'.frame.fixed.address = m.frame.fixed.address
    rw [h.fixed]
  cases h with
  | goOn f h => exact ⟨haddress, .refl _, .refl env _ _⟩
  | pay h => exact ⟨haddress, .refl _, .refl env _ _⟩
  | write key value => exact ⟨haddress, View.setSlot_inside _ _ _ _, .write _ _ key value⟩
  | leave topics data => exact ⟨haddress, View.addLog_inside _ _ _, .leave _ _ topics data⟩

theorem lasting (env : Setting) : Lasting (Machine.Acts env) :=
  ⟨refl, fun _ _ _ => trans, fun _ _ => move⟩

end Machine.Acts

namespace Exec

variable {env : Setting} {body : Exec Exit}

/-- **The code acts in the name of the account that it runs for**, and in no other. -/
abbrev Acts (env : Setting) (body : Exec Exit) : Prop :=
  body.Keeps Stop.OfCode (Machine.Acts env)

theorem Acts.staysInside (h : Acts env body) : StaysInside env body :=
  h.mono (fun _ h => h) fun _ _ h => h.inside

/-! ### Entering a frame

What each part does to the view, if it comes to an end. -/

theorem charge_view (amount : Gas) (label : String) (m : Machine) :
    Meets (charge amount label) m
      (fun _ m' => m'.world.view = m.world.view ∧ m'.frame = m.frame) fun _ _ => True := by
  unfold Meets charge
  cases m.gas.consume amount label with
  | ok gas => exact ⟨rfl, rfl⟩
  | error stop => trivial

theorem onView_meets {α : Type} (act : ViewM α) (m : Machine) :
    Meets (onView act) m
      (fun a m' => act m.world.view = .ok a m'.world.view ∧ m'.frame = m.frame)
      fun _ _ => True := by
  unfold Meets onView
  cases act m.world.view with
  | ok a view => exact ⟨rfl, rfl⟩
  | error stop view => trivial

theorem bring_gives (c : Call) (m : Machine) :
    Meets (bring env c) m
      (fun _ m' => View.Gives env.store c.caller c.address c.value m.world.view m'.world.view ∧
        m'.frame = m.frame) fun _ _ => True := by
  unfold bring View.Gives
  split_ifs
  · refine Meets.bind ((charge_view _ _ m).mono ?_ fun _ _ h => h)
    rintro _ m₁ ⟨hv, hf⟩
    rw [← hv, ← hf]
    exact onView_meets _ m₁
  · exact Meets.pure ⟨rfl, rfl⟩

theorem endow_gives (address : Address) (c : Creation) (m : Machine) :
    Meets (endow env address c) m
      (fun _ m' => View.Gives env.store c.creator address c.value m.world.view m'.world.view ∧
        m'.frame = m.frame) fun _ _ => True := by
  unfold endow View.Gives
  split_ifs
  · exact onView_meets _ m
  · exact Meets.pure ⟨rfl, rfl⟩

theorem runCode_acts (hb : Acts env body) {c : Call} {m : Machine}
    (ha : m.frame.address = c.address) :
    Meets (runCode env body c) m
      (fun _ m' => m.world.view.codeAt env.store c.address = [] ∧ m'.world.view = m.world.view ∨
        m.world.view.codeAt env.store c.address ≠ [] ∧
          Deeds env c.address m.world.view m'.world.view) fun _ _ => True := by
  refine meets_inspect ?_
  by_cases hcode : m.world.view.codeAt env.store c.address = []
  · rw [hcode]
    exact Meets.pure (.inl ⟨rfl, rfl⟩)
  · simp only [List.isEmpty_iff, hcode, if_false]
    refine (hb { m with frame := m.frame.load _ }).mono ?_ fun _ _ _ => trivial
    rintro _ m' hacts
    rw [← ha]
    exact .inr ⟨ha ▸ hcode, hacts.deeds⟩

/-- What a call does whose frame is entered. -/
theorem enterCall_done (hb : Acts env body) {c : Call} {m : Machine}
    (ha : m.frame.address = c.address) :
    Meets (enterCall env body c) m (fun _ m' => c.Done env m.world.view m'.world.view)
      fun _ _ => True := by
  rw [enterCall_eq]
  refine Meets.bind ((charge_view _ _ m).mono ?_ fun _ _ h => h)
  rintro _ m₁ ⟨hv₁, hf₁⟩
  refine Meets.bind ((bring_gives c m₁).mono ?_ fun _ _ h => h)
  rintro _ m₂ ⟨hgive, hf₂⟩
  refine (runCode_acts hb (by rw [hf₂, hf₁, ha])).mono ?_ fun _ _ h => h
  intro _ m₃ hrun
  rw [hv₁] at hgive
  exact ⟨m₂.world.view, hgive, hrun⟩

theorem claim_free (address : Address) (m : Machine) :
    Meets (claim env address) m
      (fun _ m' => (m.world.view.sight env.store).IsFree address ∧
        m'.world.view = m.world.view.setNonce env.store address 1 ∧ m'.frame = m.frame)
      fun _ _ => True := by
  refine meets_inspect ?_
  split_ifs with h
  · exact Meets.throw trivial
  · rw [not_or, not_not, Bool.not_eq_true] at h
    exact ⟨h, rfl, rfl⟩

theorem deploy_view (address : Address) (code : Bytes) (m : Machine) :
    Meets (deploy env address code) m
      (fun _ m' => code.length ≤ env.params.maxCodeSize.toNat ∧
        m'.world.view = m.world.view.setCode env.store address code) fun _ _ => True := by
  unfold deploy
  dsimp only
  split_ifs with h
  · exact Meets.bind (Meets.throw trivial)
  · refine Meets.bind ((charge_view _ _ m).mono ?_ fun _ _ h => h)
    rintro _ m₁ ⟨hv, -⟩
    refine ⟨Nat.le_of_not_lt h, ?_⟩
    rw [← hv]

theorem construct_view (hb : Acts env body) (address : Address) (c : Creation) (m : Machine) :
    Meets (construct env body address c) m
      (fun exit m' => ∀ code, exit = .returned code →
        code.length ≤ env.params.maxCodeSize.toNat ∧ ∃ v,
          Deeds env m.frame.address m.world.view v ∧
            m'.world.view = v.setCode env.store address code) fun _ _ => True := by
  refine Meets.bind (Meets.bind ((hb { m with frame := m.frame.load _ }).mono ?_ ?_))
  · intro exit m₁ hacts
    cases exit with
    | reverted output => exact Meets.pure nofun
    | returned code =>
      refine Meets.bind ((deploy_view address code m₁).mono ?_ fun _ _ h => h)
      rintro _ m₂ ⟨hsize, hv⟩
      refine Meets.pure ?_
      rintro _ ⟨⟩
      exact ⟨hsize, _, hacts.deeds, hv⟩
  · exact fun _ _ _ => trivial

/-- What a creation does whose frame is entered, unless it takes everything back. -/
theorem enterCreation_done (hb : Acts env body) {c : Creation} {address : Address} {m : Machine}
    (ha : m.frame.address = address) :
    Meets (enterCreation env body address c) m
      (fun exit m' => ∀ code, exit = .returned code →
        c.Done env address code m.world.view m'.world.view) fun _ _ => True := by
  rw [enterCreation_eq]
  refine Meets.bind ((charge_view _ _ m).mono ?_ fun _ _ h => h)
  rintro _ m₁ ⟨hv₁, hf₁⟩
  refine Meets.bind ((claim_free address m₁).mono ?_ fun _ _ h => h)
  rintro _ m₂ ⟨hfree, hv₂, hf₂⟩
  refine Meets.bind ((endow_gives address c m₂).mono ?_ fun _ _ h => h)
  rintro _ m₃ ⟨hgive, hf₃⟩
  refine (construct_view hb address c m₃).mono ?_ fun _ _ h => h
  intro exit m₄ hdone code hexit
  obtain ⟨hsize, v, hbody, hv⟩ := hdone code hexit
  rw [hv₁] at hfree hv₂
  rw [hv₂] at hgive
  rw [hf₃, hf₂, hf₁, ha] at hbody
  exact ⟨hfree, hsize, m₃.world.view, v, hgive, hbody, hv⟩

end Exec

/-! ### Whole frames -/

/-- A frame that fails leaves a view like the one that it was entered with; one that ends
well leaves a view like the one that its code has come to. -/
theorem Settled.alike {s : Store} {v : View} {result : EStateM.Result Stop Machine Exit}
    {r : FrameResult} {w : World} (h : Settled v.checkpoint.1 result r w)
    (ok : ∀ exit m, result = .ok exit m → View.Inside s v.checkpoint.2 m.world.view)
    (error : ∀ e m, result = .error (.error e) m → View.Inside s v.checkpoint.2 m.world.view) :
    (r.error ≠ none → View.Alike s v w.view) ∧
    (r.error = none → ∃ m, result = .ok (.returned r.output) m ∧
      View.Alike s m.world.view w.view) := by
  cases h with
  | returned output m =>
    exact ⟨fun h => absurd rfl h, fun _ => ⟨m, rfl, View.commitTo_alike (ok _ m rfl)⟩⟩
  | reverted output m => exact ⟨fun _ => View.revertTo_alike (ok _ m rfl), nofun⟩
  | burnt he hg => exact ⟨fun _ => View.revertTo_alike (error _ _ rfl), nofun⟩
  | kept he => exact ⟨fun _ => View.revertTo_alike (error _ _ rfl), nofun⟩

section Frames

variable {env : Setting} {body : Exec Exit} {w w' : World} {r : FrameResult}

/-- What a call does to the view, whether it ends well or not. -/
theorem callWith_done (hb : Exec.Acts env body) {c : Call}
    (h : callWith env body c w = .ok (r, w')) :
    (r.error ≠ none → View.Alike env.store w.view w'.view) ∧
    (r.error = none → ∃ v, c.Done env w.view.checkpoint.2 v ∧
      View.Alike env.store v w'.view) := by
  obtain ⟨e, -, rfl, rfl⟩ | ⟨-, hs⟩ := callWith_cases h
  · exact ⟨fun _ => .refl _, nofun⟩
  · have hk := Exec.enterCall_keeps (Steady.inside env) hb.staysInside c (c.machine w)
    obtain ⟨hfail, hend⟩ := hs.alike (fun exit m hm => hk.of_ok hm)
      fun e m hm => (hk.of_error hm).2 e rfl
    refine ⟨hfail, fun hr => ?_⟩
    obtain ⟨m, hm, halike⟩ := hend hr
    have haddress : (c.machine w).frame.address = c.address := rfl
    exact ⟨m.world.view, (Exec.enterCall_done hb haddress).of_ok hm, halike⟩

/-- What a creation does to the view: beyond the nonce taken nothing, unless it ends well. -/
theorem createWith_done (hb : Exec.Acts env body) {c : Creation}
    (h : createWith env body c w = .ok (r, w')) :
    (r.error ≠ none → r.address = none ∧ (View.Alike env.store w.view w'.view ∨
      ∃ v, View.bumpNonce env.store c.creator w.view = .ok () v ∧
        View.Alike env.store v w'.view)) ∧
    (r.error = none → r.address = some (c.address env w) ∧
      ∃ v₁ v₂, View.bumpNonce env.store c.creator w.view = .ok () v₁ ∧
        c.Done env (c.address env w) r.output v₁.checkpoint.2 v₂ ∧
        View.Alike env.store v₂ w'.view) := by
  obtain ⟨e, -, rfl, rfl⟩ | ⟨-, view, r', hv, hs, rfl⟩ := createWith_cases h
  · exact ⟨fun _ => ⟨rfl, .inl (.refl _)⟩, nofun⟩
  · have hk := Exec.enterCreation_keeps (Steady.inside env) hb.staysInside (c.address env w) c
      (c.machine env w view)
    obtain ⟨hfail, hend⟩ := hs.alike (fun exit m hm => hk.of_ok hm)
      fun e m hm => (hk.of_error hm).2 e rfl
    refine ⟨fun hr => ⟨by simp [Option.isNone_iff_eq_none.not.2 hr], .inr ⟨view, hv, hfail hr⟩⟩,
      fun hr => ⟨by simp [Option.isNone_iff_eq_none.2 hr], ?_⟩⟩
    obtain ⟨m, hm, halike⟩ := hend hr
    have haddress : (c.machine env w view).frame.address = c.address env w := rfl
    exact ⟨view, m.world.view, hv, (Exec.enterCreation_done hb haddress).of_ok hm _ rfl, halike⟩

/-- A call is a deed of its caller. -/
theorem callWith_deeds (hb : Exec.Acts env body) {c : Call}
    (h : callWith env body c w = .ok (r, w')) : Deeds env c.caller w.view w'.view := by
  obtain ⟨hfail, hend⟩ := callWith_done hb h
  by_cases hr : r.error = none
  · obtain ⟨v, hdone, halike⟩ := hend hr
    exact .trans (.nothing (View.checkpoint_alike _ _)) (.trans hdone.deeds (.nothing halike))
  · exact .nothing (hfail hr)

/-- A creation is a deed of its creator. -/
theorem createWith_deeds (hb : Exec.Acts env body) {c : Creation}
    (h : createWith env body c w = .ok (r, w')) : Deeds env c.creator w.view w'.view := by
  obtain ⟨hfail, hend⟩ := createWith_done hb h
  by_cases hr : r.error = none
  · obtain ⟨-, v₁, v₂, hbump, hdone, halike⟩ := hend hr
    exact .trans (.bump hbump) (.trans (.nothing (View.checkpoint_alike _ _))
      (.trans hdone.deeds (.nothing halike)))
  · obtain ⟨-, halike | ⟨v, hbump, halike⟩⟩ := hfail hr
    · exact .nothing halike
    · exact .trans (.bump hbump) (.nothing halike)

end Frames

/-- **Code acts in the name of the account that it runs for**, however many steps it
takes. -/
theorem Exec.run_acts (env : Setting) (steps : Nat) : Exec.Acts env (Exec.run env steps) := by
  refine Exec.run_keeps (Machine.Acts.lasting env) ?_ ?_ steps
  · intro body hb m c gas r w hcaller _ _ h
    refine ⟨rfl, (callWith_atomic (Exec.Acts.staysInside hb) h).1, ?_⟩
    rw [← hcaller]
    exact callWith_deeds hb h
  · intro body hb m c gas r w hcreator _ _ h
    refine ⟨rfl, (createWith_atomic (Exec.Acts.staysInside hb) h).1, ?_⟩
    rw [← hcreator]
    exact createWith_deeds hb h

end MeteredLedger
