import MeteredLedger.Proofs.Machine.Runs

/-!
# Frames take effect as a whole or not at all

A frame opens a scope and closes it, so that it leaves the view with as many scopes
as it found (`run_inside`, `callWith_inside`, `createWith_inside`). If it fails, what
the view shows is what it showed before: whatever the frame and the frames below it
have done lies within the scope that is dropped. Only the nonce that an admitted
creation takes from its creator is taken outside of that scope, and stays taken.

`frame_atomic` says so of every frame, at any depth and on any view.
-/

namespace MeteredLedger

/-- What leaving a frame does to a view from which the frame has opened one scope. -/
theorem Settled.atomic {s : Store} {v : View} {result : EStateM.Result Stop Machine Exit}
    {r : FrameResult} {w : World} (h : Settled v.checkpoint.1 result r w)
    (ok : ∀ exit m, result = .ok exit m → View.Inside s v.checkpoint.2 m.world.view)
    (error : ∀ e m, result = .error (.error e) m → View.Inside s v.checkpoint.2 m.world.view) :
    View.Inside s v w.view ∧ (r.error ≠ none → w.view.sight s = v.sight s) := by
  cases h with
  | returned output m => exact ⟨View.commitTo_inside (ok _ m rfl), fun h => absurd rfl h⟩
  | reverted output m =>
    have hin := ok _ m rfl
    exact ⟨View.revertTo_inside hin, fun _ => View.sight_revertTo hin⟩
  | burnt he hg =>
    have hin := error _ _ rfl
    exact ⟨View.revertTo_inside hin, fun _ => View.sight_revertTo hin⟩
  | kept he =>
    have hin := error _ _ rfl
    exact ⟨View.revertTo_inside hin, fun _ => View.sight_revertTo hin⟩

section Frames

variable {env : Setting} {body : Exec Exit} {w w' : World} {r : FrameResult}

/-- The code that a frame runs stays within the innermost scope. -/
abbrev Exec.StaysInside (env : Setting) (body : Exec Exit) : Prop :=
  body.Keeps Stop.OfCode fun m m' => View.Inside env.store m.world.view m'.world.view

/-- A call leaves no scope behind, and nothing at all if it fails. -/
theorem callWith_atomic (hb : Exec.StaysInside env body) {c : Call}
    (h : callWith env body c w = .ok (r, w')) :
    View.Inside env.store w.view w'.view ∧
      (r.error ≠ none → w'.view.sight env.store = w.view.sight env.store) := by
  obtain ⟨e, -, -, rfl⟩ | ⟨-, hs⟩ := callWith_cases h
  · exact ⟨.refl _, fun _ => rfl⟩
  · have hk := Exec.enterCall_keeps (Steady.inside env) hb c (c.machine w)
    refine hs.atomic ?_ ?_
    · intro exit m hm
      exact hk.of_ok hm
    · intro e m hm
      exact (hk.of_error hm).2 e rfl

/-- A creation leaves no scope behind, and if it fails nothing but the nonce taken. -/
theorem createWith_atomic (hb : Exec.StaysInside env body) {c : Creation}
    (h : createWith env body c w = .ok (r, w')) :
    View.Inside env.store w.view w'.view ∧ (r.error ≠ none →
      (refusal? env w c.creator c.value c.depth ≠ none →
        w'.view.sight env.store = w.view.sight env.store) ∧
      (refusal? env w c.creator c.value c.depth = none →
        (w.view.account env.store c.creator).nonce.toNat + 1 < UInt64.size ∧
        w'.view.sight env.store = (w.view.sight env.store).putAccount c.creator
          { w.view.account env.store c.creator with
            nonce := (w.view.account env.store c.creator).nonce + 1 })) := by
  obtain ⟨e, he, -, rfl⟩ | ⟨hn, view, r', hv, hs, rfl⟩ := createWith_cases h
  · refine ⟨.refl _, fun _ => ⟨fun _ => rfl, fun hn => ?_⟩⟩
    rw [he] at hn
    cases hn
  · obtain ⟨hin, hlt, hsight⟩ :=
      (View.bumpNonce_meets env.store c.creator w.view).of_ok hv
    have hk := Exec.enterCreation_keeps (Steady.inside env) hb (c.address env w) c
      (c.machine env w view)
    obtain ⟨hin', hfail⟩ := hs.atomic (s := env.store) (fun exit m hm => hk.of_ok hm)
      fun e m hm => (hk.of_error hm).2 e rfl
    refine ⟨hin.trans hin', fun hr => ⟨fun hne => absurd hn hne, fun _ => ⟨hlt, ?_⟩⟩⟩
    rw [hfail hr, hsight]

end Frames

/-- A run stays within the scope that it starts in. -/
theorem Exec.run_inside (env : Setting) (steps : Nat) :
    Exec.StaysInside env (Exec.run env steps) := by
  refine Exec.run_keeps (Steady.inside env).lasting ?_ ?_ steps
  · intro body hb m c gas r w _ _ _ h
    exact (callWith_atomic hb h).1
  · intro body hb m c gas r w _ _ _ h
    exact (createWith_atomic hb h).1

/-- **A frame takes effect as a whole or not at all**, at any depth and on any view,
however many steps it takes. It leaves as many scopes open as it found. If it fails,
the view shows what it showed before, but for the nonce of the creator of an admitted
creation, which is one higher. -/
theorem frame_atomic (steps : Nat) (env : Setting) (w w' : World) (r : FrameResult) :
    (∀ c : Call, callIn steps env c w = .ok (r, w') →
      w'.view.depth = w.view.depth ∧
      (r.error ≠ none → w'.view.sight env.store = w.view.sight env.store)) ∧
    (∀ c : Creation, createIn steps env c w = .ok (r, w') →
      w'.view.depth = w.view.depth ∧
      (r.error ≠ none →
        (refusal? env w c.creator c.value c.depth ≠ none →
          w'.view.sight env.store = w.view.sight env.store) ∧
        (refusal? env w c.creator c.value c.depth = none →
          (w.view.account env.store c.creator).nonce.toNat + 1 < UInt64.size ∧
          w'.view.sight env.store = (w.view.sight env.store).putAccount c.creator
            { w.view.account env.store c.creator with
              nonce := (w.view.account env.store c.creator).nonce + 1 }))) := by
  have hb := Exec.run_inside env steps
  constructor
  · intro c h
    obtain ⟨hin, hfail⟩ := callWith_atomic hb h
    exact ⟨hin.depth, hfail⟩
  · intro c h
    obtain ⟨hin, hfail⟩ := createWith_atomic hb h
    exact ⟨hin.depth, hfail⟩

/-! ### Frames that fail -/

namespace FailingFrames

/-- Writes a slot, leaves a log, calls account 3 with value, and then fails: its last
byte is no instruction. -/
def code : Bytes :=
  [0x60, 0x2a, 0x60, 0x01, 0x55,
    0x60, 0, 0x60, 0, 0xa0,
    0x60, 0, 0x60, 0, 0x60, 0, 0x60, 0, 0x60, 5, 0x60, 3, 0x61, 0xff, 0xff, 0xf1,
    0xfe]

/-- Account 1 has value to give, and account 2 has the code. -/
def setting : Setting where
  params := .standard
  context := ⟨⟨1⟩, .zero, 0, 0, 100000, .zero, View.canTransfer⟩
  store := (Store.ofAccounts [(⟨1⟩, ⟨4, 1000, .zero⟩), (⟨2⟩, ⟨1, 70, ⟨7⟩⟩)]).putCode ⟨2⟩ code

/-- A call of account 2, by a frame at depth 3. -/
def call : Call := ⟨⟨1⟩, ⟨2⟩, [], 100000, 10, 4⟩

/-- A creation that has less gas than it takes to enter its frame. -/
def creation : Creation := ⟨⟨1⟩, [], 100, 10, 4⟩

/-- A world with an open scope, and a log in it. -/
def world : World := ⟨View.fresh.checkpoint.2.addLog ⟨⟨1⟩, [], [1]⟩, .untracked⟩

end FailingFrames

open FailingFrames in
/-- A call whose code fails after it has written, logged and paid, and a creation that
fails at once. -/
theorem frame_atomic_of_failing :
    (∃ r w', callIn 40 setting call world = .ok (r, w') ∧ r.error = some (.invalidOpcode 0xfe) ∧
      w'.view.depth = 1 ∧ w'.view.sight setting.store = world.view.sight setting.store) ∧
    (∃ r w', createIn 40 setting creation world = .ok (r, w') ∧
      r.error = some (.outOfGas 32000 100) ∧
      refusal? setting world creation.creator creation.value creation.depth = none ∧
      w'.view.depth = 1 ∧ w'.view.sight setting.store
        = (world.view.sight setting.store).putAccount ⟨1⟩ ⟨5, 1000, .zero⟩) := by
  have hcalled : (callIn 40 setting call world).toOption.bind (·.1.error)
      = some (.invalidOpcode 0xfe) := by decide +kernel
  have hcreated : (createIn 40 setting creation world).toOption.bind (·.1.error)
      = some (.outOfGas 32000 100) := by decide +kernel
  obtain ⟨⟨r, w⟩, hr, he⟩ := exists_of_read hcalled
  obtain ⟨⟨r', w'⟩, hr', he'⟩ := exists_of_read hcreated
  dsimp only at he he'
  have hn : refusal? setting world creation.creator creation.value creation.depth = none := by
    decide +kernel
  have hc := (frame_atomic 40 setting world w r).1 call hr
  have hk := (frame_atomic 40 setting world w' r').2 creation hr'
  have hs := ((hk.2 (by simp [he'])).2 hn).2
  refine ⟨⟨r, w, hr, he, hc.1, hc.2 (by simp [he])⟩, r', w', hr', he', hn, hk.1, ?_⟩
  rw [hs]
  have hacc : world.view.account setting.store creation.creator = ⟨4, 1000, .zero⟩ := by
    decide +kernel
  rw [hacc]
  rfl

end MeteredLedger
