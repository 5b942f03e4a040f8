import Mathlib.Data.Nat.Basic
import Mathlib.Order.Basic
import Mathlib.Tactic.SplitIfs

/-!
# What an action comes to

An action on a state gives a value or stops, and leaves a state behind in either
case. `Meets` says of both cases at once what is to hold, so that an action is
described part by part, along the way it is put together (`Meets.bind`).
-/

namespace MeteredLedger

/-- An action is followed by another one if it gives a value. -/
theorem bind_apply {ε σ α β : Type} (x : EStateM ε σ α) (f : α → EStateM ε σ β) (s : σ) :
    (x >>= f) s = match x s with
      | .ok a s' => f a s'
      | .error e s' => .error e s' := by
  show EStateM.bind x f s = _
  unfold EStateM.bind
  cases x s <;> rfl

/-- An action that gives a value has got one of each of its parts. -/
theorem bind_eq_ok {ε σ α β : Type} {x : EStateM ε σ α} {f : α → EStateM ε σ β} {s s'' : σ} {b : β}
    (h : (x >>= f) s = .ok b s'') : ∃ a s', x s = .ok a s' ∧ f a s' = .ok b s'' := by
  rw [bind_apply] at h
  cases hx : x s with
  | ok a s' =>
    rw [hx] at h
    exact ⟨a, s', rfl, h⟩
  | error e s' =>
    rw [hx] at h
    cases h

/-- What an action comes to from a state: `Q` if it gives a value, `S` if it stops. -/
def Meets {ε σ α : Type} (x : EStateM ε σ α) (s : σ) (Q : α → σ → Prop) (S : ε → σ → Prop) :
    Prop :=
  match x s with
  | .ok a s' => Q a s'
  | .error e s' => S e s'

namespace Meets

variable {ε σ α β : Type} {x : EStateM ε σ α} {s s' : σ} {Q Q' : α → σ → Prop}
  {S S' : ε → σ → Prop}

theorem of_ok {a : α} (h : Meets x s Q S) (hx : x s = .ok a s') : Q a s' := by
  rw [Meets, hx] at h
  exact h

theorem of_error {e : ε} (h : Meets x s Q S) (hx : x s = .error e s') : S e s' := by
  rw [Meets, hx] at h
  exact h

theorem mono (h : Meets x s Q S) (hQ : ∀ a s', Q a s' → Q' a s') (hS : ∀ e s', S e s' → S' e s') :
    Meets x s Q' S' := by
  unfold Meets at h ⊢
  split at h
  · exact hQ _ _ h
  · exact hS _ _ h

/-- Two things that an action comes to, together. -/
theorem and (h : Meets x s Q S) (h' : Meets x s Q' S') :
    Meets x s (fun a s' => Q a s' ∧ Q' a s') fun e s' => S e s' ∧ S' e s' := by
  unfold Meets at h h' ⊢
  split at h <;> rename_i hx <;> rw [hx] at h' <;> exact ⟨h, h'⟩

/-- What an action comes to, and that it does. -/
theorem remember (h : Meets x s Q S) :
    Meets x s (fun a s' => x s = .ok a s' ∧ Q a s') fun e s' => x s = .error e s' ∧ S e s' := by
  unfold Meets at h ⊢
  split at h <;> rename_i hx <;> exact ⟨hx, h⟩

theorem bind {f : α → EStateM ε σ β} {Q : β → σ → Prop}
    (h : Meets x s (fun a s' => Meets (f a) s' Q S) S) : Meets (x >>= f) s Q S := by
  unfold Meets at h ⊢
  rw [bind_apply]
  cases hx : x s <;> rw [hx] at h <;> exact h

/-- Whatever an action comes to, it comes to something. -/
theorem always (x : EStateM ε σ α) (s : σ) : Meets x s (fun _ _ => True) fun _ _ => True := by
  unfold Meets
  split <;> trivial

theorem pure {a : α} (h : Q a s) : Meets (Pure.pure a) s Q S := h

theorem throw {e : ε} (h : S e s) : Meets (MonadExcept.throw e : EStateM ε σ α) s Q S := h

end Meets

/-- An answer that is there comes of an answer before it. -/
theorem exists_of_bind_ok {ε α β : Type} {x : Except ε α} {f : α → Except ε β} {b : β}
    (h : x >>= f = .ok b) : ∃ a, x = .ok a ∧ f a = .ok b := by
  cases x with
  | error e => cases h
  | ok a => exact ⟨a, rfl, h⟩

/-- An answer that is made of another one. -/
theorem exists_of_map_eq_ok {ε α β : Type} {f : α → β} {x : Except ε α} {b : β}
    (h : x.map f = .ok b) : ∃ a, x = .ok a ∧ f a = b := by
  cases x with
  | ok a => exact ⟨a, rfl, Except.ok.inj h⟩
  | error e => cases h

theorem eq_error_of_map {ε α β : Type} {f : α → β} {x : Except ε α} {e : ε}
    (h : x.map f = .error e) : x = .error e := by
  cases x with
  | ok a => cases h
  | error e' => exact congrArg Except.error (Except.error.inj h)

/-- An answer is there if something can be read off it. -/
theorem exists_of_read {ε α β : Type} {answer : Except ε α} {read : α → Option β} {b : β}
    (h : answer.toOption.bind read = some b) : ∃ a, answer = .ok a ∧ read a = some b := by
  cases answer with
  | error e => cases h
  | ok a => exact ⟨a, rfl, h⟩

end MeteredLedger
