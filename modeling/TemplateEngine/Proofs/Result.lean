/-
Taking results apart: a computation that binds another one succeeds iff both succeed.
-/
import Mathlib.Logic.Basic

namespace TemplateEngine

variable {ε α β : Type}

@[simp] theorem ok_bind (a : α) (f : α → Except ε β) : (Except.ok a >>= f) = f a := rfl

@[simp] theorem error_bind (e : ε) (f : α → Except ε β) : (Except.error e >>= f) = .error e := rfl

theorem bind_eq_ok {x : Except ε α} {f : α → Except ε β} {b : β} :
    x >>= f = .ok b ↔ ∃ a, x = .ok a ∧ f a = .ok b := by
  cases x <;> simp

@[simp] theorem mapError_ok {ε' : Type} (a : α) (f : ε → ε') : (Except.ok a).mapError f = .ok a := rfl

@[simp] theorem mapError_error {ε' : Type} (e : ε) (f : ε → ε') :
    (Except.error e : Except ε α).mapError f = .error (f e) := rfl

theorem bind_eq_error {x : Except ε α} {f : α → Except ε β} {e : ε} :
    x >>= f = .error e ↔ x = .error e ∨ ∃ a, x = .ok a ∧ f a = .error e := by
  cases x <;> simp

/-- Two computations that start alike are alike, if they go on alike from what the start gives. -/
theorem bind_congr_ok {x y : Except ε α} {f g : α → Except ε β} (h : x = y) (hf : ∀ a, y = .ok a → f a = g a) :
    x >>= f = y >>= g := by
  subst h
  cases x with
  | ok a => exact hf a rfl
  | error e => rfl

theorem map_eq_ok {x : Except ε α} {f : α → β} {b : β} : f <$> x = .ok b ↔ ∃ a, x = .ok a ∧ f a = b := by
  cases x <;> simp [Functor.map, Except.map]

theorem map_eq_error {x : Except ε α} {f : α → β} {e : ε} : f <$> x = .error e ↔ x = .error e := by
  cases x <;> simp [Functor.map, Except.map]

theorem mapError_eq_ok {ε' : Type} {x : Except ε α} {f : ε → ε'} {a : α} :
    x.mapError f = .ok a ↔ x = .ok a := by
  cases x <;> simp

theorem eq_ok_of_toOption {x : Except ε α} {a : α} (h : x.toOption = some a) : x = .ok a := by
  cases x with
  | ok b => cases h; rfl
  | error e => cases h

theorem toOption_eq_some {x : Except ε α} {a : α} : x.toOption = some a ↔ x = .ok a :=
  ⟨eq_ok_of_toOption, fun h => by rw [h]; rfl⟩

/-- The failure of a result, if it is one. -/
def failure? : Except ε α → Option ε
  | .ok _ => none
  | .error e => some e

theorem eq_error_of_failure? {x : Except ε α} {e : ε} (h : failure? x = some e) : x = .error e := by
  cases x with
  | ok a => cases h
  | error e' => cases h; rfl

theorem exists_ok_of_isSome {x : Except ε α} (h : x.toOption.isSome = true) : ∃ a, x = .ok a := by
  obtain ⟨a, ha⟩ := Option.isSome_iff_exists.1 h
  exact ⟨a, eq_ok_of_toOption ha⟩

/-- A result is an error. -/
def Fails (x : Except ε α) : Prop :=
  ∃ e, x = .error e

@[simp] theorem not_fails_ok (a : α) : ¬ Fails (Except.ok a : Except ε α) :=
  nofun

@[simp] theorem not_fails_pure (a : α) : ¬ Fails (pure a : Except ε α) :=
  nofun

@[simp] theorem fails_error (e : ε) : Fails (Except.error e : Except ε α) :=
  ⟨e, rfl⟩

/-- A computation whose rest fails independently of what it is given. -/
theorem fails_bind_iff {x : Except ε α} {f : α → Except ε β} {p : Prop} (h : ∀ a, Fails (f a) ↔ p) :
    Fails (x >>= f) ↔ Fails x ∨ p := by
  cases x <;> simp [h]

/-- A run that fails does so at some step, before which what each step keeps still holds. -/
theorem exists_of_foldlM_error {f : β → α → Except ε β} {P : β → Prop}
    (hstep : ∀ b a b', P b → f b a = .ok b' → P b') {as : List α} {b : β} (hb : P b) {e : ε}
    (h : as.foldlM f b = .error e) : ∃ b' a, P b' ∧ f b' a = .error e := by
  induction as generalizing b with
  | nil => cases h
  | cons a as ih =>
    rw [List.foldlM_cons] at h
    cases ha : f b a with
    | error e' =>
      rw [ha] at h
      cases h
      exact ⟨b, a, hb, ha⟩
    | ok b' =>
      rw [ha] at h
      exact ih (hstep b a b' hb ha) h

/-- A condition on both outcomes of a computation: what it gives, or why it gives nothing. -/
inductive Yields (E : ε → Prop) (Q : α → Prop) : Except ε α → Prop
  | ok {a : α} (h : Q a) : Yields E Q (.ok a)
  | error {e : ε} (h : E e) : Yields E Q (.error e)

/-- A computation that gives something, or fails in one of some ways. -/
abbrev Answered (E : ε → Prop) (x : Except ε α) : Prop :=
  Yields E (fun _ => True) x

namespace Yields

variable {E : ε → Prop} {P : α → Prop} {Q : β → Prop} {x : Except ε α}

theorem of_ok {a : α} (hx : Yields E P (.ok a)) : P a := by
  cases hx with
  | ok h => exact h

theorem of_error {e : ε} (hx : Yields E P (.error e)) : E e := by
  cases hx with
  | error h => exact h

/-- What follows knows which computation its value comes from. -/
theorem bind_of_eq {f : α → Except ε β} (hx : Yields E P x) (hf : ∀ a, x = .ok a → P a → Yields E Q (f a)) :
    Yields E Q (x >>= f) := by
  cases hx with
  | ok h => exact hf _ rfl h
  | error h => exact .error h

theorem bind {f : α → Except ε β} (hx : Yields E P x) (hf : ∀ a, P a → Yields E Q (f a)) : Yields E Q (x >>= f) :=
  hx.bind_of_eq fun a _ => hf a

theorem map {g : α → β} (hx : Yields E P x) (hg : ∀ a, P a → Q (g a)) : Yields E Q (g <$> x) := by
  cases hx with
  | ok h => exact .ok (hg _ h)
  | error h => exact .error h

theorem mono {P' : α → Prop} (hx : Yields E P x) (h : ∀ a, P a → P' a) : Yields E P' x := by
  cases hx with
  | ok ha => exact .ok (h _ ha)
  | error he => exact .error he

end Yields

end TemplateEngine
