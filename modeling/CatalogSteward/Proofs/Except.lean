import Mathlib.Tactic.Common

/-!
# Computations that fail in certain ways

What is known of a computation that may fail is how it fails, if it does, and what its result is like, if
it has one. Both are known of a composed computation once they are known of its parts.
-/

namespace CatalogSteward

variable {ε δ α β : Type} {P : ε → Prop} {Q : α → Prop} {R : β → Prop}

/-- What fails, if it fails, in a certain way. -/
def OnlyFails (P : ε → Prop) (x : Except ε α) : Prop := ∀ e, x = .error e → P e

namespace OnlyFails

variable {x : Except ε α} {f : α → Except ε β}

theorem ok (a : α) : OnlyFails P (.ok a : Except ε α) := fun _ h => by cases h

theorem error {e : ε} (h : P e) : OnlyFails P (.error e : Except ε α) := fun _ hf => by cases hf; exact h

theorem mono {P' : ε → Prop} (hx : OnlyFails P x) (h : ∀ e, P e → P' e) : OnlyFails P' x :=
  fun e he => h e (hx e he)

theorem bind_of_ok (hx : OnlyFails P x) (hf : ∀ a, x = .ok a → OnlyFails P (f a)) : OnlyFails P (x >>= f) := by
  intro e he
  cases x with
  | error d => exact hx e (by cases he; rfl)
  | ok a => exact hf a rfl e he

theorem bind (hx : OnlyFails P x) (hf : ∀ a, OnlyFails P (f a)) : OnlyFails P (x >>= f) :=
  hx.bind_of_ok fun a _ => hf a

theorem map (hx : OnlyFails P x) (g : α → β) : OnlyFails P (x.map g) := by
  cases x with
  | error e => exact .error (hx e rfl)
  | ok a => exact .ok _

theorem mapError {P : δ → Prop} {g : ε → δ} (hx : OnlyFails (fun e => P (g e)) x) : OnlyFails P (x.mapError g) := by
  cases x with
  | error e => exact .error (hx e rfl)
  | ok a => exact .ok _

end OnlyFails

/-- What fails only in a certain way and has results of a certain kind. -/
structure EndsIn (P : ε → Prop) (Q : α → Prop) (x : Except ε α) : Prop where
  fails : OnlyFails P x
  result : ∀ a, x = .ok a → Q a

namespace EndsIn

variable {x : Except ε α} {f : α → Except ε β}

theorem ok {a : α} (h : Q a) : EndsIn P Q (.ok a : Except ε α) := ⟨.ok a, fun _ ha => by cases ha; exact h⟩

theorem error {e : ε} (h : P e) : EndsIn P Q (.error e : Except ε α) := ⟨.error h, fun _ ha => by cases ha⟩

theorem bind (hx : EndsIn P Q x) (hf : ∀ a, Q a → EndsIn P R (f a)) : EndsIn P R (x >>= f) := by
  cases x with
  | error e => exact .error (hx.fails e rfl)
  | ok a => exact hf a (hx.result a rfl)

end EndsIn

/-- Whatever the result of the first computation is, the second one is known. -/
theorem OnlyFails.ends {x : Except ε α} {f : α → Except ε β} (hx : OnlyFails P x) (hf : ∀ a, EndsIn P R (f a)) :
    EndsIn P R (x >>= f) := by
  cases x with
  | error e => exact .error (hx e rfl)
  | ok a => exact hf a

end CatalogSteward
