import CatalogSteward.Proofs.Act

/-!
# Operations that lead from state to state

What is proved of an operation whatever the state is a relation between the state before, the failure if
there is one, and the state after. If the relation composes, an operation keeps it as soon as its parts do.
-/

namespace CatalogSteward.Act

variable {σ α β : Type}

def failure? : Except Failure α → Option Failure
  | .ok _ => none
  | .error f => some f

theorem failure?_map (g : α → β) (r : Except Failure α) : failure? (r.map g) = failure? r := by
  cases r <;> rfl

theorem eq_error_of_failure? {r : Except Failure α} {f : Failure} (h : failure? r = some f) : r = .error f := by
  cases r with
  | error g => exact congrArg Except.error (Option.some.inj h)
  | ok a => cases h

/-- An operation that leads from a state to one that stands in a relation to it. The relation may depend
on whether the operation fails, and how. -/
def LeadsFrom (R : σ → Option Failure → σ → Prop) (s : σ) (a : ExceptT Failure (StateM σ) α) : Prop :=
  R s (failure? (a s).1) (a s).2

def Leads (R : σ → Option Failure → σ → Prop) (a : ExceptT Failure (StateM σ) α) : Prop :=
  ∀ s, R s (failure? (a s).1) (a s).2

/-- A relation that an operation keeps if its parts do. -/
structure Composes (R : σ → Option Failure → σ → Prop) : Prop where
  refl (s : σ) : R s none s
  trans {s t u : σ} {o : Option Failure} : R s none t → R t o u → R s o u

variable {R : σ → Option Failure → σ → Prop} {a : ExceptT Failure (StateM σ) α}
  {f : α → ExceptT Failure (StateM σ) β}

theorem bind_eq (a : ExceptT Failure (StateM σ) α) (f : α → ExceptT Failure (StateM σ) β) (s : σ) :
    (a >>= f) s = ExceptT.bindCont (m := StateM σ) f (a s).1 (a s).2 := rfl

theorem Leads.mono {R' : σ → Option Failure → σ → Prop} (ha : Leads R a)
    (h : ∀ s o t, R s o t → R' s o t) : Leads R' a :=
  fun s => h _ _ _ (ha s)

theorem Leads.get_bind {f : σ → ExceptT Failure (StateM σ) β} (hf : ∀ s, Leads R (f s)) :
    Leads R (get >>= f) :=
  fun s => hf s s

theorem Leads.throw {e : Failure} (h : ∀ s, R s (some e) s) :
    Leads R (throw e : ExceptT Failure (StateM σ) α) :=
  h

theorem Leads.ite {c : Prop} [Decidable c] {b : ExceptT Failure (StateM σ) α} (ha : Leads R a)
    (hb : Leads R b) : Leads R (if c then a else b) := by
  split
  · exact ha
  · exact hb

namespace Composes

theorem pure (h : Composes R) (x : α) : Leads R (Pure.pure x) := fun s => h.refl s

theorem bind (h : Composes R) (ha : Leads R a) (hf : ∀ x, Leads R (f x)) : Leads R (a >>= f) := by
  intro s
  have hfirst := ha s
  rw [bind_eq]
  generalize a s = r at hfirst ⊢
  obtain ⟨e | x, t⟩ := r
  · exact hfirst
  · exact h.trans hfirst (hf x t)

end Composes

/-- An operation leads where it leads when its result is turned into something else. -/
theorem Leads.of_map {g : α → β} (h : Leads R (do return g (← a))) : Leads R a := by
  intro s
  have hmapped := h s
  rw [bind_eq] at hmapped
  generalize a s = r at hmapped ⊢
  obtain ⟨e | x, t⟩ := r
  · exact hmapped
  · exact hmapped

end CatalogSteward.Act
