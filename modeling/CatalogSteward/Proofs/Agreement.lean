import CatalogSteward.Proofs.Coupling
import Mathlib.Data.List.Forall2

/-!
# Operations that agree whatever the password is

Two worlds are alike if they differ in nothing but the value of a password that both of them have, and in
the passwords that were handed over when connections were opened. Two operations agree if they take alike
worlds to related results, or to the same failure, and to alike worlds again: they are coupled by the
likeness of worlds. The only part of a conversation with the server that sees the password is the opening
of a connection.
-/

namespace CatalogSteward

/-- Two variables of one name with the same value, or with two passwords. -/
def AlikeBindings (b c : String × String) : Prop :=
  b.1 = c.1 ∧ (b.2 = c.2 ∨ Text.lower b.1 = Access.passwordVariable ∧ b.2 ≠ "" ∧ c.2 ≠ "")

/-- The same settings, and the same password or two that are not empty. -/
def Access.Alike (access other : Access) : Prop :=
  access.settings = other.settings ∧
    (access.password = other.password ∨ access.hasPassword = true ∧ other.hasPassword = true)

theorem Access.Alike.target {access other : Access} (h : access.Alike other) : access.target = other.target :=
  congrArg (fun s => s.connection.target) h.1

def concealedParameter (p : String × Json) : String × Json :=
  if p.1 = "password" then (p.1, .null) else p

/-- A happening without the password, if it is one that shows a password. -/
def Happening.concealed : Happening → Happening
  | .connect parameters => .connect (parameters.map concealedParameter)
  | h => h

namespace World

/-- Two worlds that differ in passwords only. -/
structure Alike (w v : World) : Prop where
  environment : List.Forall₂ AlikeBindings w.environment v.environment
  trace : w.trace.map Happening.concealed = v.trace.map Happening.concealed
  rest : v = { w with environment := v.environment, trace := v.trace }

/-- A change of worlds that has to do with neither the environment nor the trace. -/
def Leaves (f : World → World) : Prop :=
  ∀ w environment trace,
    f { w with environment := environment, trace := trace } =
      { f w with environment := environment, trace := trace }

theorem Alike.map {w v : World} (h : w.Alike v) {f : World → World} (hf : Leaves f) : (f w).Alike (f v) := by
  have hw : f w = { f w with environment := w.environment, trace := w.trace } := hf w _ _
  have hv : f v = { f w with environment := v.environment, trace := v.trace } :=
    (congrArg f h.rest).trans (hf w _ _)
  refine ⟨?_, ?_, ?_⟩
  · rw [hw, hv]
    exact h.environment
  · rw [hw, hv]
    exact h.trace
  · rw [hv]

theorem Alike.happened {w v : World} (h : w.Alike v) {x y : Happening} (hxy : x.concealed = y.concealed) :
    Alike { w with trace := w.trace ++ [x] } { v with trace := v.trace ++ [y] } := by
  refine ⟨h.environment, ?_, by rw [h.rest]⟩
  rw [List.map_append, List.map_append, h.trace, List.map_singleton, List.map_singleton, hxy]

theorem Spares.leaves {f : World → World} (h : Spares f) : Leaves f := by
  intro w environment trace
  obtain ⟨-, hconsole, -⟩ := h.shown w
  refine (h w environment w.console trace).trans ?_
  rw [← hconsole]

theorem Alike.sharing : Sharing Alike where
  rest h := by rw [h.rest]
  map h _ hf := h.map (Spares.leaves hf)
  said h := World.said_of_console h (by rw [h.rest]) fun _ => h.happened rfl
  happened h _ := h.happened rfl

end World

theorem connectParameters_concealed {access other : Access} (h : access.Alike other) :
    (Client.connectParameters access).map concealedParameter =
      (Client.connectParameters other).map concealedParameter := by
  obtain ⟨settings, p⟩ := access
  obtain ⟨_, q⟩ := other
  obtain ⟨rfl, rfl | ⟨hp, hq⟩⟩ := h
  · rfl
  · simp only [Client.connectParameters, Access.parameters, hp, hq, if_true]
    rfl

theorem Access.Alike.couples {access other : Access} (h : access.Alike other) :
    World.Couples World.Alike access other where
  target := h.target
  expectedVersion := congrArg (fun s => s.connection.expectedVersion) h.1
  connected hw := hw.happened (congrArg Happening.connect (connectParameters_concealed h))

namespace Act

variable {α β : Type} {R : α → α → Prop} {S : β → β → Prop}

def Agree (R : α → α → Prop) (a b : Act α) : Prop :=
  ∀ w v, w.Alike v → Agreed R (a w).1 (b v).1 ∧ (a w).2.Alike (b v).2

/-- An operation that does not see passwords. -/
abbrev Blind (a : Act α) : Prop := Agree Eq a a

namespace Agree

variable {a b : Act α} {f g : α → Act β}

/-! ### Composition -/

theorem pure {x y : α} (h : R x y) : Agree R (pure x) (pure y) := Coupled.pure h

theorem throw (e : Failure) : Agree R (throw e) (throw e) := Coupled.throw e

theorem bind (ha : Agree R a b) (hf : ∀ x y, R x y → Agree S (f x) (g y)) : Agree S (a >>= f) (b >>= g) :=
  Coupled.bind ha hf

theorem next {a b : Act α} (ha : Agree Eq a b) (hf : ∀ x, Agree S (f x) (g x)) :
    Agree S (a >>= f) (b >>= g) :=
  Coupled.next ha hf

/-- Looking at a world for something that alike worlds share. -/
theorem ask {f g : World → Act α}
    (hg : ∀ w environment trace, g { w with environment := environment, trace := trace } = g w)
    (h : ∀ w, Agree R (f w) (g w)) : Agree R (get >>= f) (get >>= g) := by
  refine Coupled.ask fun w v hw => ?_
  have hv : g v = g w := (congrArg g hw.rest).trans (hg w _ _)
  rw [hv]
  exact h w

theorem modify {f : World → World} (hf : World.Leaves f) : Blind (modify f) :=
  Coupled.modify fun _ _ hw => hw.map hf

theorem onDisk {a b : DiskAct α} (h : ∀ d, Agreed R (a d).1 (b d).1 ∧ (a d).2 = (b d).2) :
    Agree R (onDisk a) (onDisk b) := by
  intro w v hw
  obtain ⟨hresult, hafter⟩ := h w.disk
  have hdisk : v.disk = w.disk := by rw [hw.rest]
  rw [onDisk_apply, onDisk_apply, hdisk, ← hafter]
  exact ⟨hresult, hw.map (f := fun u => { u with disk := (a w.disk).2 }) fun _ _ _ => rfl⟩

theorem happen {x y : Happening} (h : x.concealed = y.concealed) : Agree Eq (happen x) (happen y) :=
  Coupled.modify fun _ _ hw => hw.happened h

end Agree

end Act

end CatalogSteward
