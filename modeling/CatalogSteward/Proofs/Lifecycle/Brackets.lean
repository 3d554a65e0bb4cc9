import CatalogSteward.Proofs.Lifecycle.Dialogue

/-!
# Traces in good order

Two properties of a trace. The first is about the lock: it is taken and given back in turn, statements are
sent only while it is held, and a section that changes something is exclusive and comes after all others.
The second is about the connection: each one that is opened is closed once, and statements are sent only
over an open one. Both are read off the trace from its beginning.
-/

namespace CatalogSteward

/-- Whether a happening is a statement other than a query. -/
def Happening.isChange : Happening → Bool
  | .sql text _ => !"SELECT".toList.isPrefixOf text.toList
  | _ => false

theorem Happening.not_isChange (h : Happening) (hstatement : h.isStatement = false) :
    h.isChange = false := by
  cases h with
  | sql => cases hstatement
  | _ => rfl

/-! ### The lock -/

/-- A trace with sections under the lock of at most one database. Outside them there are no statements. A
section in which something is changed is exclusive, and no statement follows it. -/
inductive Bracketed (target : Option String) : List Happening → Prop where
  | nil : Bracketed target []
  | outside {h : Happening} {rest : List Happening} (hlocking : h.isLocking = false)
      (hstatement : h.isStatement = false) (hrest : Bracketed target rest) : Bracketed target (h :: rest)
  | held {mode : LockMode} {key : String} {inside rest : List Happening} (hkey : target = some key)
      (hinside : ∀ h ∈ inside, h.isLocking = false)
      (hchange : (∃ h ∈ inside, h.isChange = true) →
        mode = .exclusive ∧ ∀ h ∈ rest, h.isStatement = false)
      (hrest : Bracketed target rest) :
      Bracketed target (.lock mode key :: inside ++ .unlock mode key :: rest)

namespace Bracketed

variable {target : Option String} {added more : List Happening}

theorem of_outside (h : ∀ x ∈ added, x.isLocking = false ∧ x.isStatement = false) :
    Bracketed target added := by
  induction added with
  | nil => exact .nil
  | cons x added ih =>
      obtain ⟨hlocking, hstatement⟩ := h x List.mem_cons_self
      exact .outside hlocking hstatement (ih fun y hy => h y (List.mem_cons_of_mem _ hy))

theorem append (h : Bracketed target added) (k : Bracketed target more)
    (hchange : (∃ x ∈ added, x.isChange = true) → ∀ x ∈ more, x.isStatement = false) :
    Bracketed target (added ++ more) := by
  induction h with
  | nil => exact k
  | outside hlocking hstatement _ ih =>
      apply outside hlocking hstatement
      exact ih fun ⟨x, hx, hc⟩ => hchange ⟨x, List.mem_cons_of_mem _ hx, hc⟩
  | @held mode key inside rest hkey hinside hexclusive _ ih =>
      rw [List.append_assoc, List.cons_append]
      apply held hkey hinside
      · rintro ⟨x, hx, hc⟩
        obtain ⟨hmode, hnone⟩ := hexclusive ⟨x, hx, hc⟩
        have hmore := hchange ⟨x, by simp [hx], hc⟩
        exact ⟨hmode, fun y hy => (List.mem_append.mp hy).elim (hnone y) (hmore y)⟩
      · exact ih fun ⟨x, hx, hc⟩ => hchange ⟨x, by simp [hx], hc⟩

end Bracketed

/-! ### The connection -/

def Happening.isLink : Happening → Bool
  | .connect _ | .disconnect => true
  | _ => false

/-- A trace in which at most one connection is opened, once the attempts that were refused are over. It is
closed once, all statements are sent in between, and nothing is sent or opened afterwards. -/
inductive Linked : List (Option Refusal) → List Happening → Prop where
  | idle {replies : List (Option Refusal)} {before : List Happening}
      (hbefore : ∀ h ∈ before, h.isTraffic = false) : Linked replies before
  | refused {r : Refusal} {replies : List (Option Refusal)} {before rest : List Happening}
      {parameters : List (String × Json)} (hbefore : ∀ h ∈ before, h.isTraffic = false)
      (hrest : Linked replies rest) : Linked (some r :: replies) (before ++ .connect parameters :: rest)
  | opened {replies : List (Option Refusal)} {before inside after : List Happening}
      {parameters : List (String × Json)} (hreply : replies.head?.join = none)
      (hbefore : ∀ h ∈ before, h.isTraffic = false) (hinside : ∀ h ∈ inside, h.isLink = false)
      (hafter : ∀ h ∈ after, h.isTraffic = false) :
      Linked replies (before ++ .connect parameters :: (inside ++ .disconnect :: after))

theorem Linked.after_idle {replies : List (Option Refusal)} {idle added : List Happening}
    (h : Linked replies added) (hidle : ∀ x ∈ idle, x.isTraffic = false) :
    Linked replies (idle ++ added) := by
  have hboth {before : List Happening} (hbefore : ∀ x ∈ before, x.isTraffic = false) :
      ∀ x ∈ idle ++ before, x.isTraffic = false :=
    fun x hx => (List.mem_append.mp hx).elim (hidle x) (hbefore x)
  cases h with
  | idle hbefore => exact .idle (hboth hbefore)
  | refused hbefore hrest =>
      rw [← List.append_assoc]
      exact .refused (hboth hbefore) hrest
  | opened hreply hbefore hinside hafter =>
      rw [← List.append_assoc]
      exact .opened hreply (hboth hbefore) hinside hafter

theorem Linked.then_idle {replies : List (Option Refusal)} {idle added : List Happening}
    (h : Linked replies added) (hidle : ∀ x ∈ idle, x.isTraffic = false) :
    Linked replies (added ++ idle) := by
  have hboth {after : List Happening} (hafter : ∀ x ∈ after, x.isTraffic = false) :
      ∀ x ∈ after ++ idle, x.isTraffic = false :=
    fun x hx => (List.mem_append.mp hx).elim (hafter x) (hidle x)
  induction h with
  | idle hbefore => exact .idle (hboth hbefore)
  | refused hbefore _ ih =>
      rw [List.append_assoc, List.cons_append]
      exact .refused hbefore ih
  | opened hreply hbefore hinside hafter =>
      rw [List.append_assoc, List.cons_append, List.append_assoc, List.cons_append]
      exact .opened hreply hbefore hinside (hboth hafter)

namespace Line

/-- An open line stays open, and nothing is opened or closed on it. -/
theorem follow_open {replies : List (Option Refusal)} {added : List Happening} {l : Line}
    (h : (⟨true, replies⟩ : Line).follow added = some l) :
    l.isOpen = true ∧ ∀ x ∈ added, x.isLink = false := by
  induction added with
  | nil =>
      cases h
      simp
  | cons x added ih =>
      have hstep : x.isLink = false ∧ (⟨true, replies⟩ : Line).step x = some ⟨true, replies⟩ := by
        cases x <;> first | exact ⟨rfl, rfl⟩ | cases h
      rw [follow, hstep.2] at h
      obtain ⟨hopen, hadded⟩ := ih h
      exact ⟨hopen, List.forall_mem_cons.mpr ⟨hstep.1, hadded⟩⟩

/-- What has been followed on a line is in good order once the line has been closed. -/
theorem linked {replies : List (Option Refusal)} {added : List Happening} {l : Line}
    (h : (⟨false, replies⟩ : Line).follow added = some l) :
    Linked replies (added ++ if l.isOpen then [.disconnect] else []) := by
  induction added generalizing replies with
  | nil =>
      cases h
      exact .idle (by simp)
  | cons x added ih =>
      have hnone : ∀ x ∈ ([] : List Happening), x.isTraffic = false := fun x hx => absurd hx List.not_mem_nil
      cases x with
      | connect parameters =>
          have hopened (hreply : replies.head?.join = none) {rs : List (Option Refusal)}
              (hadded : (⟨true, rs⟩ : Line).follow added = some l) :
              Linked replies (.connect parameters :: added ++ if l.isOpen then [.disconnect] else []) := by
            obtain ⟨hopen, hinside⟩ := follow_open hadded
            rw [hopen]
            exact Linked.opened hreply hnone hinside hnone
          rcases replies with _ | ⟨_ | r, replies⟩
          · exact hopened rfl h
          · exact hopened rfl h
          · exact Linked.refused hnone (ih h)
      | disconnect => cases h
      | sql text parameters => cases h
      | _ =>
          apply Linked.after_idle (ih h) (List.forall_mem_singleton.mpr _)
          rfl

end Line

end CatalogSteward
