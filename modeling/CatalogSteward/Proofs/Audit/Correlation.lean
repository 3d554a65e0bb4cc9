import CatalogSteward.Proofs.CommandLine.Accounts

/-!
# Correlations nest

The ids of the open correlations are kept on a stack that is the same for the whole process. Here a program of
correlations, of events that are logged, and of failures that may be rescued is run in two ways: with the stack,
and with the id of the enclosing correlation handed down to what is inside. Both do the same. So it can be read
off a program which id an event gets, and nothing of a correlation is left when it has ended, however that was.
-/

namespace CatalogSteward
open Act

/-- A program that logs events in correlations. -/
inductive Script where
  | done
  | log (e : AuditEvent)
  | fail (f : Failure)
  | andThen (first second : Script)
  | correlated (operation : String) (body : Script)
  | rescue (body : Script) (handler : Failure → Script)

/-- An event as it is logged. Its ids are found when it is recorded. -/
def AuditEvent.unmarked (e : AuditEvent) : AuditEvent := { e with sessionId := none, correlationId := none }

/-- An event of a session and of a correlation, or of none. -/
def AuditEvent.marked (e : AuditEvent) (session : String) (correlation : Option String) : AuditEvent :=
  { e with sessionId := some session, correlationId := correlation }

/-- Records an event as part of a correlation, or of none. -/
def Trail.recordWithin (t : Trail) (correlation : Option String) (e : AuditEvent) : Act Unit := do
  if t.enabled then
    match ← onDisk (t.addLine ((e.marked t.sessionId correlation).text (← get).actor ++ "\n")) with
    | some words => say .debug words
    | none => pure ()

namespace Script

/-- Runs a program on the process's trail. -/
def run : Script → Act Unit
  | done => pure ()
  | log e => Act.record e.unmarked
  | fail f => throw f
  | andThen first second => do
    first.run
    second.run
  | correlated operation body => Act.correlated operation body.run
  | rescue body handler => tryCatch body.run fun f => (handler f).run

/-- Runs a program on a trail, within a correlation that encloses all of it. No stack is needed. -/
def runWithin (t : Trail) (enclosing : Option String) : Script → Act Unit
  | done => pure ()
  | log e => t.recordWithin enclosing e
  | fail f => throw f
  | andThen first second => do
    first.runWithin t enclosing
    second.runWithin t enclosing
  | correlated operation body => do
    body.runWithin t (some (Trail.correlationIdOf operation (← ticket)))
  | rescue body handler => tryCatch (body.runWithin t enclosing) fun f => (handler f).runWithin t enclosing

end Script

/-! ### The trail is left alone -/

/-- An operation that does not look at the trail of the process and leaves it as it is. -/
def IgnoresTrail {α : Type} (a : Act α) : Prop :=
  ∀ (w : World) (trail : Option Trail), a { w with trail := trail } = ((a w).1, { (a w).2 with trail := trail })

namespace IgnoresTrail

variable {α β : Type} {a : Act α} {f : α → Act β} {handle : Failure → Act α}

theorem trail_eq (h : IgnoresTrail a) (w : World) : (a w).2.trail = w.trail :=
  congrArg (fun p => p.2.trail) (h w w.trail)

theorem pure (x : α) : IgnoresTrail (pure x : Act α) := fun _ _ => rfl

theorem throw (f : Failure) : IgnoresTrail (throw f : Act α) := fun _ _ => rfl

theorem say (level : Level) (message : String) : IgnoresTrail (say level message) := by
  intro w trail
  rw [say_apply, say_apply]
  rfl

theorem bind (ha : IgnoresTrail a) (hf : ∀ x, IgnoresTrail (f x)) : IgnoresTrail (a >>= f) := by
  intro w trail
  rw [bind_apply, bind_apply, ha w trail]
  rcases a w with ⟨failure | x, u⟩
  · rfl
  · exact hf x u trail

theorem tryCatch (ha : IgnoresTrail a) (h : ∀ f, IgnoresTrail (handle f)) : IgnoresTrail (tryCatch a handle) := by
  intro w trail
  have hother := ha w trail
  rcases hrun : a w with ⟨failure | x, u⟩ <;> rw [hrun] at hother
  · rw [run_tryCatch hrun, run_tryCatch hother]
    exact h failure u trail
  · rw [run_tryCatch_ok hrun, run_tryCatch_ok hother]

end IgnoresTrail

theorem Trail.ignoresTrail_recordWithin (t : Trail) (correlation : Option String) (e : AuditEvent) :
    IgnoresTrail (t.recordWithin correlation e) := by
  have hline (line : String) : IgnoresTrail (do
      match ← onDisk (t.addLine line) with
      | some words => Act.say .debug words
      | none => Pure.pure ()) := by
    have hadd (a : DiskAct (Option String)) : IgnoresTrail (onDisk a) := fun _ _ => rfl
    refine (hadd _).bind fun words => ?_
    cases words with
    | none => exact .pure ()
    | some words => exact .say .debug words
  unfold recordWithin
  cases t.enabled with
  | false => exact .pure ()
  | true =>
      intro w trail
      rw [if_pos rfl, get_bind, get_bind]
      exact hline _ w trail

theorem Script.ignoresTrail_runWithin (s : Script) (t : Trail) (enclosing : Option String) :
    IgnoresTrail (s.runWithin t enclosing) := by
  induction s generalizing enclosing with
  | done => exact .pure ()
  | log e => exact t.ignoresTrail_recordWithin enclosing e
  | fail f => exact .throw f
  | andThen first second ih₁ ih₂ => exact (ih₁ enclosing).bind fun _ => ih₂ enclosing
  | correlated operation body ih =>
      have hticket : IgnoresTrail ticket := fun _ _ => rfl
      exact hticket.bind fun n => ih (some (Trail.correlationIdOf operation n))
  | rescue body handler ih ihhandler => exact (ih enclosing).tryCatch fun f => ihhandler f enclosing

/-! ### The stack is not needed -/

/-- What is recorded on the process's trail gets the id on top of the stack, if there is one. -/
theorem record_eq {t : Trail} {w : World} (h : w.trail = some t) (e : AuditEvent) :
    Act.record e.unmarked w = t.recordWithin t.correlations.head? e w := by
  have hmarked : t.stamp e.unmarked = e.marked t.sessionId t.correlations.head? := by
    unfold Trail.stamp
    cases t.correlations <;> rfl
  unfold Trail.recordWithin
  rw [Act.record, get_bind, h]
  simp only [Trail.record, hmarked]
  cases t.enabled <;> rfl

theorem Script.runWithin_stack (s : Script) (t : Trail) (stack : List String) (enclosing : Option String) :
    s.runWithin { t with correlations := stack } enclosing = s.runWithin t enclosing := by
  induction s generalizing enclosing with
  | done => rfl
  | log e => rfl
  | fail f => rfl
  | andThen first second ih₁ ih₂ => rw [runWithin, runWithin, ih₁, ih₂]
  | correlated operation body ih => simp only [runWithin, ih]
  | rescue body handler ih ihhandler => simp only [runWithin, ih, ihhandler]

/-- A program that is run with the stack is run within the correlation that is on top of it. -/
theorem Script.run_eq (s : Script) {t : Trail} {w : World} (h : w.trail = some t) :
    s.run w = s.runWithin t t.correlations.head? w := by
  induction s generalizing t w with
  | done => rfl
  | log e => exact record_eq h e
  | fail f => rfl
  | andThen first second ih₁ ih₂ =>
      have htrail := (first.ignoresTrail_runWithin t t.correlations.head?).trail_eq w
      rw [run, runWithin]
      rcases hrun : first.runWithin t t.correlations.head? w with ⟨f | _, u⟩
      · rw [bind_error ((ih₁ h).trans hrun), bind_error hrun]
      · rw [hrun] at htrail
        rw [bind_ok ((ih₁ h).trans hrun), bind_ok hrun]
        exact ih₂ (htrail.trans h)
  | correlated operation body ih =>
      -- what is inside sees its own id on the stack, and is run as if the stack were that of the outside
      let id := Trail.correlationIdOf operation (w.tickets + 1)
      let ticketed : World := { w with tickets := w.tickets + 1 }
      have hinner : CommandLine.correlating operation w =
          { ticketed with trail := some { t with correlations := id :: t.correlations } } := by
        rw [CommandLine.correlating, h]
        rfl
      have hframe := body.ignoresTrail_runWithin t (some id)
      have htrail := (hframe.trail_eq ticketed).trans h
      have hbody : body.run (CommandLine.correlating operation w) =
          ((body.runWithin t (some id) ticketed).1, { (body.runWithin t (some id) ticketed).2 with
            trail := some { t with correlations := id :: t.correlations } }) := by
        rw [hinner, ih rfl, body.runWithin_stack]
        exact hframe ticketed _
      have hwithin : (correlated operation body).runWithin t t.correlations.head? w =
          body.runWithin t (some id) ticketed := rfl
      rw [run, CommandLine.correlated_apply, hbody, hwithin]
      rcases hrun : body.runWithin t (some id) ticketed with ⟨result, u⟩
      rw [hrun] at htrail
      have hback : CommandLine.uncorrelated
          { u with trail := some { t with correlations := id :: t.correlations } } = { u with trail := some t } := rfl
      rw [hback, ← htrail]
  | rescue body handler ih ihhandler =>
      have htrail := (body.ignoresTrail_runWithin t t.correlations.head?).trail_eq w
      rw [run, runWithin]
      rcases hrun : body.runWithin t t.correlations.head? w with ⟨f | _, u⟩
      · rw [hrun] at htrail
        rw [run_tryCatch ((ih h).trans hrun), run_tryCatch hrun]
        exact ihhandler f (htrail.trans h)
      · rw [run_tryCatch_ok ((ih h).trans hrun), run_tryCatch_ok hrun]

/-- A failure leaves the inner correlation, and what is logged after it belongs to the outer one. -/
example {t : Trail} {w : World} (h : w.trail = some t) (e : AuditEvent) (f : Failure) :
    (Script.correlated "outer" (.andThen (.rescue (.correlated "inner" (.fail f)) fun _ => .done) (.log e))).run w =
      t.recordWithin (some (Trail.correlationIdOf "outer" (w.tickets + 1))) e { w with tickets := w.tickets + 2 } := by
  rw [Script.run_eq _ h]
  rfl

end CatalogSteward
