import CatalogSteward.CommandLine.Run
import CatalogSteward.Proofs.CommandLine.Sessions
import CatalogSteward.Proofs.Except

/-!
# The work of a command

A command does its work, reports what goes wrong in it, and shows what has come of it. Reporting and
showing only tell something, so what a command does to the server and to the disk is what its work does.
-/

namespace CatalogSteward
open Act

namespace Tells

theorem print (markup : String) : Leads Tells (Act.print markup) := happen rfl rfl

theorem summary (title : String) (items : List (String × Option String)) :
    Leads Tells (Act.summary title items) :=
  happen rfl rfl

end Tells

namespace CommandLine

variable {α : Type}

/-! ### Reporting and showing -/

theorem exit_tells (code : Nat) : Leads Tells (exit code : Act α) := Tells.throw rfl

theorem fault_tells {f : Fault} (h : (Failure.fault f).isOfLock = false) : Leads Tells (fault f : Act α) :=
  Tells.throw h

/-- What holds of all that a report is made of, one thing after another, holds of the report. -/
theorem reportError_of {P : Act Unit → Prop} (hnothing : P (pure ()))
    (hsay : ∀ level message, P (Act.say level message)) (hprint : ∀ markup, P (Act.print markup))
    (hnext : ∀ {a b}, P a → P b → P (a >>= fun _ => b)) (r : Report) : P (reportError r) := by
  have hdetails (ds : List String) : P (forIn ds PUnit.unit fun detail _ => do
      Act.print ("  [dim]" ++ Markup.escape detail ++ "[/dim]")
      return ForInStep.yield PUnit.unit) := by
    induction ds with
    | nil => exact hnothing
    | cons d ds ih =>
        rw [List.forIn_cons, bind_assoc]
        refine hnext (hprint _) ?_
        rw [pure_bind]
        exact ih
  refine hnext (hsay _ _) (hnext (hdetails _) ?_)
  split
  · exact hsay _ _
  · exact hnothing

theorem reportError_tells (r : Report) : Leads Tells (reportError r) :=
  reportError_of (Tells.composes.pure _) Tells.say Tells.print
    (fun ha hb => Tells.composes.bind ha fun _ => hb) r

theorem reported_ok {op : Act α} {w u : World} {x : α} (h : op w = (.ok x, u)) : reported op w = (.ok x, u) := by
  rw [reported, bind_ok (outcome_apply op w), h]
  rfl

/-- A fault is not reported. -/
theorem reported_fault {op : Act α} {w u : World} {f : Fault} (h : op w = (.error (.fault f), u)) :
    reported op w = (.error (.fault f), u) := by
  rw [reported, bind_ok (outcome_apply op w), h]
  rfl

/-- What fails fails also when it is reported, though its failure may be told in another way. -/
theorem reported_failed {op : Act α} {w u : World} {f : Failure} (h : op w = (.error f, u)) :
    ∃ g v, reported op w = (.error g, v) := by
  rw [reported, bind_ok (outcome_apply op w), h]
  cases f with
  | error e =>
      dsimp only
      rcases hreport : reportError e.report u with ⟨g | _, v⟩
      · exact ⟨g, v, bind_error hreport _⟩
      · exact ⟨.exit e.exitCode, v, bind_ok hreport _⟩
  | fault f => exact ⟨_, _, rfl⟩
  | exit code => exact ⟨_, _, rfl⟩

theorem showExtension_tells (title : String) (o : Observed) : Leads Tells (showExtension title o) :=
  Tells.summary _ _

/-- A table fails only for values that it cannot show. -/
theorem tableRow_fails (o : Observed) : OnlyFails (· = .unrenderable) (tableRow o) := by
  have hname (j : Json) : OnlyFails (· = .unrenderable) (nameCell j) := by
    cases j <;> first | exact .ok _ | exact .error rfl
  have hdetail (j : Json) : OnlyFails (· = .unrenderable) (detailCell j) := by
    unfold detailCell
    split <;> try exact .ok _
    · split <;> first | exact .ok _ | exact .error rfl
    · split <;> first | exact .ok _ | exact .error rfl
    · exact .error rfl
  apply OnlyFails.bind (hname _)
  intro name
  apply OnlyFails.bind (hdetail _)
  intro version
  exact OnlyFails.bind (hdetail _) fun schema => .ok _

theorem tableRows_fails (os : List Observed) : OnlyFails (· = .unrenderable) (os.mapM tableRow) := by
  induction os with
  | nil => exact .ok _
  | cons o os ih =>
      rw [List.mapM_cons]
      apply OnlyFails.bind (tableRow_fails o)
      exact fun row => ih.bind fun rows => .ok _

/-! ### The work of each command -/

/-- A command that does a work, with its errors reported, and then only tells what has come of it. -/
def Works (command : Act Unit) (work : Act α) : Prop :=
  ∃ present : α → Act Unit, command = reported work >>= present ∧ ∀ x, Leads Tells (present x)

section
variable {β : Type} {K R : World → Option Failure → World → Prop} {w : World} {op : Act α}

theorem bind_allows (hR : Allows K R) (h : LeadsFrom R w op) {f : α → Act β}
    (hf : ∀ x, Leads K (f x)) : LeadsFrom R w (op >>= f) := by
  unfold LeadsFrom at *
  rcases hw : op w with ⟨e | x, u⟩ <;> rw [hw] at h
  · rw [bind_error hw]
    exact h
  · rw [bind_ok hw]
    exact hR h (hf x u) fun f hf => .inr hf

theorem reported_allows (hR : Allows Tells R) (h : LeadsFrom R w op) : LeadsFrom R w (reported op) := by
  unfold LeadsFrom at *
  rw [reported, bind_ok (outcome_apply op w)]
  cases hresult : (op w).1 with
  | ok x =>
      rw [hresult] at h
      exact h
  | error f =>
      rw [hresult] at h
      cases f with
      | error e =>
          have htells : Leads Tells (do
              reportError e.report
              (exit e.exitCode : Act α)) :=
            Tells.composes.bind (reportError_tells _) fun _ => exit_tells _
          exact hR h (htells _) fun f hf => .inr hf
      | fault f => exact h
      | exit code => exact h

/-- What is kept by the work of a command is kept by the command. -/
theorem Works.allows (hR : Allows Tells R) {command : Act Unit} (h : Works command op) (hop : LeadsFrom R w op) :
    LeadsFrom R w command := by
  obtain ⟨present, rfl, htells⟩ := h
  exact bind_allows hR (reported_allows hR hop) htells

end

theorem Works.fault {command : Act Unit} {op : Act α} (h : Works command op) {w u : World} {f : Fault}
    (hop : op w = (.error (.fault f), u)) : command w = (.error (.fault f), u) := by
  obtain ⟨present, rfl, -⟩ := h
  exact bind_error (reported_fault hop) present

/-- An attempt of which a record is left in any case. -/
def Attempt.carriedOut (a : Attempt) (op : Act α) : Act α := do
  let x ← a.recordingErrors op
  a.record none
  return x

/-- An update of which a record is left unless it has changed nothing. -/
def Attempt.carriedOutUpdate (a : Attempt) (previous : Observed) (op : Act Lifecycle.Updated) :
    Act (Observed × Lifecycle.Updated) := do
  let updated ← a.recordingErrors op
  match updated with
  | .unchanged => pure ()
  | .readBack _ => a.record none
  return (previous, updated)

def creation (access : Access) (desired : Declared) : Attempt :=
  ⟨.create, desired.name, access.target, desired.toJson⟩

def deletion (access : Access) (name : String) : Attempt := ⟨.delete, name, access.target, .object []⟩

def updating (access : Access) (desired : Declared) (previous : Observed) : Attempt :=
  ⟨.update, desired.name, access.target, .object [("previous", previous.toJson), ("desired", desired.toJson)]⟩

theorem create_works (i : Invocation) (desired : Declared) :
    Works (create i desired) (do
      let access ← audited i
      (creation access desired).carriedOut (session (Lifecycle.create access desired))) := by
  refine ⟨_, rfl, fun observed => ?_⟩
  cases observed with
  | some o => exact showExtension_tells _ o
  | none => exact Tells.composes.bind (Tells.say _ _) fun _ => exit_tells 1

theorem display_works (i : Invocation) (name : String) :
    Works (display i name) (do
      let access ← loadAccess i
      session (Lifecycle.read access name)) := by
  refine ⟨_, rfl, fun observed => ?_⟩
  cases observed with
  | some o => exact showExtension_tells _ o
  | none => exact exit_tells 1

theorem probe_works (i : Invocation) (name : String) :
    Works (probe i name) (do
      let access ← loadAccess i
      session (Lifecycle.installed access name)) := by
  refine ⟨_, rfl, fun found => ?_⟩
  apply Tells.composes.bind (Tells.print _)
  intro _
  exact Leads.ite (exit_tells 1) (Tells.composes.pure ())

/-- Whether the options of an update contradict each other. -/
def conflicting (wanted : Declared) (latest : Bool) : Bool := latest && wanted.version.any (· ≠ "")

/-- What an update asks for: the empty version stands for the default one. -/
def updateTo (wanted : Declared) (latest : Bool) : Declared :=
  if latest then { wanted with version := some "" } else wanted

theorem update_tells (i : Invocation) {wanted : Declared} {latest : Bool}
    (h : conflicting wanted latest = true) : Leads Tells (update i wanted latest) := by
  simp only [conflicting, Bool.and_eq_true] at h
  unfold update
  dsimp only
  rw [if_pos h]
  exact Tells.composes.bind (Tells.say _ _) fun _ => exit_tells 3

theorem update_works (i : Invocation) {wanted : Declared} {latest : Bool}
    (h : conflicting wanted latest = false) :
    Works (update i wanted latest) (do
      let access ← audited i
      session (updateInstalled access (updateTo wanted latest))) := by
  rw [conflicting, ← Bool.not_eq_true, Bool.and_eq_true] at h
  unfold update
  dsimp only
  rw [if_neg h]
  refine ⟨_, rfl, fun x => ?_⟩
  obtain ⟨previous, updated⟩ := x
  dsimp only
  split
  · exact Tells.composes.bind (Tells.say _ _) fun _ => showExtension_tells _ _
  · exact showExtension_tells _ _
  · exact Tells.composes.bind (Tells.say _ _) fun _ => exit_tells 1

/-- What a deletion does once it is confirmed, or if it need not be. -/
def deleteConfirmed (i : Invocation) (name : String) : Act Unit := do
  reported do
    let access ← audited i
    let attempt : Attempt := ⟨.delete, name, access.target, .object []⟩
    attempt.recordingErrors (session (Lifecycle.delete access name))
    attempt.record none
  Act.say .success ("Extension '" ++ name ++ "' dropped")

theorem deleteConfirmed_works (i : Invocation) (name : String) :
    Works (deleteConfirmed i name) (do
      let access ← audited i
      (deletion access name).carriedOut (session (Lifecycle.delete access name))) := by
  refine ⟨fun _ => Act.say .success ("Extension '" ++ name ++ "' dropped"), ?_, fun _ => Tells.say _ _⟩
  simp only [Attempt.carriedOut, bind_pure_unit]
  rfl

/-- Whether a deletion goes on: it need not be confirmed, or it is. -/
def proceeds (i : Invocation) (w : World) : Bool := !i.shouldConfirm || agreed false w.keyboard

/-- The world after the question before a deletion, if there is one. -/
def questioned (i : Invocation) (name : String) (w : World) : World :=
  if i.shouldConfirm then asked ("Drop extension '" ++ name ++ "'?") false w else w

theorem delete_proceeds {i : Invocation} {w : World} (h : proceeds i w = true) (name : String) :
    delete i name w = deleteConfirmed i name (questioned i name w) := by
  unfold delete questioned
  cases hconfirm : i.shouldConfirm with
  | false => rfl
  | true =>
      have hagreed : agreed false w.keyboard = true := by simpa [proceeds, hconfirm] using h
      dsimp only
      rw [if_pos rfl, if_pos rfl, bind_ok (confirm_apply _ false w), hagreed]
      rfl

theorem delete_cancelled {i : Invocation} {w : World} (h : proceeds i w = false) (name : String) :
    delete i name w = (.error (.exit 0), (questioned i name w).said .warn "Operation cancelled") := by
  simp only [proceeds, Bool.or_eq_false_iff, Bool.not_eq_false'] at h
  obtain ⟨hconfirm, hagreed⟩ := h
  unfold delete questioned
  dsimp only
  rw [if_pos hconfirm, if_pos hconfirm, bind_ok (confirm_apply _ false w), hagreed, if_pos (by rfl),
    bind_ok (say_apply ..)]
  rfl

/-- A question changes the keyboard and the trace alone. -/
theorem questioned_eq (i : Invocation) (name : String) (w : World) :
    ∃ keyboard added, questioned i name w = { w with keyboard := keyboard, trace := w.trace ++ added } ∧
      ∀ h ∈ added, h.isTraffic = false ∧ h.isLocking = false := by
  unfold questioned
  split
  · exact ⟨_, _, rfl, by simp [Happening.isTraffic, Happening.isLocking]⟩
  · refine ⟨w.keyboard, [], ?_, by simp⟩
    rw [List.append_nil]

theorem questioned_aside (i : Invocation) (name : String) (w : World) : Aside w none (questioned i name w) := by
  obtain ⟨keyboard, added, hquestioned, hidle⟩ := questioned_eq i name w
  rw [hquestioned]
  exact ⟨⟨added, rfl, hidle⟩, rfl, rfl, rfl, by simp⟩

/-- What an import does before it prints anything. -/
def importing (i : Invocation) (name : String) : Act Observed := do
  let access ← audited i
  let observed ← session (Lifecycle.adopt access name)
  Attempt.record ⟨.adopt, name, access.target, observed.toJson⟩ none
  return observed

theorem adopt_works (i : Invocation) (name : String) : Works (adopt i name) (importing i name) := by
  refine ⟨_, rfl, fun observed => ?_⟩
  unfold stateText
  cases Yaml.Tree.ofJson observed.name with
  | leaf l => exact Tells.happen rfl rfl
  | _ => exact fault_tells rfl

theorem list_works (i : Invocation) :
    Works (list i) (do
      let access ← loadAccess i
      let extensions ← session (Act.locked .shared access.target (Gateway.list access))
      return (access, extensions)) := by
  refine ⟨_, rfl, fun x => ?_⟩
  obtain ⟨access, extensions⟩ := x
  dsimp only
  split
  · exact Tells.say _ _
  · have hrows := tableRows_fails extensions
    cases hresult : extensions.mapM tableRow with
    | error f =>
        obtain rfl := hrows f hresult
        exact fault_tells rfl
    | ok rows => exact Tells.happen rfl rfl

/-! ### The program -/

theorem run_task {args : List String} {w : World} {i : Invocation} {task : Task}
    (h : Command.ofArguments w.disk args = .ok (.task i task)) :
    run args w = perform i task { w with console := i.console } := by
  rw [run, get_bind, h]
  rfl

end CommandLine

end CatalogSteward
