import CatalogSteward.Proofs.CommandLine.Works
import CatalogSteward.Proofs.Coupling

/-!
# Commands side by side

What a command does besides talking to the server is to load the configuration, to ask, to report and to
show, and to record what it has done. Two runs of a command go side by side from the point on where the
configurations that they have loaded are of one kind for the relation at hand.
-/

namespace CatalogSteward.CommandLine
open Act
open World (Couples)

/-- A relation of worlds that is kept where an attempt is recorded, and within a correlation. -/
structure Coupling (K : World → World → Prop) : Prop extends World.Coupling K where
  record (a : Attempt) (failure : Option Error) : Coupled K Eq (a.record failure) (a.record failure)
  correlated {α : Type} {R : α → α → Prop} {a b : Act α} (operation : String) (h : Coupled K R a b) :
    Coupled K R (correlated operation a) (correlated operation b)

variable {α : Type} {R : α → α → Prop} {K : World → World → Prop} {a b : Act α} {w v : World}

theorem exit_coupled (code : Nat) : Coupled K R (exit code : Act α) (exit code) := .throw _

/-! ### Reports and sessions -/

section
variable (hK : World.Coupling K)
include hK

theorem reportError_coupled (r : Report) : Coupled K Eq (reportError r) (reportError r) :=
  reportError_of (P := fun a => Coupled K Eq a a) (.pure rfl) hK.say (fun _ => hK.happen _)
    (fun ha hb => ha.next fun _ => hb) r

theorem reported_coupled (h : CoupledFrom K R w v a b) : CoupledFrom K R w v (reported a) (reported b) := by
  refine h.outcome.bind fun r s hresult => ?_
  cases hresult with
  | ok h => exact .pure h
  | error f =>
      cases f with
      | error e => exact .next (reportError_coupled hK _) fun _ => exit_coupled _
      | fault f => exact .throw _
      | exit code => exact .throw _

theorem session_coupled (h : Coupled K R a b) : Coupled K R (session a) (session b) :=
  (hK.modifyClient fun _ => .start).next fun _ => h.always (Client.close_coupled hK)

end

/-! ### Commands that leave a record -/

section
variable (hK : Coupling K)
include hK

theorem recordingErrors_coupled (h : Coupled K R a b) (attempt : Attempt) :
    Coupled K R (attempt.recordingErrors a) (attempt.recordingErrors b) := by
  refine .bind h.outcome fun r s hresult => ?_
  cases hresult with
  | ok h => exact .pure h
  | error f =>
      cases f with
      | error e => exact .next (hK.record _ _) fun _ => .throw _
      | fault f => exact .throw _
      | exit code => exact .throw _

theorem showExtension_coupled (title : String) (o : Observed) :
    Coupled K Eq (showExtension title o) (showExtension title o) := hK.happen _

theorem updateInstalled_coupled {access other : Access} (h : Couples K access other) (desired : Declared) :
    Coupled K Eq (updateInstalled access desired) (updateInstalled other desired) := by
  refine .next (Lifecycle.read_coupled hK.toCoupling h _) fun observed => ?_
  cases observed with
  | none => exact .throw _
  | some previous =>
      dsimp only
      rw [← h.target]
      refine hK.correlated _ ?_
      refine .next (recordingErrors_coupled hK (Lifecycle.update_coupled hK.toCoupling h _ _ _) _) fun updated => ?_
      cases updated with
      | unchanged => exact .pure rfl
      | readBack o => exact .next (hK.record _ _) fun _ => .pure rfl

variable {i : Invocation} (haudited : CoupledFrom K (Couples K) w v (audited i) (audited i))

include haudited

theorem create_coupled (desired : Declared) : CoupledFrom K Eq w v (create i desired) (create i desired) := by
  refine .next (reported_coupled hK.toCoupling (haudited.bind fun access other h => ?_)) fun observed => ?_
  · rw [← h.target]
    have hsession := session_coupled hK.toCoupling (Lifecycle.create_coupled hK.toCoupling h desired)
    refine .next (recordingErrors_coupled hK hsession _) fun observed => ?_
    exact .next (hK.record _ _) fun _ => .pure rfl
  · cases observed with
    | some o => exact showExtension_coupled hK _ _
    | none => exact .next (hK.say _ _) fun _ => exit_coupled _

theorem adopt_coupled (name : String) : CoupledFrom K Eq w v (adopt i name) (adopt i name) := by
  refine .next (reported_coupled hK.toCoupling (haudited.bind fun access other h => ?_)) fun observed => ?_
  · rw [← h.target]
    refine .next (session_coupled hK.toCoupling (Lifecycle.adopt_coupled hK.toCoupling h _)) fun observed => ?_
    exact .next (hK.record _ _) fun _ => .pure rfl
  · cases stateText observed with
    | ok text => exact hK.happen _
    | error f => exact .throw _

theorem deleteConfirmed_coupled (name : String) :
    CoupledFrom K Eq w v (deleteConfirmed i name) (deleteConfirmed i name) := by
  refine .next (reported_coupled hK.toCoupling (haudited.bind fun access other h => ?_)) fun _ => hK.say _ _
  rw [← h.target]
  have hsession := session_coupled hK.toCoupling (Lifecycle.delete_coupled hK.toCoupling h name)
  exact .next (recordingErrors_coupled hK hsession _) fun _ => hK.record _ _

/-- Options that contradict each other are told before anything is loaded. -/
theorem update_coupled (h : K w v) (wanted : Declared) (latest : Bool) :
    CoupledFrom K Eq w v (update i wanted latest) (update i wanted latest) := by
  unfold update
  dsimp only
  split
  · exact Coupled.next (hK.say _ _) (fun _ => exit_coupled _) w v h
  · refine .next (reported_coupled hK.toCoupling (haudited.bind fun access other h =>
      session_coupled hK.toCoupling (updateInstalled_coupled hK h _))) fun x => ?_
    split
    · exact .next (hK.say _ _) fun _ => showExtension_coupled hK _ _
    · exact showExtension_coupled hK _ _
    · exact .next (hK.say _ _) fun _ => exit_coupled _

omit haudited in
/-- A deletion that is to be confirmed loads the configuration after the question. -/
theorem delete_coupled {name : String} (hkeyboard : v.keyboard = w.keyboard)
    (hquestioned : K (questioned i name w) (questioned i name v))
    (haudited : CoupledFrom K (Couples K) (questioned i name w) (questioned i name v) (audited i) (audited i)) :
    CoupledFrom K Eq w v (delete i name) (delete i name) := by
  have hsame : proceeds i v = proceeds i w := by rw [proceeds, proceeds, hkeyboard]
  unfold CoupledFrom
  cases hproceeds : proceeds i w with
  | false =>
      rw [delete_cancelled hproceeds, delete_cancelled (hsame.trans hproceeds)]
      have hsaid := hK.say .warn "Operation cancelled" _ _ hquestioned
      rw [CoupledFrom, say_apply, say_apply] at hsaid
      exact ⟨.error _, hsaid.2⟩
  | true =>
      rw [delete_proceeds hproceeds, delete_proceeds (hsame.trans hproceeds)]
      exact deleteConfirmed_coupled hK haudited name

end

/-- Nothing that a command does with its records depends on the environment, the console or the trace. -/
theorem sharing_coupling (hK : World.Sharing K) : Coupling K where
  toCoupling := hK.coupling
  record _ _ := hK.ask (fun _ _ _ _ => rfl) fun _ => hK.record _
  correlated operation h := hK.correlated operation h

/-! ### The check of a configuration -/

/-- What a check of the configuration does before it shows the configuration, if it does. -/
def checkedSettings (i : Invocation) : Act Access := do
  if !(← configExists i) then
    Act.say .error ("Configuration file not found: " ++ i.configPath.text)
    Act.say .hint "Create it with: pgstate config init"
    exit 2
  let access ← reported (loadAccess i)
  Act.say .success ("Configuration is valid: " ++ i.configPath.text)
  Act.say .info ("Target database: " ++ access.target)
  match access.settings.connection.expectedVersion.filter (· ≠ "") with
  | some version => Act.say .info ("Server version detection disabled, assuming " ++ version)
  | none => pure ()
  return access

theorem validateSettings_eq (i : Invocation) :
    validateSettings i = checkedSettings i >>= fun access =>
      if i.isVerbose then showSettings access.settings else pure () := by
  unfold validateSettings checkedSettings
  rw [bind_assoc]
  refine congrArg (configExists i >>= ·) (funext fun found => ?_)
  cases found with
  | false =>
      simp only [Bool.not_false, if_true, bind_assoc]
      rfl
  | true =>
      simp only [Bool.not_true, Bool.false_eq_true, if_false, bind_assoc]
      refine congrArg (reported (loadAccess i) >>= ·) (funext fun access => ?_)
      cases access.settings.connection.expectedVersion.filter (· ≠ "") <;> simp only [bind_assoc, pure_bind]

/-! ### Commands with a configuration -/

/-- Related worlds in which configurations are loaded side by side: with the same settings, and with a password
in both of them or in none. -/
structure Loading (K : World → World → Prop) (A : Access → Access → Prop) : Prop extends World.Sharing K where
  loadAccess (i : Invocation) : Coupled K A (loadAccess i) (loadAccess i)
  couples {access other : Access} (h : A access other) : Couples K access other
  settings {access other : Access} (h : A access other) : access.settings = other.settings
  hasPassword {access other : Access} (h : A access other) : access.hasPassword = other.hasPassword

namespace Loading

variable {A : Access → Access → Prop} (hK : Loading K A)
include hK

theorem reported (h : Coupled K R a b) : Coupled K R (reported a) (reported b) :=
  fun w v hw => reported_coupled hK.coupling (h w v hw)

theorem session (h : Coupled K R a b) : Coupled K R (session a) (session b) :=
  session_coupled hK.coupling h

theorem audited (i : Invocation) : Coupled K (Couples K) (audited i) (audited i) := by
  refine .bind (hK.loadAccess i) fun access other h => ?_
  rw [hK.settings h]
  refine hK.ticket.next fun n => ?_
  exact .next (hK.modify fun _ _ _ _ => rfl) fun _ => .pure (hK.couples h)

theorem configExists (i : Invocation) : Coupled K Eq (configExists i) (configExists i) := hK.onDisk _

theorem showSettings (s : Settings) : Coupled K Eq (showSettings s) (showSettings s) := by
  unfold CommandLine.showSettings
  split
  · exact hK.coupling.happen _
  · exact .throw _

theorem display (i : Invocation) (name : String) : Coupled K Eq (display i name) (display i name) := by
  refine .next (hK.reported (.bind (hK.loadAccess i) fun access other h => ?_)) fun observed => ?_
  · exact hK.session (Lifecycle.read_coupled hK.coupling (hK.couples h) _)
  · cases observed with
    | some o => exact showExtension_coupled (sharing_coupling hK.toSharing) _ _
    | none => exact exit_coupled _

theorem probe (i : Invocation) (name : String) : Coupled K Eq (probe i name) (probe i name) := by
  refine .next (hK.reported (.bind (hK.loadAccess i) fun access other h => ?_)) fun found => ?_
  · exact hK.session (Lifecycle.installed_coupled hK.coupling (hK.couples h) _)
  · refine (hK.coupling.happen _).next fun _ => ?_
    split
    · exact exit_coupled _
    · exact .pure rfl

theorem questioned (h : K w v) (i : Invocation) (name : String) :
    K (questioned i name w) (questioned i name v) := by
  unfold CommandLine.questioned
  split
  · exact hK.map (hK.happened h _) (f := fun w => { w with keyboard := w.keyboard.drop 1 }) fun _ _ _ _ => rfl
  · exact h

theorem list (i : Invocation) : Coupled K Eq (list i) (list i) := by
  refine .bind (R := fun x y => A x.1 y.1 ∧ x.2 = y.2) (hK.reported ?_) ?_
  · refine .bind (hK.loadAccess i) fun access other h => ?_
    have hcouples := hK.couples h
    have hlist := hK.coupling.locked .shared access.target (Gateway.list_coupled hK.coupling hcouples)
    rw [← hcouples.target]
    exact .next (hK.session hlist) fun extensions => .pure ⟨h, rfl⟩
  · rintro ⟨access, extensions⟩ ⟨other, _⟩ ⟨h, rfl⟩
    dsimp only
    rw [hK.settings h]
    split
    · exact hK.coupling.say _ _
    · cases extensions.mapM tableRow with
      | error f => exact .throw _
      | ok rows => exact hK.coupling.happen _

theorem displaySettings (i : Invocation) : Coupled K Eq (displaySettings i) (displaySettings i) := by
  refine hK.reported (.bind (hK.loadAccess i) fun access other h => ?_)
  have hpassword : passwordStatus access = passwordStatus other := by
    rw [passwordStatus, passwordStatus, hK.hasPassword h]
  rw [(hK.couples h).target, hpassword, hK.settings h]
  refine (hK.configExists i).next fun found => ?_
  exact (hK.coupling.happen _).next fun _ => hK.showSettings _

theorem initSettings (i : Invocation) (force : Bool) :
    Coupled K Eq (initSettings i force) (initSettings i force) := by
  refine (hK.reported (hK.onDisk _)).next fun _ => ?_
  exact (hK.coupling.say _ _).next fun _ => hK.coupling.say _ _

theorem checkedSettings (i : Invocation) : Coupled K A (checkedSettings i) (checkedSettings i) := by
  refine (hK.configExists i).next fun found => ?_
  dsimp only
  split
  · exact (hK.coupling.say _ _).next fun _ => (hK.coupling.say _ _).next fun _ => exit_coupled _
  · refine .bind (hK.reported (hK.loadAccess i)) fun access other h => ?_
    rw [(hK.couples h).target, hK.settings h]
    refine (hK.coupling.say _ _).next fun _ => (hK.coupling.say _ _).next fun _ => ?_
    split
    · exact (hK.coupling.say _ _).next fun _ => .pure h
    · exact .pure h

/-- The check of a configuration alone depends on how much is to be printed. -/
theorem perform (i : Invocation) {task : Task} (htask : task ≠ .validateSettings) :
    Coupled K Eq (perform i task) (perform i task) := by
  have hcommands := sharing_coupling hK.toSharing
  intro w v h
  have haudited := hK.audited i w v h
  cases task with
  | create desired => exact create_coupled hcommands haudited desired
  | display name => exact hK.display i name w v h
  | probe name => exact hK.probe i name w v h
  | update wanted latest => exact update_coupled hcommands haudited h wanted latest
  | delete name =>
      have hquestioned := hK.questioned h i name
      have hkeyboard : v.keyboard = w.keyboard := by rw [hK.rest h]
      exact delete_coupled hcommands hkeyboard hquestioned (hK.audited i _ _ hquestioned)
  | adopt name => exact adopt_coupled hcommands haudited name
  | list => exact hK.list i w v h
  | displaySettings => exact hK.displaySettings i w v h
  | initSettings force => exact hK.initSettings i force w v h
  | validateSettings => exact absurd rfl htask

end Loading

end CatalogSteward.CommandLine
