import CatalogSteward.Proofs.CommandLine.Records
import CatalogSteward.Proofs.Settings.Loading

/-!
# What commands report

Every command but the one that makes a new file loads the configuration before it does anything else. If
that ends with an error, the command shows the report of it and ends with its exit code; if it ends with a
fault, so does the command, and nothing is shown.
-/

namespace CatalogSteward
open Act

/-! ### Reports -/

/-- What the console shows of a report. -/
def Report.shown (r : Report) : List Happening :=
  .line true (Level.error.tag ++ " " ++ r.message) ::
    r.details.map (fun detail => .line false ("  [dim]" ++ Markup.escape detail ++ "[/dim]")) ++
      match r.hint.filter (· ≠ "") with
      | some hint => [.line false (Level.hint.tag ++ " " ++ hint)]
      | none => []

/-- How a command ends that fails in some way. -/
def Failure.ending : Failure → Failure
  | error e => .exit e.exitCode
  | f => f

/-- What a command shows that fails in some way. -/
def Failure.shown : Failure → List Happening
  | error e => e.report.shown
  | _ => []

namespace CommandLine

variable {α : Type} {w : World} {f : Failure}

/-- A world with more on its trace. -/
def showing (w : World) (more : List Happening) : World := { w with trace := w.trace ++ more }

theorem say_loud {level : Level} (h : level.threshold ≤ w.console.verbosity) (message : String) :
    say level message w = (.ok (), showing w [.line level.toErrors (level.tag ++ " " ++ message)]) := by
  rw [say_apply, World.said, Console.shows, if_pos (decide_eq_true h)]
  rfl

theorem showing_nil (w : World) : showing w [] = w := by
  rw [showing, List.append_nil]

theorem showing_showing (w : World) (more further : List Happening) :
    showing (showing w more) further = showing w (more ++ further) := by
  rw [showing, showing, showing, List.append_assoc]

theorem details_apply (details : List String) (w : World) :
    (forIn details PUnit.unit fun detail _ => do
        Act.print ("  [dim]" ++ Markup.escape detail ++ "[/dim]")
        return ForInStep.yield PUnit.unit : Act PUnit) w =
      (.ok (),
        showing w (details.map fun detail => .line false ("  [dim]" ++ Markup.escape detail ++ "[/dim]"))) := by
  induction details generalizing w with
  | nil => rw [List.map_nil, showing_nil]; rfl
  | cons detail details ih =>
      rw [List.forIn_cons, bind_assoc, Act.print, bind_ok (happen_apply _ w), pure_bind]
      refine (ih _).trans ?_
      change (_, showing (showing w _) _) = _
      rw [showing_showing]
      rfl

/-- Errors and hints are shown however quiet the console is. -/
theorem reportError_apply (hw : 0 ≤ w.console.verbosity) (r : Report) :
    reportError r w = (.ok (), showing w r.shown) := by
  have herror : Level.error.threshold ≤ w.console.verbosity := hw
  have hhint (more : List Happening) : Level.hint.threshold ≤ (showing w more).console.verbosity := hw
  rw [reportError, bind_ok (say_loud herror r.message), bind_ok (details_apply _ _), showing_showing, Report.shown]
  cases r.hint.filter (· ≠ "") with
  | none => rw [List.append_nil]; rfl
  | some hint => exact (say_loud (hhint _) hint).trans (by rw [showing_showing]; rfl)

theorem reported_error {op : Act α} (hop : op w = (.error f, w)) (hw : 0 ≤ w.console.verbosity) :
    reported op w = (.error f.ending, showing w f.shown) := by
  rw [reported, bind_ok (outcome_apply op w), hop]
  cases f with
  | error e =>
      dsimp only
      rw [bind_ok (reportError_apply hw e.report)]
      rfl
  | fault f => exact congrArg (Prod.mk _) (showing_nil w).symm
  | exit code => exact congrArg (Prod.mk _) (showing_nil w).symm

/-- A command ends with its work if that fails at once. -/
theorem Works.error {command : Act Unit} {work : Act α} (h : Works command work) (hwork : work w = (.error f, w))
    (hw : 0 ≤ w.console.verbosity) : command w = (.error f.ending, showing w f.shown) := by
  obtain ⟨present, rfl, -⟩ := h
  exact bind_error (reported_error hwork hw) present

/-! ### Without a configuration -/

theorem ask_apply {question : Disk → Except Disk.Fault α} {a : α} {d : Disk} (h : question d = .ok a) :
    DiskAct.ask question d = (.ok a, d) := by
  rw [DiskAct.ask_eq, h]
  rfl

theorem access_error {i : Invocation} (hexists : Disk.pathExists i.configPath w.disk = .ok true)
    (hload : (Settings.load i.configPath w.disk).1 = .error f) : i.access w = .error f := by
  have hdefault : Settings.loadOrDefault i.configPath w.disk = (.error f, w.disk) := by
    rw [Settings.loadOrDefault, run_bind (ask_apply hexists), if_pos rfl]
    exact Prod.ext hload (Settings.load_looks i.configPath w.disk).1
  change (Access.load i.configPath w.environment w.disk).1 = _
  rw [Access.load, run_bind_error hdefault]

theorem configExists_apply {i : Invocation} {found : Bool}
    (hexists : Disk.pathExists i.configPath w.disk = .ok found) : configExists i w = (.ok found, w) := by
  rw [configExists, onDisk_apply, ask_apply hexists]

/-- Whether a command gets as far as to load the configuration. -/
def Task.consults (i : Invocation) (w : World) : Task → Bool
  | .initSettings _ => false
  | .update wanted latest => !conflicting wanted latest
  | .delete _ => proceeds i w
  | _ => true

/-- A command that gets as far as to load its configuration, and fails in that, has done nothing but ask. -/
theorem perform_error {i : Invocation} {task : Task} (htask : task.consults i w = true)
    (hexists : Disk.pathExists i.configPath w.disk = .ok true) (haccess : i.access w = .error f)
    (hw : 0 ≤ w.console.verbosity) :
    ∃ keyboard asked, (∀ h ∈ asked, h.isTraffic = false ∧ h.isLocking = false) ∧
      perform i task w =
        (.error f.ending, { w with keyboard := keyboard, trace := w.trace ++ asked ++ f.shown }) := by
  have hfirst {β : Type} (work : Access → Act β) : (audited i >>= work) w = (.error f, w) :=
    bind_error (audited_error haccess) work
  have hloads {β : Type} (work : Access → Act β) : (loadAccess i >>= work) w = (.error f, w) :=
    bind_error ((loadAccess_apply i w).trans (by rw [haccess])) work
  have hnow {command : Act Unit} (h : command w = (.error f.ending, showing w f.shown)) :
      ∃ keyboard asked, (∀ h ∈ asked, h.isTraffic = false ∧ h.isLocking = false) ∧
        command w = (.error f.ending, { w with keyboard := keyboard, trace := w.trace ++ asked ++ f.shown }) :=
    ⟨w.keyboard, [], List.forall_mem_nil _, by rw [h, List.append_nil]; rfl⟩
  cases task with
  | create desired => exact hnow ((create_works i desired).error (hfirst _) hw)
  | display name => exact hnow ((display_works i name).error (hloads _) hw)
  | probe name => exact hnow ((probe_works i name).error (hloads _) hw)
  | update wanted latest =>
      have hwanted : conflicting wanted latest = false := by simpa [Task.consults] using htask
      exact hnow ((update_works i hwanted).error (hfirst _) hw)
  | delete name =>
      obtain ⟨keyboard, asked, hquestioned, hidle⟩ := questioned_eq i name w
      refine ⟨keyboard, asked, hidle, ?_⟩
      have hasked : i.access { w with keyboard := keyboard, trace := w.trace ++ asked } = .error f := haccess
      rw [perform, delete_proceeds htask name, hquestioned]
      exact (deleteConfirmed_works i name).error (bind_error (audited_error hasked) _) hw
  | adopt name => exact hnow ((adopt_works i name).error (hfirst _) hw)
  | list => exact hnow ((list_works i).error (hloads _) hw)
  | displaySettings => exact hnow (reported_error (hloads _) hw)
  | initSettings force => cases htask
  | validateSettings =>
      refine hnow ?_
      rw [perform, validateSettings, bind_ok (configExists_apply hexists)]
      exact bind_error (reported_error ((loadAccess_apply i w).trans (by rw [haccess])) hw) _

/-- Loading a file changes nothing. It leads to the settings that the file gives, if these obey every rule, or
to an error that has its reason and names the file, unless the path cannot be passed on, the bytes are no text,
or the document has no value. A command that loads a file in vain has done nothing but ask. After an error it
shows the whole report of it and ends with exit code 2; after a fault it shows nothing and ends with exit
code 1. -/
theorem damaged_files_are_reported (path : Path) (w : World) :
    (Settings.load path w.disk).2 = w.disk ∧
      Settings.Loaded path w.disk (Settings.load path w.disk).1 ∧
      (∀ e, (Settings.load path w.disk).1 = .error (.error e) → e.Concerns path) ∧
      ∀ (args : List String) (i : Invocation) (task : Task) (f : Failure), i.configPath = path →
        Command.ofArguments w.disk args = .ok (.task i task) → task.consults i w = true →
        Disk.pathExists path w.disk = .ok true → (Settings.load path w.disk).1 = .error f →
        (∃ keyboard asked, (∀ h ∈ asked, h.isTraffic = false ∧ h.isLocking = false) ∧
          run args w = (.error f.ending,
            { w with
              console := i.console
              keyboard := keyboard
              trace := w.trace ++ asked ++ f.shown })) ∧
        (∀ e, f = .error e → exitCode (run args w).1 = 2) ∧
        (∀ g, f = .fault g → exitCode (run args w).1 = 1) := by
  have hloaded := Settings.load_loaded path w.disk
  have hconcerns (e : Error) (h : (Settings.load path w.disk).1 = .error (.error e)) : e.Concerns path := by
    rw [h] at hloaded
    cases hloaded with
    | refused he => exact he.concerns
  refine ⟨(Settings.load_looks path w.disk).1, hloaded, hconcerns, ?_⟩
  rintro args i task f rfl hcommand htask hexists hload
  have hloud : 0 ≤ i.console.verbosity := le_max_left _ _
  have haccess : i.access { w with console := i.console } = .error f := access_error hexists hload
  obtain ⟨keyboard, asked, hidle, hrun⟩ :=
    perform_error (w := { w with console := i.console }) htask hexists haccess hloud
  rw [← run_task hcommand] at hrun
  refine ⟨⟨keyboard, asked, hidle, hrun⟩, ?_, ?_⟩
  · rintro e rfl
    rw [hrun]
    exact (hconcerns e hload).exitCode
  · rintro g rfl
    rw [hrun]
    rfl

/-- The configuration file of the working directory is to be checked. -/
def validatingArguments : List String := ["config", "validate", "--config", "c.yaml"]

theorem damaged_files_are_reported_malformed :
    (Settings.load (.ofText "c.yaml") (configured (Text.encodeUtf8 "[")).disk).1 =
        .error (.error (.configMalformed (.ofText "c.yaml"))) ∧
      exitCode (run validatingArguments (configured (Text.encodeUtf8 "["))).1 = 2 := by
  have hload : (Settings.load (.ofText "c.yaml") (configured (Text.encodeUtf8 "[")).disk).1 =
      .error (.error (.configMalformed (.ofText "c.yaml"))) := by decide +kernel
  obtain ⟨-, -, -, hcommands⟩ :=
    damaged_files_are_reported (.ofText "c.yaml") (configured (Text.encodeUtf8 "["))
  obtain ⟨-, hexit, -⟩ := hcommands validatingArguments creating .validateSettings _ rfl rfl rfl rfl hload
  exact ⟨hload, hexit _ rfl⟩

/-- A date that does not exist, and bytes that are no text, are not reported. -/
theorem impossible_dates_are_not_reported :
    (Settings.load (.ofText "c.yaml") (configured (Text.encodeUtf8 "a: 2024-13-45")).disk).1 =
        .error (.fault (.document (.calendar .month))) ∧
      exitCode (run validatingArguments (configured (Text.encodeUtf8 "a: 2024-13-45"))).1 = 1 ∧
      (Settings.load (.ofText "c.yaml") (configured [0xff]).disk).1 = .error (.fault .unreadableText) ∧
      exitCode (run validatingArguments (configured [0xff])).1 = 1 := by
  refine ⟨?_, ?_, ?_, ?_⟩ <;> decide +kernel

end CommandLine

end CatalogSteward
