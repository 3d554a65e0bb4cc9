import CatalogSteward.Proofs.CommandLine.Coupling
import CatalogSteward.Proofs.CommandLine.Reports
import CatalogSteward.Proofs.Settings.Octal

/-!
# More output

Two runs of a command that differ in how much is to be printed do the same, and all that is printed in the
quieter one is printed in the other one too, in the same order. What can be printed in addition are lines on the
output, and the settings that were checked. That these may have numbers that cannot be written is the only way
in which the output decides how a command ends.
-/

namespace CatalogSteward
open Act

/-- Whether a happening may depend on how much is to be printed. -/
def Happening.isOptional : Happening → Bool
  | .line toErrors _ => !toErrors
  | .yaml _ _ => true
  | _ => false

/-- What is to be printed however quiet it is, and all that is no output. -/
def required (happenings : List Happening) : List Happening := happenings.filter fun x => !x.isOptional

theorem required_append_optional {x : Happening} (h : x.isOptional = true) (happenings : List Happening) :
    required (happenings ++ [x]) = required happenings := by
  simp [required, h]

namespace World

/-- Of two worlds that share everything but the output, the second one has at most more of that: what was shown
in the first one was shown in the second one too, in the same order, and all else has happened in both. -/
structure Adds (w v : World) : Prop where
  rest : v = { w with console := { w.console with verbosity := v.console.verbosity }, trace := v.trace }
  shown : w.trace.Sublist v.trace
  kept : required w.trace = required v.trace

/-- Of two worlds that share everything but the output, the second one has more of that, and is to have more. -/
structure Louder (w v : World) : Prop extends Adds w v where
  least : 0 ≤ w.console.verbosity
  verbosity : w.console.verbosity ≤ v.console.verbosity

namespace Louder

variable {w v : World}

theorem happened (h : w.Louder v) (x : Happening) :
    Louder { w with trace := w.trace ++ [x] } { v with trace := v.trace ++ [x] } where
  rest := by rw [h.rest]
  least := h.least
  verbosity := h.verbosity
  shown := h.shown.append (List.Sublist.refl [x])
  kept := by
    have hkept := h.kept
    unfold required at hkept ⊢
    rw [List.filter_append, List.filter_append, hkept]

/-- Something optional may happen in the louder world alone. -/
theorem added (h : w.Louder v) {x : Happening} (hx : x.isOptional = true) :
    Louder w { v with trace := v.trace ++ [x] } where
  rest := by rw [h.rest]
  least := h.least
  verbosity := h.verbosity
  shown := h.shown.trans (List.sublist_append_left _ _)
  kept := h.kept.trans (required_append_optional hx v.trace).symm

/-- A line that is too quiet to be shown is none on the error stream. -/
theorem said (h : w.Louder v) (level : Level) (message : String) :
    Louder (w.said level message) (v.said level message) := by
  have hoptional : 0 < level.threshold → level.toErrors = false := by
    cases level <;> decide
  have hleast := h.least
  have hverbosity := h.verbosity
  unfold World.said Console.shows
  by_cases hquiet : level.threshold ≤ w.console.verbosity
  · have hloud : level.threshold ≤ v.console.verbosity := by omega
    simp only [hquiet, hloud, decide_true, if_true]
    exact h.happened _
  · have hline : level.toErrors = false := hoptional (by omega)
    by_cases hloud : level.threshold ≤ v.console.verbosity
    · simp only [hquiet, hloud, decide_true, decide_false, if_true, Bool.false_eq_true, if_false]
      exact h.added (by simp [Happening.isOptional, hline])
    · simp only [hquiet, hloud, decide_false, Bool.false_eq_true, if_false]
      exact h

theorem map (h : w.Louder v) {f : World → World} (hf : Spares f) : (f w).Louder (f v) := by
  have hv : f v = { f w with
      environment := w.environment
      console := { w.console with verbosity := v.console.verbosity }
      trace := v.trace } := (congrArg f h.rest).trans (hf w _ _ _)
  obtain ⟨henvironment, hconsole, htrace⟩ := hf.shown w
  obtain ⟨-, hconsole', htrace'⟩ := hf.shown v
  refine ⟨⟨?_, ?_, ?_⟩, ?_, ?_⟩
  · rw [hconsole, hconsole', htrace', hv, henvironment]
  · rw [htrace, htrace']
    exact h.shown
  · rw [htrace, htrace']
    exact h.kept
  · rw [hconsole]
    exact h.least
  · rw [hconsole, hconsole']
    exact h.verbosity

theorem sharing : Sharing Louder where
  rest h := by rw [h.rest]
  map h _ hf := h.map hf
  said := said
  happened := happened

end Louder

end World

namespace CommandLine
open World (Louder Couples)

variable {w v : World}

theorem access_louder (h : w.Louder v) (i : Invocation) : i.access v = i.access w := by
  have hdisk : v.disk = w.disk := by rw [h.rest]
  have henvironment : v.environment = w.environment := by rw [h.rest]
  rw [Invocation.access, Invocation.access, hdisk, henvironment]

theorem loadAccess_louder (i : Invocation) : Coupled Louder Eq (loadAccess i) (loadAccess i) := by
  intro w v h
  rw [CoupledFrom, loadAccess_apply, loadAccess_apply, access_louder h]
  exact ⟨.refl (fun _ => rfl) _, h⟩

/-- The configuration and the connections are the same, however much is to be printed. -/
theorem louder_loading : Loading Louder Eq where
  toSharing := Louder.sharing
  loadAccess := loadAccess_louder
  couples h := h ▸ ⟨rfl, rfl, fun hw => hw.happened _⟩
  settings h := h ▸ rfl
  hasPassword h := h ▸ rfl

/-! ### The check of a configuration -/

theorem configExists_keeps (i : Invocation) (w : World) : (configExists i w).2 = w := by
  have hdisk := (DiskAct.looks_ask (Disk.pathExists i.configPath) w.disk).1
  exact congrArg (fun d => ({ w with disk := d } : World)) hdisk

/-- A check of the configuration that comes to an end has found what is loaded. -/
theorem access_of_checkedSettings {i : Invocation} {access : Access} {u : World}
    (h : checkedSettings i w = (.ok access, u)) : i.access w = .ok access := by
  obtain ⟨found, v, hfound, hchecked⟩ := bind_eq_ok_iff.mp h
  have hv : v = w := by
    have hkept := configExists_keeps i w
    rwa [hfound] at hkept
  subst hv
  cases found with
  | false =>
      obtain ⟨_, _, -, hhint⟩ := bind_eq_ok_iff.mp hchecked
      obtain ⟨_, _, -, hexit⟩ := bind_eq_ok_iff.mp hhint
      obtain ⟨_, _, hleft, -⟩ := bind_eq_ok_iff.mp hexit
      cases hleft
  | true =>
      obtain ⟨loaded, _, hloaded, htold⟩ := bind_eq_ok_iff.mp hchecked
      have haccess : i.access v = .ok loaded := by
        have hload := loadAccess_apply i v
        cases haccess : i.access v with
        | error f =>
            rw [haccess] at hload
            obtain ⟨g, _, hfailed⟩ := reported_failed hload
            rw [hfailed] at hloaded
            cases hloaded
        | ok other =>
            rw [haccess] at hload
            rw [reported_ok hload] at hloaded
            cases hloaded
            rfl
      obtain ⟨_, _, -, htarget⟩ := bind_eq_ok_iff.mp htold
      obtain ⟨_, _, -, hversion⟩ := bind_eq_ok_iff.mp htarget
      cases hexpected : loaded.settings.connection.expectedVersion.filter (· ≠ "") with
      | none =>
          rw [hexpected] at hversion
          cases hversion
          exact haccess
      | some version =>
          rw [hexpected] at hversion
          obtain ⟨_, _, -, hreturned⟩ := bind_eq_ok_iff.mp hversion
          cases hreturned
          exact haccess

/-- Settings that can be written are shown in the louder world alone, or in both of them. -/
theorem showSettings_louder (h : w.Louder v) {s : Settings} (hs : s.isWritable = true) :
    CoupledFrom Louder Eq w v (pure ()) (showSettings s) := by
  unfold showSettings
  rw [if_pos hs]
  exact ⟨.ok rfl, h.added rfl⟩

theorem isVerbose_louder {i : Invocation} {verbosity : Int} (hle : i.verbosity ≤ verbosity)
    (h : i.isVerbose = true) : Invocation.isVerbose { i with verbosity := verbosity } = true := by
  simp only [Invocation.isVerbose, decide_eq_true_eq] at h ⊢
  omega

/-- If the settings can be written, or both of the runs show them, or none of them does, a check of them ends in
one way. -/
theorem validateSettings_louder (h : w.Louder v) {i : Invocation} {verbosity : Int} (hle : i.verbosity ≤ verbosity)
    (hwritable : ∀ access, i.access w = .ok access → access.settings.isWritable = true ∨
      i.isVerbose = Invocation.isVerbose { i with verbosity := verbosity }) :
    CoupledFrom Louder Eq w v (validateSettings i) (validateSettings { i with verbosity := verbosity }) := by
  have hchecked := louder_loading.checkedSettings i w v h
  have hsame : checkedSettings { i with verbosity := verbosity } = checkedSettings i := rfl
  rw [validateSettings_eq, validateSettings_eq, hsame]
  refine hchecked.bind_from fun access other u t hleft hother hut => ?_
  subst hother
  have hshown := hwritable access (access_of_checkedSettings hleft)
  cases hquiet : i.isVerbose with
  | true =>
      rw [isVerbose_louder hle hquiet, if_pos rfl]
      exact louder_loading.showSettings access.settings u t hut
  | false =>
      cases hloud : Invocation.isVerbose { i with verbosity := verbosity } with
      | false => exact ⟨.ok rfl, hut⟩
      | true =>
          rw [hquiet, hloud] at hshown
          rw [if_neg Bool.false_ne_true, if_pos rfl]
          exact showSettings_louder hut (hshown.resolve_right Bool.false_ne_true)

/-! ### Runs -/

theorem perform_louder (h : w.Louder v) {i : Invocation} {verbosity : Int} (hle : i.verbosity ≤ verbosity)
    (task : Task) (hwritable : task = .validateSettings → ∀ access, i.access w = .ok access →
      access.settings.isWritable = true ∨ i.isVerbose = Invocation.isVerbose { i with verbosity := verbosity }) :
    CoupledFrom Louder Eq w v (perform i task) (perform { i with verbosity := verbosity } task) := by
  by_cases htask : task = .validateSettings
  · subst htask
    exact validateSettings_louder h hle (hwritable rfl)
  · -- Only the check of a configuration asks how much is to be printed.
    have hsame : perform { i with verbosity := verbosity } task = perform i task := by
      cases task <;> first | rfl | exact absurd rfl htask
    rw [hsame]
    exact louder_loading.perform i htask w v h

/-- A command with another wish for output. -/
def Command.withVerbosity (verbosity : Int) : Command → Command
  | .task i t => .task { i with verbosity := verbosity } t
  | c => c

/-- Whether a command would show settings that cannot be written, but does not get to show any as it is. -/
def Command.Withholds (verbosity : Int) (w : World) : Command → Prop
  | .task i .validateSettings => i.isVerbose = false ∧
    Invocation.isVerbose { i with verbosity := verbosity } = true ∧
    ∃ access, i.access w = .ok access ∧ access.settings.isWritable = false
  | _ => False

/-- How much a command prints. -/
def Command.verbosity? : Command → Option Int
  | .task i _ => some i.verbosity
  | _ => none

theorem not_withholds {i : Invocation} {verbosity : Int} (hle : i.verbosity ≤ verbosity)
    (h : ¬ (Command.task i .validateSettings).Withholds verbosity w) {access : Access}
    (haccess : i.access w = .ok access) : access.settings.isWritable = true ∨
      i.isVerbose = Invocation.isVerbose { i with verbosity := verbosity } := by
  cases hquiet : i.isVerbose with
  | true => exact .inr (isVerbose_louder hle hquiet).symm
  | false =>
      cases hloud : Invocation.isVerbose { i with verbosity := verbosity } with
      | false => exact .inr rfl
      | true =>
          left
          cases hwritable : access.settings.isWritable with
          | true => rfl
          | false => exact absurd ⟨hquiet, hloud, access, haccess, hwritable⟩ h

theorem louder_start (w : World) {i : Invocation} {verbosity : Int} (hle : i.verbosity ≤ verbosity) :
    Louder { w with console := i.console }
      { w with console := Invocation.console { i with verbosity := verbosity } } := by
  refine ⟨⟨rfl, List.Sublist.refl _, rfl⟩, ?_, ?_⟩
  · simp only [Invocation.console, Console.configure, Console.leastVerbosity]
    omega
  · simp only [Invocation.console, Console.configure]
    omega

/-- Two runs whose arguments differ only in how much is to be printed come to the same result, and so to the same
exit code, and leave the same files, server, locks and trail; the louder one has printed all that the other one
has, and besides only what is optional. The one exception are settings with a number that cannot be written, when
only the louder run is to show them. -/
theorem verbosity_adds_output {args louder : List String} {verbosity : Int}
    (hargs : Command.ofArguments w.disk louder =
      (Command.ofArguments w.disk args).map (Command.withVerbosity verbosity))
    (hle : ∀ command, Command.ofArguments w.disk args = .ok command → ∀ n ∈ command.verbosity?, n ≤ verbosity)
    (hwithheld : ∀ command, Command.ofArguments w.disk args = .ok command → ¬ command.Withholds verbosity w) :
    (run louder w).1 = (run args w).1 ∧ (run args w).2.Adds (run louder w).2 := by
  have hsame : World.Adds (run args w).2 (run args w).2 := ⟨rfl, List.Sublist.refl _, rfl⟩
  have hequal (h : Command.ofArguments w.disk louder = Command.ofArguments w.disk args) :
      (run louder w).1 = (run args w).1 ∧ (run args w).2.Adds (run louder w).2 := by
    have hrun : run louder w = run args w := by
      rw [run, run, get_bind, get_bind, h]
    rw [hrun]
    exact ⟨rfl, hsame⟩
  cases hcommand : Command.ofArguments w.disk args with
  | error f =>
      rw [hcommand] at hargs
      exact hequal (hargs.trans hcommand.symm)
  | ok command =>
      rw [hcommand] at hargs
      cases command with
      | version => exact hequal (hargs.trans hcommand.symm)
      | sampleSettings => exact hequal (hargs.trans hcommand.symm)
      | task i task =>
          have hlouder : Command.ofArguments w.disk louder =
              .ok (.task { i with verbosity := verbosity } task) := hargs
          have hi : i.verbosity ≤ verbosity := hle _ hcommand _ rfl
          have hstart := louder_start w hi
          have hperform := perform_louder hstart hi task fun htask access haccess =>
            not_withholds hi (htask ▸ hwithheld _ hcommand) haccess
          rw [run_task hcommand, run_task hlouder]
          exact ⟨hperform.1.eq.symm, hperform.2.toAdds⟩

/-- The options of a listing, and of one that shows all there is to show. -/
def listing (verbose : List String) : List String := ["extension", "list"] ++ verbose

theorem verbosity_adds_output_list :
    let w : World := .ofServer ⟨.fresh, 160002, [], []⟩
    (run (listing ["-vv"]) w).1 = (run (listing []) w).1 ∧ (run (listing []) w).2.Adds (run (listing ["-vv"]) w).2 := by
  intro w
  have hargs : Command.ofArguments w.disk (listing []) = .ok (.task (.ofOptions false 0 false false none) .list) := rfl
  have hlouder : Command.ofArguments w.disk (listing ["-vv"]) =
      (Command.ofArguments w.disk (listing [])).map (Command.withVerbosity 3) := rfl
  apply verbosity_adds_output hlouder
  · intro command hcommand n hn
    rw [hargs] at hcommand
    cases hcommand
    cases hn
    decide
  · intro command hcommand hwithheld
    rw [hargs] at hcommand
    cases hcommand
    exact hwithheld

/-! ### A number that cannot be written -/

theorem checkedSettings_apply {i : Invocation} {access : Access}
    (hexists : Disk.pathExists i.configPath w.disk = .ok true) (haccess : i.access w = .ok access) :
    ∃ u, checkedSettings i w = (.ok access, u) := by
  have hload : reported (loadAccess i) w = (.ok access, w) :=
    reported_ok ((loadAccess_apply i w).trans (by rw [haccess]))
  rw [checkedSettings, bind_ok (configExists_apply hexists)]
  dsimp only
  rw [if_neg (by decide), bind_ok hload, bind_ok (say_apply ..), bind_ok (say_apply ..)]
  cases access.settings.connection.expectedVersion.filter (· ≠ "") with
  | none => exact ⟨_, rfl⟩
  | some version =>
      dsimp only
      rw [bind_ok (say_apply ..)]
      exact ⟨_, rfl⟩

/-- Settings with a number that cannot be written pass the check, but not a louder one, which is to show them. -/
theorem exitCode_withheld {args louder : List String} {i : Invocation} {verbosity : Int}
    (hargs : Command.ofArguments w.disk args = .ok (.task i .validateSettings))
    (hlouder : Command.ofArguments w.disk louder = .ok (.task { i with verbosity := verbosity } .validateSettings))
    (hexists : Disk.pathExists i.configPath w.disk = .ok true)
    (h : (Command.task i .validateSettings).Withholds verbosity w) :
    exitCode (run args w).1 = 0 ∧ exitCode (run louder w).1 = 1 := by
  obtain ⟨hquiet, hloud, access, haccess, hwritable⟩ := h
  have hchecked (console : Console) : ∃ u, checkedSettings i { w with console := console } = (.ok access, u) :=
    checkedSettings_apply hexists haccess
  constructor
  · obtain ⟨u, hu⟩ := hchecked i.console
    rw [run_task hargs, perform, validateSettings_eq, bind_ok hu, hquiet]
    rfl
  · obtain ⟨u, hu⟩ := hchecked (Invocation.console { i with verbosity := verbosity })
    have hsame : checkedSettings { i with verbosity := verbosity } = checkedSettings i := rfl
    rw [run_task hlouder, perform, validateSettings_eq, hsame, bind_ok hu, hloud, if_pos rfl, showSettings, hwritable,
      if_neg Bool.false_ne_true]
    rfl

/-- A file with an octal number that is too long to be written in decimal passes the check of the configuration.
The same check fails when more is to be printed. -/
theorem unwritable_number_fails_verbosely :
    let w := configured (Text.encodeUtf8 (Settings.octalText 4762))
    (Command.ofArguments w.disk (validatingArguments ++ ["-v"]) =
      (Command.ofArguments w.disk validatingArguments).map (Command.withVerbosity 2)) ∧
      exitCode (run validatingArguments w).1 = 0 ∧ exitCode (run (validatingArguments ++ ["-v"]) w).1 = 1 := by
  have hload {bytes : List UInt8} (h : bytes = Text.encodeUtf8 (Settings.octalText 4762)) :
      creating.access (configured bytes) = .ok ⟨Settings.sized (8 ^ 4762 : Nat), none⟩ := by
    apply access_of_load rfl
    apply Settings.load_octal
    rw [← h]
    rfl
  generalize hbytes : Text.encodeUtf8 (Settings.octalText 4762) = bytes
  have haccess := hload hbytes.symm
  have hwithheld : (Command.task creating .validateSettings).Withholds 2 (configured bytes) :=
    ⟨rfl, rfl, _, haccess, Settings.not_isWritable_sized⟩
  exact ⟨rfl, exitCode_withheld rfl rfl rfl hwithheld⟩

end CommandLine

end CatalogSteward
