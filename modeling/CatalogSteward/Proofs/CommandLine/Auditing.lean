import CatalogSteward.Proofs.Audit.Refusals
import CatalogSteward.Proofs.CommandLine.Coupling
import CatalogSteward.Proofs.CommandLine.Records
import CatalogSteward.Proofs.Settings.Loading

/-!
# Auditing changes nothing

Two worlds may differ in all that the audit trail has to do with: in the files, in the settings of the trail,
and in the lines on the console that mention what went wrong with it. As long as no record fails, a command
goes the same way in both of them: it takes the same locks, sends the same statements, leaves the same
catalog and ends with the same exit code. A record fails only under a path that cannot be passed to the
operating system, and then it hides that the work was done.
-/

namespace CatalogSteward
open Act

/-- Whether a happening is a line on the console. -/
def Happening.isLine : Happening → Bool
  | .line _ _ => true
  | _ => false

namespace World

/-- Two worlds that differ at most in the disk, in the trail, and in the lines that were printed. -/
structure SameButAudit (w v : World) : Prop where
  seen : w.trace.filter (fun h => !h.isLine) = v.trace.filter (fun h => !h.isLine)
  rest : v = { w with disk := v.disk, trail := v.trail, trace := v.trace }

/-- Two worlds that differ in auditing at most, and in none of which a record fails. -/
structure Audited (w v : World) : Prop where
  same : w.SameButAudit v
  left : w.IsSound
  right : v.IsSound

namespace SameButAudit

variable {w v : World}

theorem happened (h : w.SameButAudit v) (x : Happening) :
    SameButAudit { w with trace := w.trace ++ [x] } { v with trace := v.trace ++ [x] } := by
  refine ⟨?_, by rw [h.rest]⟩
  rw [List.filter_append, List.filter_append, h.seen]

theorem coupling : Coupling SameButAudit where
  said h := World.said_of_console h (by rw [h.rest]) h.happened
  server h := by rw [h.rest]
  client h := by rw [h.rest]
  locks h := by rw [h.rest]
  setServer h _ := ⟨h.seen, by rw [h.rest]⟩
  setClient h _ := ⟨h.seen, by rw [h.rest]⟩
  setLocks h _ := ⟨h.seen, by rw [h.rest]⟩
  happened h x := h.happened x

/-- What concerns the disk and prints lines in each of the worlds leaves them as much the same. -/
theorem beside (h : w.SameButAudit v) {d e : Disk} {added more : List Happening}
    (hadded : ∀ x ∈ added, x.isLine = true) (hmore : ∀ x ∈ more, x.isLine = true) :
    SameButAudit { w with disk := d, trace := w.trace ++ added } { v with disk := e, trace := v.trace ++ more } := by
  have hnone {lines : List Happening} (hlines : ∀ x ∈ lines, x.isLine = true) :
      lines.filter (fun h => !h.isLine) = [] :=
    List.filter_eq_nil_iff.mpr fun x hx => by simp [hlines x hx]
  refine ⟨?_, by rw [h.rest]⟩
  rw [List.filter_append, List.filter_append, hnone hadded, hnone hmore, h.seen]

end SameButAudit

theorem Audited.coupling : Coupling Audited where
  said h level message := ⟨SameButAudit.coupling.said h.same level message, h.left, h.right⟩
  server h := SameButAudit.coupling.server h.same
  client h := SameButAudit.coupling.client h.same
  locks h := SameButAudit.coupling.locks h.same
  setServer h s := ⟨SameButAudit.coupling.setServer h.same s, h.left, h.right⟩
  setClient h c := ⟨SameButAudit.coupling.setClient h.same c, h.left, h.right⟩
  setLocks h l := ⟨SameButAudit.coupling.setLocks h.same l, h.left, h.right⟩
  happened h x := ⟨h.same.happened x, h.left, h.right⟩

end World

/-- Two accesses that differ at most in the settings of the trail. -/
structure Access.SameButAudit (access other : Access) : Prop where
  connection : access.settings.connection = other.settings.connection
  password : access.password = other.password

theorem Access.SameButAudit.couples {access other : Access} (h : access.SameButAudit other)
    {K : World → World → Prop} (hK : World.Coupling K) : World.Couples K access other := by
  obtain ⟨⟨connection, audit⟩, password⟩ := access
  obtain ⟨⟨_, audit'⟩, _⟩ := other
  obtain ⟨rfl, rfl⟩ := h
  exact ⟨rfl, rfl, fun hw => hK.happened hw _⟩

namespace CommandLine

variable {w v : World}

/-! ### Records and correlations -/

theorem record_coupled (a : Attempt) (failure : Option Error) :
    Coupled World.Audited Eq (a.record failure) (a.record failure) := by
  have hlines {added : List Happening} (h : ∀ x ∈ added, ∃ toErrors markup, x = .line toErrors markup) :
      ∀ x ∈ added, x.isLine = true := by
    intro x hx
    obtain ⟨_, _, rfl⟩ := h x hx
    rfl
  intro w v h
  obtain ⟨d, added, hrecord, hadded⟩ := Act.record_ok h.left (a.event w.now failure)
  obtain ⟨e, more, hother, hmore⟩ := Act.record_ok h.right (a.event v.now failure)
  rw [CoupledFrom, record_apply, record_apply, hrecord, hother]
  exact ⟨.ok rfl, h.same.beside (hlines hadded) (hlines hmore), h.left, h.right⟩

/-- Which correlations are open makes no difference to whether records fail. -/
theorem isSound_correlations {u : World} (h : w.IsSound) (f : List String → List String)
    (hu : u.trail = w.trail.map fun t => { t with correlations := f t.correlations }) : u.IsSound := by
  intro t ht
  rw [hu] at ht
  obtain ⟨s, hs, rfl⟩ := Option.mem_map.mp ht
  exact h s hs

theorem audited_correlating (h : World.Audited w v) (operation : String) :
    World.Audited (correlating operation w) (correlating operation v) := by
  refine ⟨⟨h.same.seen, ?_⟩, isSound_correlations h.left (_ :: ·) rfl, isSound_correlations h.right (_ :: ·) rfl⟩
  unfold correlating
  rw [h.same.rest]

theorem audited_uncorrelated (h : World.Audited w v) : World.Audited (uncorrelated w) (uncorrelated v) := by
  refine ⟨⟨h.same.seen, ?_⟩, isSound_correlations h.left (·.drop 1) rfl,
    isSound_correlations h.right (·.drop 1) rfl⟩
  unfold uncorrelated
  rw [h.same.rest]

theorem audited_coupling : Coupling World.Audited where
  toCoupling := World.Audited.coupling
  record := record_coupled
  correlated operation ha w v h := by
    obtain ⟨hresult, hafter⟩ := ha _ _ (audited_correlating h operation)
    rw [CoupledFrom, correlated_apply, correlated_apply]
    exact ⟨hresult, audited_uncorrelated hafter⟩

/-! ### Trails of a configuration -/

/-- If a configuration is loaded, its trail can be opened. -/
def OpensTrail (i : Invocation) (w : World) : Prop :=
  ∀ access, i.access w = .ok access → access.settings.audit.IsOpenable

theorem isSound_ofSettings {i : Invocation} (hopens : OpensTrail i w) {access : Access}
    (h : i.access w = .ok access) (ticket : Nat) : (Trail.ofSettings access.settings.audit ticket).IsSound :=
  Trail.isSound_ofSettings (Access.isAccepted_of_load h).audit (hopens access h) ticket

theorem isSound_trailed {i : Invocation} (hopens : OpensTrail i w) {access : Access} (h : i.access w = .ok access) :
    (trailed access w).IsSound :=
  World.isSound_of_trail (Access.isAccepted_of_load h).audit (hopens access h) rfl

/-- Configurations that differ in the settings of the trail at most are loaded side by side, each with a trail
of its own. -/
theorem audited_coupled_from {i : Invocation} (hload : Agreed Access.SameButAudit (i.access w) (i.access v))
    (hopens : OpensTrail i w) (hopens' : OpensTrail i v) (h : World.Audited w v) :
    CoupledFrom World.Audited (World.Couples World.Audited) w v (audited i) (audited i) := by
  unfold CoupledFrom
  rcases haccess : i.access w with f | access <;> rcases hother : i.access v with g | other <;>
    rw [haccess, hother] at hload
  case error.error =>
    cases hload
    rw [audited_error haccess, audited_error hother]
    exact ⟨.error f, h⟩
  case ok.ok =>
    cases hload with
    | ok hsame =>
        have htrailed : (trailed access w).SameButAudit (trailed other v) :=
          ⟨h.same.seen, by unfold trailed; rw [h.same.rest]⟩
        rw [audited_apply haccess, audited_apply hother]
        exact ⟨.ok (hsame.couples World.Audited.coupling), htrailed, isSound_trailed hopens haccess,
          isSound_trailed hopens' hother⟩
  all_goals cases hload

/-! ### Commands -/

/-- Whether a task is one that leaves a record. -/
def Task.isAudited : Task → Bool
  | .create _ | .update _ _ | .delete _ | .adopt _ => true
  | _ => false

theorem questioned_audited (h : World.Audited w v) (i : Invocation) (name : String) :
    World.Audited (questioned i name w) (questioned i name v) := by
  unfold questioned
  split
  · obtain ⟨hsame, hleft, hright⟩ := World.Audited.coupling.happened h (.ask (Console.confirmation _ false))
    refine ⟨⟨hsame.seen, ?_⟩, hleft, hright⟩
    unfold asked
    rw [h.same.rest]
  · exact h

theorem access_questioned (i : Invocation) (name : String) (w : World) :
    i.access (questioned i name w) = i.access w := by
  unfold questioned
  split <;> rfl

theorem perform_coupled {i : Invocation} (hload : Agreed Access.SameButAudit (i.access w) (i.access v))
    (hopens : OpensTrail i w) (hopens' : OpensTrail i v) (h : World.Audited w v) {task : Task}
    (htask : task.isAudited = true) : CoupledFrom World.Audited Eq w v (perform i task) (perform i task) := by
  have haudited := audited_coupled_from hload hopens hopens' h
  cases task with
  | create desired => exact create_coupled audited_coupling haudited desired
  | update wanted latest => exact update_coupled audited_coupling haudited h wanted latest
  | delete name =>
      have hquestioned := questioned_audited h i name
      have hkeyboard : v.keyboard = w.keyboard := by rw [h.same.rest]
      refine delete_coupled audited_coupling hkeyboard hquestioned (audited_coupled_from ?_ ?_ ?_ hquestioned)
      · rwa [access_questioned, access_questioned]
      · rwa [OpensTrail, access_questioned]
      · rwa [OpensTrail, access_questioned]
  | adopt name => exact adopt_coupled audited_coupling haudited name
  | _ => cases htask

/-- Auditing changes nothing about what a command does. In two worlds that differ in the files and in what
is loaded for the audit trail, a creation, an update, a deletion or an adoption comes to the same result, and
so to the same exit code, takes the same locks and sends the same statements in the same connections, and
leaves the same catalog; and no record fails, whatever stands in its way on the disk. The path of a trail
that is kept has to be one that can be passed to the operating system. -/
theorem auditing_changes_nothing {args : List String} {i : Invocation} {task : Task}
    (hargs : Command.ofArguments w.disk args = .ok (.task i task))
    (hargs' : Command.ofArguments v.disk args = .ok (.task i task)) (htask : task.isAudited = true)
    (hload : Agreed Access.SameButAudit (i.access w) (i.access v)) (hopens : OpensTrail i w)
    (hopens' : OpensTrail i v) (h : World.Audited w v) :
    (run args w).1 = (run args v).1 ∧ World.Audited (run args w).2 (run args v).2 ∧
      ∀ access, i.access w = .ok access ∨ i.access v = .ok access → ∀ ticket actor event d,
        ∃ mention e, (Trail.ofSettings access.settings.audit ticket).record actor event d = (.ok mention, e) := by
  have hstart : World.Audited { w with console := i.console } { v with console := i.console } :=
    ⟨⟨h.same.seen, by rw [h.same.rest]⟩, h.left, h.right⟩
  obtain ⟨hresult, hafter⟩ := perform_coupled (w := { w with console := i.console })
    (v := { v with console := i.console }) hload hopens hopens' hstart htask
  rw [run_task hargs, run_task hargs']
  refine ⟨hresult.eq, hafter, fun access haccess ticket => Trail.record_ok ?_⟩
  exact haccess.elim (isSound_ofSettings hopens · ticket) (isSound_ofSettings hopens' · ticket)

/-! ### A trail that cannot be opened -/

/-- If the path of the trail cannot be passed to the operating system, a creation that was carried out ends
with a fault: the record of it fails. -/
theorem create_unopenable {i : Invocation} {access : Access} (haccess : i.access w = .ok access)
    (hw : w.Unlocked) {desired : Declared} {found : Option Observed} {u : World}
    (hcreated : Lifecycle.create access desired (opening access w) = (.ok found, u))
    (henabled : access.settings.audit.enabled = true) (hpath : access.settings.audit.logPath.hasNul = true) {d : Disk}
    (hparent : Disk.makeDirectories access.settings.audit.logPath.parent w.disk = (.ok (), d)) :
    create i desired w = (.error (.fault (.disk .nulInPath)), { closed u with disk := d }) := by
  have hsession := session_trailed access (Lifecycle.create access desired) w
  have hattends := Leads.of_map (Lifecycle.Call.run_attends access (.create desired)) (opening access w)
  rw [hcreated] at hsession hattends
  obtain ⟨hdisk, -, ids, htrail⟩ := ((Underway.opening access w).attends hw hattends).closed
  have hrecord : (creation access desired).record none (closed u) =
      (.error (.fault (.disk .nulInPath)), { closed u with disk := d }) := by
    rw [record_apply]
    refine Act.record_error htrail (Trail.record_hasNul henabled hpath ?_ _ _)
    rw [hdisk]
    exact hparent
  refine (create_works i desired).fault ?_
  rw [bind_ok (audited_apply haccess), Attempt.carriedOut, bind_ok (recordingErrors_ok hsession),
    bind_error hrecord]

/-- If the path can be passed to the operating system, a creation that was carried out and read back ends
well. -/
theorem create_openable {i : Invocation} {access : Access} (haccess : i.access w = .ok access)
    (hopens : OpensTrail i w) (hw : w.Unlocked) {desired : Declared} {o : Observed} {u : World}
    (hcreated : Lifecycle.create access desired (opening access w) = (.ok (some o), u)) :
    (create i desired w).1 = .ok () := by
  have hsession := session_trailed access (Lifecycle.create access desired) w
  have hattends := Leads.of_map (Lifecycle.Call.run_attends access (.create desired)) (opening access w)
  rw [hcreated] at hsession hattends
  obtain ⟨-, -, ids, htrail⟩ := ((Underway.opening access w).attends hw hattends).closed
  have hsound : (closed u).IsSound :=
    World.isSound_of_trail (Access.isAccepted_of_load haccess).audit (hopens access haccess) htrail
  obtain ⟨d, added, hrecord, -⟩ := Act.record_ok hsound ((creation access desired).event (closed u).now none)
  have hwork : (do
      let access ← audited i
      (creation access desired).carriedOut (session (Lifecycle.create access desired))) w =
        (.ok (some o), { closed u with disk := d, trace := (closed u).trace ++ added }) := by
    rw [bind_ok (audited_apply haccess), Attempt.carriedOut, bind_ok (recordingErrors_ok hsession),
      bind_ok ((record_apply ..).trans hrecord)]
    rfl
  exact congrArg Prod.fst (bind_ok (reported_ok hwork) _)

/-- A server without a configuration. -/
def unconfigured : World := World.ofServer ⟨.fresh, 160002, [], []⟩

/-- Settings that keep the trail in a file of the working directory. -/
def loggingTo (text : String) : Settings := ⟨.default, ⟨true, .ofText text, 100, 1⟩⟩

theorem access_loggingTo (text : String) :
    creating.access (configured (Text.encodeUtf8 (loggingTo text).toYaml)) = .ok ⟨loggingTo text, none⟩ := by
  have hwritable : (loggingTo text).isWritable = true := by
    have hnumbers : Settings.isWritable ⟨.default, ⟨true, ⟨0, []⟩, 100, 1⟩⟩ = true := by decide +kernel
    exact hnumbers
  exact access_configured rfl ⟨Connection.isAccepted_default, Path.isClean_ofText _, Int.le.intro 99 rfl,
    Int.le_refl 1⟩ hwritable

theorem access_unconfigured : creating.access unconfigured = .ok ⟨.default, none⟩ := rfl

theorem opensTrail_unconfigured : OpensTrail creating unconfigured := by
  intro access h _
  obtain rfl := Except.ok.inj (access_unconfigured.symm.trans h)
  decide +kernel

theorem audited_configured (bytes : List UInt8) : World.Audited (configured bytes) unconfigured :=
  ⟨⟨rfl, rfl⟩, fun t ht => absurd ht (by simp [configured, World.ofServer]),
    fun t ht => absurd ht (by simp [unconfigured, World.ofServer])⟩

theorem auditing_changes_nothing_create :
    let w := configured (Text.encodeUtf8 (loggingTo "audit.log").toYaml)
    let v := unconfigured
    let task : Task := .create ⟨"hstore", none, none⟩
    Command.ofArguments w.disk creatingArguments = .ok (.task creating task) ∧
      Command.ofArguments v.disk creatingArguments = .ok (.task creating task) ∧ task.isAudited = true ∧
      Agreed Access.SameButAudit (creating.access w) (creating.access v) ∧ OpensTrail creating w ∧
      OpensTrail creating v ∧ World.Audited w v ∧
      (run creatingArguments w).1 = (run creatingArguments v).1 ∧
      World.Audited (run creatingArguments w).2 (run creatingArguments v).2 ∧
      ∀ ticket actor event d, ∃ mention e,
        (Trail.ofSettings (loggingTo "audit.log").audit ticket).record actor event d = (.ok mention, e) := by
  have haccess := access_loggingTo "audit.log"
  generalize Text.encodeUtf8 (loggingTo "audit.log").toYaml = bytes at haccess ⊢
  intro w v task
  have hargs : Command.ofArguments w.disk creatingArguments = .ok (.task creating task) :=
    ofArguments_creating bytes
  have hargs' : Command.ofArguments v.disk creatingArguments = .ok (.task creating task) := rfl
  have hload : Agreed Access.SameButAudit (creating.access w) (creating.access v) := by
    rw [haccess, access_unconfigured]
    exact .ok ⟨rfl, rfl⟩
  have hopens : OpensTrail creating w := by
    intro access h _
    obtain rfl := Except.ok.inj (haccess.symm.trans h)
    decide +kernel
  have haudited := audited_configured bytes
  obtain ⟨hresult, hafter, hrecords⟩ :=
    auditing_changes_nothing hargs hargs' rfl hload hopens opensTrail_unconfigured haudited
  exact ⟨hargs, hargs', rfl, hload, hopens, opensTrail_unconfigured, haudited, hresult, hafter,
    hrecords _ (.inl haccess)⟩

/-- Whatever the files and the settings of the trail are, the server carries out what a creation asks for. -/
theorem created (d : Disk) (audit : AuditSettings) :
    ∃ o u, Lifecycle.create ⟨⟨.default, audit⟩, none⟩ ⟨"hstore", none, none⟩
        (opening ⟨⟨.default, audit⟩, none⟩ { unconfigured with disk := d, console := creating.console }) =
          (.ok (some o), u) ∧
      u.server.catalog.installation? "hstore" = some ⟨"public", "1.8"⟩ := by
  let op := Lifecycle.create ⟨.default, none⟩ ⟨"hstore", none, none⟩
  let v := opening ⟨.default, none⟩ { unconfigured with console := creating.console }
  have hfound : (op v).1.toOption.join.isSome = true := by decide +kernel
  have hinstalled : (op v).2.server.catalog.installation? "hstore" = some ⟨"public", "1.8"⟩ := by decide +kernel
  have hsame : Access.SameButAudit ⟨⟨.default, audit⟩, none⟩ ⟨.default, none⟩ := ⟨rfl, rfl⟩
  have hcoupling := World.SameButAudit.coupling
  obtain ⟨hresult, hafter⟩ := Lifecycle.create_coupled hcoupling (hsame.couples hcoupling) ⟨"hstore", none, none⟩
    (opening ⟨⟨.default, audit⟩, none⟩ { unconfigured with disk := d, console := creating.console }) v ⟨rfl, rfl⟩
  rw [hcoupling.server hafter] at hinstalled
  rw [← hresult.eq] at hfound
  generalize Lifecycle.create ⟨⟨.default, audit⟩, none⟩ _ _ = after at hfound hinstalled ⊢
  obtain ⟨f | _ | o, u⟩ := after
  · cases hfound
  · cases hfound
  · exact ⟨o, u, rfl, hinstalled⟩

/-- The path of a trail is accepted although it cannot be passed to the operating system. Then a creation that
is carried out ends as if it had failed, while without such a trail it ends well. -/
theorem unopenable_trail_hides_creation :
    let w := configured (Text.encodeUtf8 (loggingTo "a\x00b").toYaml)
    let v := unconfigured
    let task : Task := .create ⟨"hstore", none, none⟩
    Command.ofArguments w.disk creatingArguments = .ok (.task creating task) ∧
      Command.ofArguments v.disk creatingArguments = .ok (.task creating task) ∧ task.isAudited = true ∧
      Agreed Access.SameButAudit (creating.access w) (creating.access v) ∧ World.Audited w v ∧
      (run creatingArguments w).2.server.catalog.installation? "hstore" = some ⟨"public", "1.8"⟩ ∧
      exitCode (run creatingArguments w).1 = 1 ∧ exitCode (run creatingArguments v).1 = 0 := by
  have haccess := access_loggingTo "a\x00b"
  generalize Text.encodeUtf8 (loggingTo "a\x00b").toYaml = bytes at haccess ⊢
  have hload : Agreed Access.SameButAudit (creating.access (configured bytes)) (creating.access unconfigured) := by
    rw [haccess, access_unconfigured]
    exact .ok ⟨rfl, rfl⟩
  have hunlocked (d : Disk) : World.Unlocked { unconfigured with disk := d, console := creating.console } :=
    fun key => ⟨rfl, rfl, rfl⟩
  obtain ⟨_, u, hcreated, hinstalled⟩ := created (configured bytes).disk (loggingTo "a\x00b").audit
  have hhidden := create_unopenable (w := { configured bytes with console := creating.console }) haccess
    (hunlocked _) hcreated rfl (by decide +kernel) (d := (configured bytes).disk) rfl
  obtain ⟨_, _, hcreated', -⟩ := created unconfigured.disk .default
  have hshown := create_openable (w := { unconfigured with console := creating.console }) access_unconfigured
    opensTrail_unconfigured (hunlocked _) hcreated'
  intro w v task
  have hargs : Command.ofArguments w.disk creatingArguments = .ok (.task creating task) :=
    ofArguments_creating bytes
  have hargs' : Command.ofArguments v.disk creatingArguments = .ok (.task creating task) := rfl
  refine ⟨hargs, hargs', rfl, hload, audited_configured bytes, ?_⟩
  rw [run_create hargs, run_create hargs']
  refine ⟨?_, congrArg (fun r => exitCode r.1) hhidden, congrArg exitCode hshown⟩
  exact (congrArg (fun r => r.2.server.catalog.installation? "hstore") hhidden).trans hinstalled

end CommandLine

end CatalogSteward
