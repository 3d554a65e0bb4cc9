import CatalogSteward.Proofs.CommandLine.Accounts
import CatalogSteward.Proofs.Settings.File

/-!
# What commands record

A command that may change something leaves one record of it: of a creation and of a deletion that is
confirmed in any case, of an update if it failed or sent a change, and of an adoption if it went well. The
record tells the action, the extension and whether the operation returned. A command that leaves no record
has changed neither a file nor the catalog.
-/

namespace CatalogSteward
open Act

namespace CommandLine

variable {α : Type}

/-! ### The commands -/

section
variable {access : Access} {w : World}

/-- What is attempted in a session is recorded in any case. -/
theorem carriedOut_recorded {a : Attempt} {op : Act α} (htarget : a.target = access.target)
    (hop : Leads (Attends access) op)
    (hsame : ∀ v : World, v.server.catalog.SameBut (Identifier.kept a.name) (op v).2.server.catalog)
    (hw : w.Unlocked)
    (hversion : ∀ text ∈ access.settings.connection.expectedVersion, Version.IsPlain text)
    (hserver : w.Reliably (a.carriedOut (session op) (trailed access w)).2) :
    Recorded access w (a.carriedOut (session op) (trailed access w)).2
      (some ⟨a.action, a.name, (op (opening access w)).1.isOk⟩) := by
  obtain ⟨hlast, hstatements⟩ :=
    carriedOut_allows (Heard.allowsAside _) a (session_heard op (trailed access w))
  have hattends := hop (opening access w)
  have hcatalog := hsame (opening access w)
  have hsession := session_trailed access op w
  change _ = (op (opening access w)).2.server at hlast
  change _ = (op (opening access w)).2.statements at hstatements
  rcases hresult : op (opening access w) with ⟨result, u⟩
  rw [hresult] at hattends hcatalog hsession hlast hstatements
  have hsent : (opening access w).Reliably u := by
    intro said hsaid
    exact hserver said (hstatements.trans hsaid)
  have herror : ∀ f, result = .error f → ∃ e, f = .error e := by
    rintro f rfl
    exact hattends.error hw hversion hsent
  have hunderway := ((Underway.opening access w).attends hw hattends).closed
  obtain ⟨l, hactor, hdescribes, hdisk⟩ := hunderway.record htarget (error? result)
  rw [error?_isNone herror] at hdescribes
  apply Recorded.of_log hactor hdescribes
  · rw [carriedOut_world hsession herror, hdisk]
  · rw [hlast]
    exact hcatalog

/-- An operation that changes nothing leaves the disk and the catalog as they were. -/
theorem session_reads {op : Act α} (hop : Leads (Attends access) op)
    (hqueries : ∀ v : World, v.Unlocked → (op v).2.changes = v.changes) (hw : w.Unlocked) :
    Recorded access w (session op w).2 none := by
  have hstart : ({ w with client := .start } : World).Unlocked := hw
  have hattends := hop { w with client := .start }
  have hcatalog := hattends.catalog hstart (hqueries _ hstart)
  obtain ⟨_, -, -, hapart⟩ := hattends hstart
  rw [session_apply]
  refine ⟨?_, hcatalog⟩
  unfold closed
  dsimp only
  rw [hapart]

theorem read_attends (access : Access) (name : String) :
    Leads (Attends access) (Lifecycle.read access name) :=
  .of_map (Lifecycle.Call.run_attends access (.read name))

theorem read_queries (access : Access) (name : String) {v : World} (hv : v.Unlocked) :
    (Lifecycle.read access name v).2.changes = v.changes := by
  rw [← Act.map_world Lifecycle.Answer.observed]
  exact Lifecycle.Call.run_asks (.read name) rfl access hv

/-- An update goes on within a correlation, once the extension has been read. -/
theorem updateInstalled_found {desired : Declared} {previous : Observed} {u v : World}
    {r : Except Failure (Observed × Lifecycle.Updated)}
    (h : Lifecycle.read access desired.name w = (.ok (some previous), u))
    (hwork : (updating access desired previous).carriedOutUpdate previous
      (Lifecycle.update access desired.name previous desired) (correlating "extension_update" u) = (r, v)) :
    updateInstalled access desired w = (r, uncorrelated v) := by
  have hcorrelated := correlated_apply "extension_update" ((updating access desired previous).carriedOutUpdate
    previous (Lifecycle.update access desired.name previous desired)) u
  rw [hwork] at hcorrelated
  rw [updateInstalled, bind_ok h]
  exact hcorrelated

theorem updateInstalled_some {desired : Declared} {previous : Observed} {u : World}
    (h : Lifecycle.read access desired.name w = (.ok (some previous), u)) :
    (updateInstalled access desired w).2 = uncorrelated (((updating access desired previous).carriedOutUpdate
      previous (Lifecycle.update access desired.name previous desired)) (correlating "extension_update" u)).2 :=
  congrArg Prod.snd (updateInstalled_found h Prod.mk.eta.symm)

theorem updateInstalled_none {desired : Declared} {u : World}
    (h : Lifecycle.read access desired.name w = (.ok none, u)) : (updateInstalled access desired w).2 = u := by
  rw [updateInstalled, bind_ok h]
  rfl

/-- What is done to an extension that was found is recorded, unless it has changed nothing. -/
theorem carriedOutUpdate_recorded {desired : Declared} {previous : Observed} {v after : World}
    {result : Except Failure Lifecycle.Updated} (hunderway : Underway access w v)
    (hcatalog : v.server.catalog = w.server.catalog) (hv : v.Unlocked)
    (hversion : ∀ text ∈ access.settings.connection.expectedVersion, Version.IsPlain text)
    (hserver : v.Reliably ((updating access desired previous).carriedOutUpdate previous
      (Lifecycle.update access desired.name previous desired) v).2)
    (h : Lifecycle.update access desired.name previous desired v = (result, after)) :
    Recorded access w ((updating access desired previous).carriedOutUpdate previous
        (Lifecycle.update access desired.name previous desired) v).2
      (if result.isOk ∧ after.changes = v.changes then none else some ⟨.update, desired.name, result.isOk⟩) := by
  have hheard : LeadsFrom (Heard after) v (Lifecycle.update access desired.name previous desired) := by
    unfold LeadsFrom
    rw [h]
    exact ⟨rfl, rfl⟩
  obtain ⟨hlast, hstatements⟩ :=
    carriedOutUpdate_allows (Heard.allowsAside after) (updating access desired previous) previous hheard
  have hattends : Attends access v (Act.failure? result) after := by
    have hrun := Leads.of_map (Lifecycle.Call.run_attends access (.update desired.name previous desired)) v
    rwa [h] at hrun
  have hsame : w.server.catalog.SameBut (Identifier.kept desired.name) after.server.catalog := by
    have hcall := Lifecycle.Call.run_sameBut_kept access (.update desired.name previous desired) v
    rw [Lifecycle.Call.run, Act.map_world, h, hcatalog] at hcall
    exact hcall
  have herror : ∀ f, result = .error f → ∃ e, f = .error e := by
    rintro f rfl
    exact hattends.error hv hversion fun said hsaid => hserver said (hstatements.trans hsaid)
  have hafter := hunderway.attends hv hattends
  by_cases hquiet : result.isOk ∧ after.changes = v.changes
  · obtain ⟨hok, hchanges⟩ := hquiet
    rw [if_pos ⟨hok, hchanges⟩]
    cases result with
    | error f => cases hok
    | ok updated =>
        obtain rfl := (Lifecycle.update_changes hv h).mp hchanges
        rw [carriedOutUpdate_unchanged h]
        exact ⟨hafter.disk, (hattends.catalog hv hchanges).trans hcatalog⟩
  · have hresult : result ≠ .ok .unchanged := by
      rintro rfl
      exact hquiet ⟨rfl, (Lifecycle.update_changes hv h).mpr rfl⟩
    obtain ⟨l, hactor, hdescribes, hdisk⟩ :=
      hafter.record (a := updating access desired previous) rfl (error? result)
    rw [error?_isNone herror] at hdescribes
    rw [if_neg hquiet]
    apply Recorded.of_log hactor hdescribes
    · rw [carriedOutUpdate_world h previous hresult herror, hdisk]
    · rw [hlast]
      exact hsame

theorem updateInstalled_recorded (desired : Declared) (hw : w.Unlocked)
    (hversion : ∀ text ∈ access.settings.connection.expectedVersion, Version.IsPlain text)
    (hserver : w.Reliably (session (updateInstalled access desired) (trailed access w)).2) :
    Recorded access w (session (updateInstalled access desired) (trailed access w)).2
      (updateAccount? access desired w) := by
  have hread := read_attends access desired.name (opening access w)
  have hqueries := read_queries access desired.name (v := opening access w) hw
  have hheard := session_heard (updateInstalled access desired) (trailed access w)
  have hsession := session_trailed access (updateInstalled access desired) w
  have hsent : (opening access w).Reliably (updateInstalled access desired (opening access w)).2 :=
    fun said hsaid => hserver said (hheard.2.trans hsaid)
  have hfound : Recorded access w (updateInstalled access desired (opening access w)).2
      (updateAccount? access desired w) := by
    unfold updateAccount?
    rcases hresult : Lifecycle.read access desired.name (opening access w) with ⟨f | _ | previous, u⟩
    all_goals
      rw [hresult] at hread hqueries
      have hcatalog : u.server.catalog = w.server.catalog := hread.catalog hw hqueries
      have hunderway := (Underway.opening access w).attends hw hread
    · have hfailed : (updateInstalled access desired (opening access w)).2 = u := by
        rw [updateInstalled, bind_error hresult]
      rw [hfailed]
      exact ⟨hunderway.disk, hcatalog⟩
    · rw [updateInstalled_none hresult]
      exact ⟨hunderway.disk, hcatalog⟩
    · rw [updateInstalled_some hresult]
      obtain ⟨_, -, hu, -⟩ := hread hw
      rw [updateInstalled_some hresult] at hsent
      have hserver' := hread.reliably hw hsent
      rcases hupdate : Lifecycle.update access desired.name previous desired
        (correlating "extension_update" u) with ⟨result, after⟩
      have hrecorded := carriedOutUpdate_recorded (hunderway.correlating "extension_update") hcatalog hu hversion
        hserver' hupdate
      dsimp only
      rw [hupdate]
      exact hrecorded.congr rfl rfl
  rw [hsession]
  exact hfound.congr rfl rfl

theorem create_recorded {i : Invocation} (haccess : i.access w = .ok access) (desired : Declared)
    (hw : w.Unlocked)
    (hversion : ∀ text ∈ access.settings.connection.expectedVersion, Version.IsPlain text)
    (hserver : w.Reliably (create i desired w).2) :
    Recorded access w (create i desired w).2 (account? i access w (.create desired)) := by
  apply (create_works i desired).recorded hserver
  intro hworked
  rw [bind_ok (audited_apply haccess)] at hworked ⊢
  apply carriedOut_recorded rfl _ _ hw hversion hworked
  · exact .of_map (Lifecycle.Call.run_attends access (.create desired))
  · intro v
    have hsame := Lifecycle.Call.run_sameBut_kept access (.create desired) v
    rwa [Lifecycle.Call.run, Act.map_world] at hsame

/-- The server hears no more of a creation than its operation says. -/
theorem create_heard {i : Invocation} (haccess : i.access w = .ok access) (desired : Declared) :
    LeadsFrom (Heard (Lifecycle.create access desired (opening access w)).2) w (create i desired) := by
  obtain ⟨-, hserver, hstatements⟩ := (create_works i desired).leaves w
  rw [bind_ok (audited_apply haccess)] at hserver hstatements
  obtain ⟨hworked, hsent⟩ := carriedOut_allows (Heard.allowsAside _) (creation access desired)
    (session_heard (Lifecycle.create access desired) (trailed access w))
  exact ⟨hserver.trans hworked, hstatements.trans hsent⟩

/-- A creation that expects a version without a number is not recorded. -/
theorem create_refused {i : Invocation} (haccess : i.access w = .ok access) {text : String}
    (hexpected : access.settings.connection.expectedVersion = some text) {refusal : Decimal.Refusal}
    (hparse : Version.parse text = .error (.notNumber refusal)) (desired : Declared) :
    (create i desired w).2.disk = w.disk ∧ (create i desired w).2.statements = w.statements := by
  have hrefused := Lifecycle.create_refused (w := opening access w) rfl hexpected hparse desired
  have hsession := session_trailed access (Lifecycle.create access desired) w
  obtain ⟨-, hstatements⟩ := create_heard haccess desired
  rw [hrefused] at hsession hstatements
  obtain ⟨hdisk, -⟩ := (create_works i desired).leaves w
  rw [bind_ok (audited_apply haccess), carriedOut_fault hsession] at hdisk
  exact ⟨hdisk, hstatements⟩

theorem update_recorded {i : Invocation} (haccess : i.access w = .ok access) (wanted : Declared) (latest : Bool)
    (hw : w.Unlocked)
    (hversion : ∀ text ∈ access.settings.connection.expectedVersion, Version.IsPlain text)
    (hserver : w.Reliably (update i wanted latest w).2) :
    Recorded access w (update i wanted latest w).2 (account? i access w (.update wanted latest)) := by
  rw [account?]
  cases hconflicting : conflicting wanted latest with
  | true =>
      have htells := update_tells i hconflicting w
      rw [if_pos rfl]
      constructor
      · rw [htells.rest]
      · rw [htells.rest]
  | false =>
      rw [if_neg Bool.false_ne_true]
      apply (update_works i hconflicting).recorded hserver
      intro hworked
      rw [bind_ok (audited_apply haccess)] at hworked ⊢
      exact updateInstalled_recorded _ hw hversion hworked

theorem deleteConfirmed_recorded {i : Invocation} (haccess : i.access w = .ok access) (name : String)
    (hw : w.Unlocked)
    (hversion : ∀ text ∈ access.settings.connection.expectedVersion, Version.IsPlain text)
    (hserver : w.Reliably (deleteConfirmed i name (questioned i name w)).2) :
    Recorded access w (deleteConfirmed i name (questioned i name w)).2 (some ⟨.delete, name,
      (Lifecycle.delete access name (opening access (questioned i name w))).1.isOk⟩) := by
  have hstatements := Aside.statements (questioned_aside i name w)
  obtain ⟨keyboard, added, hquestioned, -⟩ := questioned_eq i name w
  rw [hquestioned] at hserver hstatements ⊢
  generalize hv : ({ w with keyboard := keyboard, trace := w.trace ++ added } : World) = v at hserver hstatements ⊢
  have hreliably {u : World} (h : w.Reliably u) : v.Reliably u := by
    rintro said hsaid
    rw [hstatements] at hsaid
    exact hv ▸ h said hsaid
  have hfound : i.access v = .ok access := hv ▸ haccess
  have hrecorded : Recorded access v (deleteConfirmed i name v).2 (some ⟨.delete, name,
      (Lifecycle.delete access name (opening access v)).1.isOk⟩) := by
    apply (deleteConfirmed_works i name).recorded (hreliably hserver)
    intro hworked
    rw [bind_ok (audited_apply hfound)] at hworked ⊢
    apply carriedOut_recorded rfl _ _ (hv ▸ hw) hversion hworked
    · have hrun : Leads (Attends access) (do
          let _ ← Lifecycle.delete access name
          return Lifecycle.Answer.deleted) :=
        Lifecycle.Call.run_attends access (.delete name)
      exact .of_map hrun
    · intro u
      have hsame := Lifecycle.Call.run_sameBut_kept access (.delete name) u
      rw [show (Lifecycle.Call.delete name).run access = (do
          let _ ← Lifecycle.delete access name
          return Lifecycle.Answer.deleted) from rfl, Act.map_world fun _ => Lifecycle.Answer.deleted] at hsame
      exact hsame
  rw [← hv] at hrecorded ⊢
  exact hrecorded

theorem delete_recorded {i : Invocation} (haccess : i.access w = .ok access) (name : String) (hw : w.Unlocked)
    (hversion : ∀ text ∈ access.settings.connection.expectedVersion, Version.IsPlain text)
    (hserver : w.Reliably (delete i name w).2) :
    Recorded access w (delete i name w).2 (account? i access w (.delete name)) := by
  rw [account?]
  cases hproceeds : proceeds i w with
  | false =>
      rw [if_neg Bool.false_ne_true, delete_cancelled hproceeds]
      obtain ⟨keyboard, added, hquestioned, -⟩ := questioned_eq i name w
      rw [hquestioned]
      exact ⟨rfl, rfl⟩
  | true =>
      rw [delete_proceeds hproceeds] at hserver ⊢
      rw [if_pos rfl]
      exact deleteConfirmed_recorded haccess name hw hversion hserver

theorem adopt_recorded {i : Invocation} (haccess : i.access w = .ok access) (name : String) (hw : w.Unlocked)
    (hserver : w.Reliably (adopt i name w).2) :
    Recorded access w (adopt i name w).2 (account? i access w (.adopt name)) := by
  have hop : Leads (Attends access) (Lifecycle.adopt access name) :=
    .of_map (Lifecycle.Call.run_attends access (.adopt name))
  have hattends := hop (opening access w)
  have hqueries : (Lifecycle.adopt access name (opening access w)).2.changes = w.changes := by
    rw [← Act.map_world fun o => Lifecycle.Answer.observed (some o)]
    exact Lifecycle.Call.run_asks (.adopt name) rfl access (w := opening access w) hw
  have hsession := session_trailed access (Lifecycle.adopt access name) w
  apply (adopt_works i name).recorded hserver
  intro _
  rw [account?, importing, bind_ok (audited_apply haccess)]
  rcases hresult : Lifecycle.adopt access name (opening access w) with ⟨f | observed, u⟩
  all_goals
    rw [hresult] at hattends hqueries hsession
    have hcatalog : u.server.catalog = w.server.catalog := hattends.catalog hw hqueries
    have hunderway := ((Underway.opening access w).attends hw hattends).closed
  · rw [if_neg (by simp [Except.isOk, Except.toBool]), bind_error hsession]
    exact ⟨hunderway.disk, hcatalog⟩
  · obtain ⟨l, hactor, hdescribes, hdisk⟩ :=
      hunderway.record (a := ⟨.adopt, name, access.target, observed.toJson⟩) rfl none
    rw [if_pos (by rfl), bind_ok hsession]
    apply Recorded.of_log hactor hdescribes
    · rw [record_pure, hdisk]
    · rw [record_pure, (attempt_record_aside _ none _).server]
      change w.server.catalog.SameBut _ u.server.catalog
      rw [hcatalog]
      exact .refl _ _

/-- A command that only asks, in one session. -/
theorem reading_recorded {i : Invocation} (haccess : i.access w = .ok access) {command : Act Unit}
    {op : Access → Act α} (h : Works command (do
      let access ← loadAccess i
      session (op access)))
    (hop : Leads (Attends access) (op access))
    (hqueries : ∀ v : World, v.Unlocked → (op access v).2.changes = v.changes) (hw : w.Unlocked)
    (hserver : w.Reliably (command w).2) : Recorded access w (command w).2 none := by
  apply h.recorded hserver
  intro _
  rw [bind_ok ((loadAccess_apply i w).trans (by rw [haccess]))]
  exact session_reads hop hqueries hw

theorem list_recorded {i : Invocation} (haccess : i.access w = .ok access) (hw : w.Unlocked)
    (hserver : w.Reliably (list i w).2) : Recorded access w (list i w).2 none := by
  have hqueries : Emits (fun h => h.isChange = false) (Gateway.list access) := Gateway.list_queries access
  apply (list_works i).recorded hserver
  intro _
  rw [bind_ok ((loadAccess_apply i w).trans (by rw [haccess])),
    Act.map_world fun extensions => (access, extensions)]
  apply session_reads (.locked .shared access.target (Gateway.list_converses access)) _ hw
  intro v _
  exact (hqueries.locked .shared access.target rfl rfl).changes v

end

/-! ### The program -/

/-- Whether a task is about extensions. -/
def Task.isOnExtension : Task → Bool
  | .displaySettings | .initSettings _ | .validateSettings => false
  | _ => true

theorem run_create {args : List String} {w : World} {i : Invocation} {desired : Declared}
    (h : Command.ofArguments w.disk args = .ok (.task i (.create desired))) :
    run args w = create i desired { w with console := i.console } := run_task h

theorem perform_recorded {i : Invocation} {access : Access} {w : World} (haccess : i.access w = .ok access)
    {task : Task} (htask : task.isOnExtension = true) (hw : w.Unlocked)
    (hversion : ∀ text ∈ access.settings.connection.expectedVersion, Version.IsPlain text)
    (hserver : w.Reliably (perform i task w).2) :
    Recorded access w (perform i task w).2 (account? i access w task) := by
  cases task with
  | create desired => exact create_recorded haccess desired hw hversion hserver
  | display name =>
      apply reading_recorded haccess (display_works i name) (read_attends access name) _ hw hserver
      exact fun v hv => read_queries access name hv
  | probe name =>
      apply reading_recorded haccess (probe_works i name) _ _ hw hserver
      · exact .of_map (Lifecycle.Call.run_attends access (.installed name))
      · intro v hv
        rw [← Act.map_world Lifecycle.Answer.installed]
        exact Lifecycle.Call.run_asks (.installed name) rfl access hv
  | update wanted latest => exact update_recorded haccess wanted latest hw hversion hserver
  | delete name => exact delete_recorded haccess name hw hversion hserver
  | adopt name => exact adopt_recorded haccess name hw hserver
  | list => exact list_recorded haccess hw hserver
  | displaySettings => cases htask
  | initSettings force => cases htask
  | validateSettings => cases htask

/-- Every command on an extension records what its account says, and nothing else, if the configuration can
be loaded and expects no version with too many digits, no lock is held, and the server does no worse than
refuse. There is an account of a creation and of a deletion that is confirmed in any case, of an update that
failed or sent a change, and of an adoption that went well; it says whether the operation returned. -/
theorem commands_are_recorded {args : List String} {w : World} {i : Invocation} {task : Task} {access : Access}
    (hcommand : Command.ofArguments w.disk args = .ok (.task i task)) (htask : task.isOnExtension = true)
    (haccess : i.access w = .ok access)
    (hversion : ∀ text ∈ access.settings.connection.expectedVersion, Version.IsPlain text)
    (hunlocked : w.Unlocked) (hserver : w.Reliably (run args w).2) :
    Recorded access w (run args w).2 (account? i access { w with console := i.console } task) := by
  rw [run_task hcommand] at hserver ⊢
  exact perform_recorded (w := { w with console := i.console }) haccess htask hunlocked hversion hserver

theorem commands_are_recorded_create :
    let w := World.ofServer ⟨.fresh, 160002, [], []⟩
    let args := ["extension", "create", "hstore"]
    let i : Invocation := .ofOptions false 0 false false none
    let access : Access := ⟨.default, none⟩
    let task : Task := .create ⟨"hstore", none, none⟩
    Command.ofArguments w.disk args = .ok (.task i task) ∧ task.isOnExtension = true ∧ i.access w = .ok access ∧
      (∀ text ∈ access.settings.connection.expectedVersion, Version.IsPlain text) ∧ w.Unlocked ∧
      w.Reliably (run args w).2 ∧ Recorded access w (run args w).2 (some ⟨.create, "hstore", true⟩) := by
  intro w args i access task
  have hcommand : Command.ofArguments w.disk args = .ok (.task i task) := rfl
  have haccess : i.access w = .ok access := rfl
  have hversion : ∀ text ∈ access.settings.connection.expectedVersion, Version.IsPlain text := by
    intro text htext
    cases htext
  have hunlocked : w.Unlocked := fun key => ⟨rfl, rfl, rfl⟩
  have hsent : (Lifecycle.create access ⟨"hstore", none, none⟩
      (opening access { w with console := i.console })).2.statements.map Prod.fst =
      [(Statement.create "hstore" none none).text, (Query.entry "hstore").text] := by decide +kernel
  have hserver : w.Reliably (run args w).2 := by
    obtain ⟨-, hheard⟩ := create_heard (w := { w with console := i.console }) haccess ⟨"hstore", none, none⟩
    rw [← run_create hcommand] at hheard
    intro said hsaid
    have htexts := (congrArg (List.map Prod.fst) (hsaid.symm.trans hheard)).trans hsent
    obtain ⟨⟨_, _⟩, _, rfl, rfl, hsecond⟩ := List.map_eq_cons_iff.mp htexts
    obtain ⟨⟨_, _⟩, _, rfl, rfl, hnone⟩ := List.map_eq_cons_iff.mp hsecond
    obtain rfl := List.map_eq_nil_iff.mp hnone
    have hcreated : w.server.catalog.apply (Statement.create "hstore" none none).written =
      .ok (w.server.catalog.install "hstore" ⟨"public", "1.8"⟩) := rfl
    exact ⟨fun d => List.not_mem_nil, Server.fitsAll_readBack rfl hcreated (.entry "hstore") _ _⟩
  have haccount : account? i access { w with console := i.console } task =
    some ⟨.create, "hstore", true⟩ := by decide +kernel
  have hrecorded := commands_are_recorded hcommand rfl haccess hversion hunlocked hserver
  rw [haccount] at hrecorded
  exact ⟨hcommand, rfl, haccess, hversion, hunlocked, hserver, hrecorded⟩

/-! ### A version that has no number -/

/-- A version of so many digits that it has no number. -/
def overlongVersion : List Char := List.replicate 4301 '1'

theorem isDigit_overlongVersion : ∀ c ∈ overlongVersion, Decimal.IsDigit c := by
  unfold overlongVersion
  intro c hc
  obtain ⟨-, rfl⟩ := List.mem_replicate.mp hc
  decide

def overlong : Settings where
  connection := { Connection.default with expectedVersion := some (String.ofList overlongVersion) }
  audit := ⟨true, .ofText "audit.log", 100, 1⟩

theorem isAccepted_overlong : overlong.IsAccepted where
  connection :=
    { Connection.isAccepted_default with
      expectedVersion := by
        have hne : overlongVersion ≠ [] := List.cons_ne_nil _ _
        have hchecked := Version.checkVersion_digits hne isDigit_overlongVersion
        simpa [overlong] using Version.checkVersion_eq_ok_iff.mp hchecked }
  audit := ⟨Path.isClean_ofText _, by decide, by decide⟩

theorem isWritable_overlong : overlong.isWritable = true := by
  simp only [Settings.isWritable, Bool.and_eq_true]
  exact ⟨⟨Settings.isWritable_of_port (by decide), Settings.isWritable_of_port (by decide)⟩,
    Settings.isWritable_of_port (by decide)⟩

/-- A working directory with a configuration file and nothing else. -/
def configured (bytes : List UInt8) : World :=
  { World.ofServer ⟨.fresh, 160002, [], []⟩ with disk := ⟨[(["c.yaml"], .file bytes 0o644)]⟩ }

theorem access_of_load {i : Invocation} (hpath : i.configPath = .ofText "c.yaml") {bytes : List UInt8} {s : Settings}
    (h : Settings.load (.ofText "c.yaml") (configured bytes).disk = (.ok s, (configured bytes).disk)) :
    i.access (configured bytes) = .ok ⟨s, none⟩ := by
  have hsettings : Settings.loadOrDefault (.ofText "c.yaml") (configured bytes).disk =
      (.ok s, (configured bytes).disk) := h
  rw [Invocation.access, hpath]
  change ((Access.load _ _) (configured bytes).disk).1 = _
  rw [Access.load, run_bind hsettings]
  rfl

theorem access_configured {i : Invocation} (hpath : i.configPath = .ofText "c.yaml") {s : Settings}
    (h : s.IsAccepted) (hs : s.isWritable = true) :
    i.access (configured (Text.encodeUtf8 s.toYaml)) = .ok ⟨s, none⟩ := by
  generalize hbytes : Text.encodeUtf8 s.toYaml = bytes
  refine access_of_load hpath (Settings.load_toYaml h hs ?_)
  rw [hbytes]
  rfl

/-- The options of a creation with the configuration of the working directory. -/
def creating : Invocation := .ofOptions false 0 false false (some (.ofText "c.yaml"))

def creatingArguments : List String := ["extension", "create", "hstore", "--config", "c.yaml"]

theorem ofArguments_creating (bytes : List UInt8) :
    Command.ofArguments (configured bytes).disk creatingArguments =
      .ok (.task creating (.create ⟨"hstore", none, none⟩)) := rfl

theorem parse_overlong : Version.parse (String.ofList overlongVersion) =
    .error (.notNumber (.tooLong overlongVersion.length)) := by
  apply Version.parse_long isDigit_overlongVersion
  rw [overlongVersion, List.length_replicate]
  decide

theorem run_overlong {bytes : List UInt8} (h : creating.access (configured bytes) = .ok ⟨overlong, none⟩) :
    (run creatingArguments (configured bytes)).2.disk = (configured bytes).disk ∧
      (run creatingArguments (configured bytes)).2.statements = [] := by
  have hexpected : overlong.connection.expectedVersion = some (String.ofList overlongVersion) := rfl
  rw [run_create (ofArguments_creating bytes)]
  exact create_refused (w := { configured bytes with console := creating.console }) h hexpected
    parse_overlong _

theorem slot_backup : Trail.slot (.ofText "audit.log") 1 = ⟨0, ["audit.1"]⟩ := by decide +kernel

theorem fits_configured (bytes : List UInt8) (ticket : Nat) :
    (Trail.ofSettings overlong.audit ticket).Fits (configured bytes).disk := by
  have hpath : Path.ofText "audit.log" = ⟨0, ["audit.log"]⟩ := by decide +kernel
  have hnamed : Disk.IsNamed (Path.ofText "audit.log") := by
    rw [hpath]
    exact ⟨⟨by decide, by simp [Path.IsPart]⟩, by decide, by decide⟩
  have hapart : ∀ n < 2, 0 < n → Trail.backup (.ofText "audit.log") n ≠ .ofText "audit.log" := by
    decide +kernel
  have hfiles : ∀ i ≤ 1, (configured bytes).disk.IsFileOrMissing (Trail.slot (.ofText "audit.log") i) := by
    intro i hi
    obtain rfl | rfl : i = 0 ∨ i = 1 := by omega
    · exact ⟨rfl, .inr rfl⟩
    · rw [slot_backup]
      exact ⟨rfl, .inr rfl⟩
  exact ⟨rfl, Int.le_refl 1, hnamed, fun n hpos hn => hapart n (Nat.lt_succ_of_le hn) hpos, rfl, hfiles⟩

/-- Settings are loaded although they expect a version without a number; then a creation leaves no record. -/
theorem overlong_version_leaves_no_record :
    let w := configured (Text.encodeUtf8 overlong.toYaml)
    let access : Access := ⟨overlong, none⟩
    let task : Task := .create ⟨"hstore", none, none⟩
    Command.ofArguments w.disk creatingArguments = .ok (.task creating task) ∧ creating.access w = .ok access ∧
      (∀ text ∈ overlong.connection.expectedVersion, ∀ c ∈ text.toList, Decimal.IsDigit c) ∧
      (Trail.ofSettings overlong.audit (w.tickets + 1)).Fits w.disk ∧ w.Unlocked ∧
      w.Reliably (run creatingArguments w).2 ∧ (run creatingArguments w).2.disk = w.disk ∧
      ¬Recorded access w (run creatingArguments w).2
        (account? creating access { w with console := creating.console } task) := by
  have haccess := access_configured (i := creating) rfl isAccepted_overlong isWritable_overlong
  generalize Text.encodeUtf8 overlong.toYaml = bytes at haccess ⊢
  intro w access task
  obtain ⟨hdisk, hstatements⟩ := run_overlong haccess
  have hfits := fits_configured bytes (w.tickets + 1)
  refine ⟨ofArguments_creating bytes, haccess, ?_, hfits, fun key => ⟨rfl, rfl, rfl⟩, ?_, hdisk, ?_⟩
  · simpa [overlong] using isDigit_overlongVersion
  · intro said hsaid
    obtain rfl : said = [] := (hsaid.symm.trans hstatements : w.statements ++ said = [])
    exact ⟨fun d => List.not_mem_nil, trivial⟩
  · have hfree : Trail.content w.disk (Trail.slot (.ofText "audit.log") 1) = [] := by
      rw [slot_backup]
      rfl
    rintro ⟨⟨l, -, -, hlogged, -⟩, -⟩
    exact hfits.log_ne hfree l (hlogged.symm.trans hdisk)

end CommandLine

end CatalogSteward
