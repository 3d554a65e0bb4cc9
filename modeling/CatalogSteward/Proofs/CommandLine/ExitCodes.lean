import CatalogSteward.Proofs.CommandLine.Auditing
import CatalogSteward.Proofs.CommandLine.Operands
import CatalogSteward.Proofs.CommandLine.Reports
import CatalogSteward.Proofs.Lifecycle.Outcomes

/-!
# Exit codes tell the truth

A command ends with zero exactly if its work was done and what it was to show was there. The work of a command
is an operation of the lifecycle, so the exit code tells what has become of the catalog: a command that ends
with zero has had its effect, and one that ends with another code has changed nothing, but that an update may
have moved its extension before it failed.
-/

namespace CatalogSteward
open Act

/-- An extension that has the schema that is wanted, if one is, and the version, if one is that is not empty. -/
def Declared.IsMetBy (wanted : Declared) (i : Installation) : Prop :=
  (∀ schema, wanted.schema = some schema → i.schema = schema) ∧
    ∀ version, wanted.version = some version → version ≠ "" → i.version = version

theorem Error.exitCode_ne_zero (e : Error) : e.exitCode ≠ 0 := by
  unfold exitCode
  cases e.report.kind <;> simp [Report.Kind.exitCode]

namespace CommandLine

variable {α : Type}

/-! ### Failed work -/

theorem exitCode_ending {f : Failure} (h : f.isExit = false) : exitCode (.error f.ending) ≠ 0 := by
  cases f with
  | error e => exact e.exitCode_ne_zero
  | fault f => exact Nat.one_ne_zero
  | exit code => cases h

theorem reportError_ok (r : Report) (w : World) : ∃ u, reportError r w = (.ok (), u) := by
  refine reportError_of (P := fun a => ∀ w, ∃ u, a w = (.ok (), u)) ?_ ?_ ?_ ?_ r w
  · exact fun w => ⟨w, rfl⟩
  · exact fun level message w => ⟨_, say_apply level message w⟩
  · exact fun markup w => ⟨_, happen_apply _ w⟩
  · intro a b ha hb w
    obtain ⟨u, hu⟩ := ha w
    rw [bind_ok hu]
    exact hb u

theorem reported_ends {op : Act α} {w u : World} {f : Failure} (h : op w = (.error f, u)) :
    ∃ v, reported op w = (.error f.ending, v) := by
  rw [reported, bind_ok (outcome_apply op w), h]
  cases f with
  | error e =>
      obtain ⟨v, hv⟩ := reportError_ok e.report u
      exact ⟨v, bind_ok hv _⟩
  | fault f => exact ⟨u, rfl⟩
  | exit code => exact ⟨u, rfl⟩

section
variable {command : Act Unit} {work : Act α} {w u : World}

/-- A command whose work fails does not end with zero. -/
theorem Works.exitCode_ne_zero (h : Works command work) {f : Failure} (hwork : work w = (.error f, u))
    (hf : f.isExit = false) : exitCode (command w).1 ≠ 0 := by
  obtain ⟨present, rfl, -⟩ := h
  obtain ⟨v, hv⟩ := reported_ends hwork
  rw [bind_error hv]
  exact exitCode_ending hf

/-- A command leaves the server as its work has left it. -/
theorem Works.server (h : Works command work) {r : Except Failure α} (hwork : work w = (r, u)) :
    (command w).2.server = u.server := by
  have hserver := (h.leaves w).2.1
  rwa [hwork] at hserver

end

/-! ### Recorded work -/

theorem Attempt.record_sound {w : World} (h : w.IsSound) (a : Attempt) (failure : Option Error) :
    ∃ u, a.record failure w = (.ok (), u) ∧ u.server = w.server := by
  obtain ⟨d, added, hrecord, -⟩ := Act.record_ok h (a.event w.now failure)
  exact ⟨_, (record_apply a failure w).trans hrecord, rfl⟩

section
variable {a : Attempt} {w s : World} (hs : s.IsSound)
include hs

/-- With a sound trail, recording errors makes no difference to what an operation comes to. -/
theorem Attempt.recordingErrors_sound {op : Act α} {r : Except Failure α} (h : op w = (r, s)) :
    ∃ u, a.recordingErrors op w = (r, u) ∧ u.server = s.server ∧ (r.isOk = true → u = s) := by
  cases r with
  | ok x => exact ⟨s, recordingErrors_ok h, rfl, fun _ => rfl⟩
  | error f =>
      rw [Attempt.recordingErrors, bind_ok (outcome_apply op w), h]
      cases f with
      | error e =>
          obtain ⟨u, hrecord, hserver⟩ := a.record_sound hs (some e)
          exact ⟨u, bind_ok hrecord _, hserver, fun hok => by cases hok⟩
      | fault f => exact ⟨s, rfl, rfl, fun _ => rfl⟩
      | exit code => exact ⟨s, rfl, rfl, fun _ => rfl⟩

theorem carriedOut_sound {op : Act α} {r : Except Failure α} (h : op w = (r, s)) :
    ∃ u, a.carriedOut op w = (r, u) ∧ u.server = s.server := by
  obtain ⟨u, hrecorded, hserver, hu⟩ := Attempt.recordingErrors_sound (a := a) hs h
  cases r with
  | error f => exact ⟨u, bind_error hrecorded _, hserver⟩
  | ok x =>
      obtain rfl := hu rfl
      obtain ⟨v, hrecord, hv⟩ := a.record_sound hs none
      exact ⟨v, (bind_ok hrecorded _).trans (bind_ok hrecord _), hv⟩

theorem carriedOutUpdate_sound {op : Act Lifecycle.Updated} {r : Except Failure Lifecycle.Updated}
    (h : op w = (r, s)) (previous : Observed) :
    ∃ u, a.carriedOutUpdate previous op w = (r.map fun updated => (previous, updated), u) ∧
      u.server = s.server := by
  obtain ⟨u, hrecorded, hserver, hu⟩ := Attempt.recordingErrors_sound (a := a) hs h
  match r, hrecorded, hu with
  | .error f, hrecorded, _ => exact ⟨u, bind_error hrecorded _, hserver⟩
  | .ok .unchanged, hrecorded, _ => exact ⟨u, bind_ok hrecorded _, hserver⟩
  | .ok (.readBack o), hrecorded, hu =>
      obtain rfl := hu rfl
      obtain ⟨v, hrecord, hv⟩ := a.record_sound hs none
      exact ⟨v, (bind_ok hrecorded _).trans (bind_ok hrecord _), hv⟩

end

/-! ### Work at a server -/

/-- Where a command can get as far as the catalog: its configuration is loaded and expects no version of the
server, the path of the trail can be opened if one is kept, and the server is new enough and answers by its
catalog. No lock is held by anyone else. -/
structure Workable (i : Invocation) (access : Access) (w : World) : Prop where
  loaded : i.access w = .ok access
  expected : access.settings.connection.expectedVersion = none
  trail : access.settings.audit.IsOpenable
  server : w.server.Unscripted
  version : 90100 ≤ w.server.version
  unlocked : w.Unlocked

namespace Workable

variable {i : Invocation} {access : Access} {w u : World}

theorem ready (h : Workable i access w) : Lifecycle.Ready access { w with client := .start } :=
  ⟨h.server, Lifecycle.gate_of_recent h.expected rfl h.version, h.unlocked _⟩

theorem opening (h : Workable i access w) : Lifecycle.Ready access (opening access w) :=
  ⟨h.server, Lifecycle.gate_of_recent h.expected rfl h.version, h.unlocked _⟩

theorem sound (h : Workable i access w) (hu : u.trail = (CommandLine.opening access w).trail) : u.IsSound :=
  World.isSound_of_trail (Access.isAccepted_of_load h.loaded).audit h.trail hu

theorem questioned (h : Workable i access w) (name : String) : Workable i access (questioned i name w) := by
  unfold CommandLine.questioned
  split
  · exact ⟨h.loaded, h.expected, h.trail, h.server, h.version, h.unlocked⟩
  · exact h

/-- What is asked within a session. -/
theorem asks (h : Workable i access w) (op : Access → Act α) {r : Except Failure α}
    (hop : op access { w with client := .start } = (r, u)) :
    ∃ v, (do
      let access ← loadAccess i
      session (op access)) w = (r, v) ∧ v.server = u.server := by
  rw [bind_ok ((loadAccess_apply i w).trans (by rw [h.loaded])), session_apply, hop]
  exact ⟨closed u, rfl, rfl⟩

/-- What is done within a session, once the trail has been started. -/
theorem works (h : Workable i access w) (op : Access → Act α) {r : Except Failure α}
    (hop : op access (CommandLine.opening access w) = (r, u)) :
    ∃ v, (do
      let access ← audited i
      session (op access)) w = (r, v) ∧ v.server = u.server ∧ v.trail = u.trail := by
  rw [bind_ok (audited_apply h.loaded), session_trailed, hop]
  exact ⟨closed u, rfl, rfl, rfl⟩

/-- What is attempted within a session, and recorded. -/
theorem carriesOut (h : Workable i access w) (a : Access → Attempt) (op : Access → Act α) {c : Catalog}
    {r : Except Failure α} (hop : op access (CommandLine.opening access w) = (r, u))
    (hanswered : Lifecycle.Answered access (CommandLine.opening access w) c u) :
    ∃ v, (do
      let access ← audited i
      (a access).carriedOut (session (op access))) w = (r, v) ∧ v.server = u.server := by
  have hsession : session (op access) (trailed access w) = (r, closed u) := by
    rw [session_trailed, hop]
  obtain ⟨v, hwork, hv⟩ := carriedOut_sound (a := a access) (h.sound (u := closed u) hanswered.trail) hsession
  exact ⟨v, (bind_ok (audited_apply h.loaded) _).trans hwork, hv⟩

end Workable

/-! ### What exit codes tell -/

/-- What the exit code of a task tells of the catalogs before and after it, where a deletion is confirmed or
not. -/
def Task.Truthful (confirmed : Bool) (code : Nat) (before after : Catalog) : Task → Prop
  | .create desired =>
    (code = 0 → ∃ i, after.installation? desired.name = some i) ∧ (code ≠ 0 → after = before)
  | .display name | .probe name =>
    (code = 0 → ∃ i, after.installation? name = some i) ∧ (after.installation? name = none → code = 1)
  | .update wanted _ =>
    (code = 0 → ∃ i, after.installation? wanted.name = some i ∧ wanted.IsMetBy i) ∧
      (code ≠ 0 → after = before ∨ ∃ i schema, before.installation? wanted.name = some i ∧
        wanted.schema = some schema ∧ after = before.install wanted.name { i with schema := schema })
  | .delete name =>
    (confirmed = true → code = 0 →
      (∃ i, before.installation? name = some i) ∧ after.installation? name = none) ∧
      (code ≠ 0 → after = before)
  | .adopt name => code = 0 → ∃ i, after.installation? name = some i
  | _ => True

section
variable {i : Invocation} {access : Access} {w u : World} {name : String}

theorem create_shown {desired : Declared} {o : Observed} (h : (do
      let access ← audited i
      (creation access desired).carriedOut (session (Lifecycle.create access desired))) w =
        (.ok (some o), u)) : exitCode (create i desired w).1 = 0 := by
  have hcreate : create i desired w = showExtension "Extension Created" o u := bind_ok (reported_ok h) _
  rw [hcreate]
  rfl

theorem display_shown {o : Option Observed} (h : (do
      let access ← loadAccess i
      session (Lifecycle.read access name)) w = (.ok o, u)) :
    exitCode (display i name w).1 = if o.isSome then 0 else 1 := by
  cases o with
  | none =>
      have hdisplay : display i name w = exit 1 u := bind_ok (reported_ok h) _
      rw [hdisplay]
      rfl
  | some o =>
      have hdisplay : display i name w = showExtension ("Extension '" ++ name ++ "'") o u :=
        bind_ok (reported_ok h) _
      rw [hdisplay]
      rfl

theorem probe_shown {found : Bool} (h : (do
      let access ← loadAccess i
      session (Lifecycle.installed access name)) w = (.ok found, u)) :
    exitCode (probe i name w).1 = if found then 0 else 1 := by
  have hprobe : probe i name w = (do
      Act.print (if found then "true" else "false")
      if !found then exit 1) u := bind_ok (reported_ok h) _
  rw [hprobe]
  cases found <;> rfl

theorem deleteConfirmed_shown (h : (do
      let access ← audited i
      (deletion access name).carriedOut (session (Lifecycle.delete access name))) w = (.ok (), u)) :
    exitCode (deleteConfirmed i name w).1 = 0 := by
  have hwork : (do
      let access ← audited i
      (deletion access name).recordingErrors (session (Lifecycle.delete access name))
      (deletion access name).record none) w = (.ok (), u) := by
    simpa only [Attempt.carriedOut, bind_pure_unit] using h
  have hdelete : deleteConfirmed i name w = Act.say .success ("Extension '" ++ name ++ "' dropped") u :=
    bind_ok (reported_ok hwork) _
  rw [hdelete, say_apply]
  rfl

theorem update_shown {wanted : Declared} {latest : Bool} (hconflicting : conflicting wanted latest = false)
    {previous o : Observed} {updated : Lifecycle.Updated} (h : (do
      let access ← audited i
      session (updateInstalled access (updateTo wanted latest))) w = (.ok (previous, updated), u))
    (hstate : updated.state previous = some o) : exitCode (update i wanted latest w).1 = 0 := by
  rw [conflicting, ← Bool.not_eq_true, Bool.and_eq_true] at hconflicting
  unfold update
  dsimp only
  rw [if_neg hconflicting]
  change exitCode ((reported (do
    let access ← audited i
    session (updateInstalled access (updateTo wanted latest))) >>= _) w).1 = 0
  rw [bind_ok (reported_ok h)]
  cases updated with
  | unchanged =>
      dsimp only
      rw [bind_ok (say_apply ..)]
      rfl
  | readBack observed =>
      obtain rfl : observed = some o := hstate
      rfl

/-! ### The commands -/

theorem create_truthful (h : Workable i access w) {desired : Declared}
    (hs : (Statement.create desired.name desired.schema desired.version).Storable) (confirmed : Bool) :
    (Task.create desired).Truthful confirmed (exitCode (create i desired w).1) w.server.catalog
      (create i desired w).2.server.catalog := by
  obtain ⟨u, d, j, hcreate, hu, hj⟩ | ⟨u, f, hcreate, hf, hu⟩ := Lifecycle.create_outcome h.opening hs
  all_goals
    obtain ⟨v, hwork, hv⟩ := h.carriesOut (fun access => creation access desired)
      (fun access => Lifecycle.create access desired) hcreate hu
    have hserver := ((create_works i desired).server hwork).trans hv
    rw [hserver, hu.server]
  · exact ⟨fun _ => ⟨j, hj⟩, fun hne => absurd (create_shown hwork) hne⟩
  · exact ⟨fun hzero => absurd hzero ((create_works i desired).exitCode_ne_zero hwork hf), fun _ => rfl⟩

theorem display_truthful (h : Workable i access w) (confirmed : Bool) :
    (Task.display name).Truthful confirmed (exitCode (display i name w).1) w.server.catalog
      (display i name w).2.server.catalog := by
  obtain ⟨u, found, hread, hu, hfound, hnone⟩ := Lifecycle.read_outcome name h.ready
  obtain ⟨v, hwork, hv⟩ := h.asks (fun access => Lifecycle.read access name) hread
  have hserver := ((display_works i name).server hwork).trans hv
  rw [hserver, hu.server, display_shown hwork]
  constructor
  · intro hzero
    cases found with
    | none => cases hzero
    | some o =>
        obtain ⟨j, hj, -⟩ := hfound o rfl
        exact ⟨j, hj⟩
  · intro habsent
    rw [hnone habsent]
    rfl

theorem probe_truthful (h : Workable i access w) (confirmed : Bool) :
    (Task.probe name).Truthful confirmed (exitCode (probe i name w).1) w.server.catalog
      (probe i name w).2.server.catalog := by
  obtain ⟨u, found, hinstalled, hu, hfound, hnone⟩ := Lifecycle.installed_outcome name h.ready
  obtain ⟨v, hwork, hv⟩ := h.asks (fun access => Lifecycle.installed access name) hinstalled
  have hserver := ((probe_works i name).server hwork).trans hv
  rw [hserver, hu.server, probe_shown hwork]
  constructor
  · intro hzero
    cases found with
    | false => cases hzero
    | true => exact hfound rfl
  · intro habsent
    rw [hnone habsent]
    rfl

/-- An update of what is installed leads to what was declared and tells so, or it fails. -/
theorem updateInstalled_outcome {desired : Declared} (hready : Lifecycle.Ready access w) (hsound : w.IsSound)
    (hname : '\x00' ∉ desired.name.toList)
    (hversion : ∀ version, desired.version = some version → '\x00' ∉ version.toList) :
    (∃ u j k updated, updateInstalled access desired w = (.ok (j.observed desired.name, updated), u) ∧
      u.server.catalog.installation? desired.name = some k ∧
      Lifecycle.Changed w.server.catalog desired j k ∧
      updated.state (j.observed desired.name) = some (k.observed desired.name)) ∨
    ∃ u f, updateInstalled access desired w = (.error f, u) ∧ f.isExit = false ∧
      (u.server.catalog = w.server.catalog ∨ ∃ j schema, w.server.catalog.installation? desired.name = some j ∧
        desired.schema = some schema ∧
        u.server.catalog = w.server.catalog.install desired.name { j with schema := schema }) := by
  obtain ⟨u, found, hread, hu, hfound, -⟩ := Lifecycle.read_outcome desired.name hready
  cases found with
  | none =>
      have hmissing : updateInstalled access desired w = (.error (.error (.notInstalled desired.name)), u) := by
        rw [updateInstalled, bind_ok hread]
        rfl
      exact .inr ⟨u, _, hmissing, rfl, .inl (by rw [hu.server])⟩
  | some previous =>
      obtain ⟨j, hj, rfl⟩ := hfound previous rfl
      have hcorrelating : Lifecycle.Ready access (correlating "extension_update" u) :=
        ⟨hu.ready.server, hu.ready.gate, hu.ready.lock⟩
      have hcatalog : (correlating "extension_update" u).server.catalog = w.server.catalog := by
        change u.server.catalog = w.server.catalog
        rw [hu.server]
      have hsound' {v : World} (hv : v.trail = (correlating "extension_update" u).trail) : v.IsSound := by
        apply isSound_correlations hsound (Trail.correlationIdOf "extension_update" (u.tickets + 1) :: ·)
        rw [hv, ← hu.trail]
        rfl
      obtain ⟨v, d, k, updated, hupdate, hv, hk, hchanged, hstate⟩ | ⟨v, d, f, hupdate, hf, hv, hd⟩ :=
        Lifecycle.update_outcome hcorrelating hname hversion (hcatalog ▸ hj)
      all_goals
        obtain ⟨v', hwork, hserver⟩ := carriedOutUpdate_sound
          (a := updating access desired (j.observed desired.name)) (hsound' hv.trail) hupdate
            (j.observed desired.name)
        have hinstalled := updateInstalled_found hread hwork
        have hlast : (uncorrelated v').server.catalog = d := by
          change v'.server.catalog = d
          rw [hserver, hv.server]
      · exact .inl ⟨_, j, k, updated, hinstalled, hlast ▸ hk, hcatalog ▸ hchanged, hstate⟩
      · refine .inr ⟨_, f, hinstalled, hf, ?_⟩
        rw [hlast]
        rw [hcatalog] at hd
        obtain hsame | ⟨schema, hschema, hmoved⟩ := hd
        · exact .inl hsame
        · exact .inr ⟨j, schema, hj, hschema, hmoved⟩

theorem update_truthful (h : Workable i access w) {wanted : Declared} (latest : Bool)
    (hname : '\x00' ∉ wanted.name.toList)
    (hversion : ∀ version, wanted.version = some version → '\x00' ∉ version.toList) (confirmed : Bool) :
    (Task.update wanted latest).Truthful confirmed (exitCode (update i wanted latest w).1) w.server.catalog
      (update i wanted latest w).2.server.catalog := by
  cases hconflicting : conflicting wanted latest with
  | true =>
      have hcode : exitCode (update i wanted latest w).1 ≠ 0 := by
        simp only [conflicting, Bool.and_eq_true] at hconflicting
        unfold update
        dsimp only
        rw [if_pos hconflicting, bind_ok (say_apply ..)]
        exact Nat.succ_ne_zero 2
      have hserver : (update i wanted latest w).2.server = w.server := by
        rw [(update_tells i hconflicting w).rest]
      rw [hserver]
      exact ⟨fun hzero => absurd hzero hcode, fun _ => .inl rfl⟩
  | false =>
      have hsame : (updateTo wanted latest).name = wanted.name := by cases latest <;> rfl
      have hschema : (updateTo wanted latest).schema = wanted.schema := by cases latest <;> rfl
      have hwanted (version : String) (hv : (updateTo wanted latest).version = some version) :
          '\x00' ∉ version.toList := by
        cases latest with
        | false => exact hversion version hv
        | true =>
            obtain rfl : "" = version := Option.some.inj hv
            decide
      have hworks := update_works i hconflicting
      obtain ⟨u, j, k, updated, hupdate, hk, hchanged, hstate⟩ | ⟨u, f, hupdate, hf, hd⟩ :=
        updateInstalled_outcome h.opening (h.sound rfl) (hsame ▸ hname) hwanted
      all_goals
        obtain ⟨v, hwork, hv, -⟩ := h.works (fun access => updateInstalled access (updateTo wanted latest)) hupdate
        have hserver := (hworks.server hwork).trans hv
        rw [hserver]
      · rw [hsame] at hk
        refine ⟨fun _ => ⟨k, hk, ?_, ?_⟩, fun hne => absurd (update_shown hconflicting hwork hstate) hne⟩
        · intro schema hs
          rw [hchanged.schema, hschema, hs]
          rfl
        · intro version hv hne
          have hkept : (updateTo wanted latest).version = some version := by
            cases latest with
            | false => exact hv
            | true => simp [conflicting, hv, hne] at hconflicting
          exact hchanged.takes hkept hne
      · rw [hsame, hschema] at hd
        exact ⟨fun hzero => absurd hzero (hworks.exitCode_ne_zero hwork hf), fun _ => hd⟩

theorem deleteConfirmed_truthful (name : String) (h : Workable i access w) (confirmed : Bool) :
    (Task.delete name).Truthful confirmed (exitCode (deleteConfirmed i name w).1) w.server.catalog
      (deleteConfirmed i name w).2.server.catalog := by
  obtain ⟨u, j, hdelete, hj, hu⟩ | ⟨u, f, hdelete, hf, hu⟩ := Lifecycle.delete_outcome name h.opening
  all_goals
    obtain ⟨v, hwork, hv⟩ := h.carriesOut (fun access => deletion access name)
      (fun access => Lifecycle.delete access name) hdelete hu
    have hserver := ((deleteConfirmed_works i name).server hwork).trans hv
    rw [hserver, hu.server]
  · exact ⟨fun _ _ => ⟨⟨j, hj⟩, w.server.catalog.installation?_uninstall_self name⟩,
      fun hne => absurd (deleteConfirmed_shown hwork) hne⟩
  · exact ⟨fun _ hzero => absurd hzero ((deleteConfirmed_works i name).exitCode_ne_zero hwork hf), fun _ => rfl⟩

theorem delete_truthful (h : Workable i access w) :
    (Task.delete name).Truthful (proceeds i w) (exitCode (delete i name w).1) w.server.catalog
      (delete i name w).2.server.catalog := by
  obtain ⟨keyboard, added, hquestioned, -⟩ := questioned_eq i name w
  cases hproceeds : proceeds i w with
  | false =>
      rw [delete_cancelled hproceeds, hquestioned]
      exact ⟨fun hconfirmed => (by cases hconfirmed), fun hne => absurd rfl hne⟩
  | true =>
      have htruthful := deleteConfirmed_truthful name (h.questioned name) true
      rw [delete_proceeds hproceeds]
      rw [hquestioned] at htruthful ⊢
      exact htruthful

theorem adopt_truthful (h : Workable i access w) (confirmed : Bool) :
    (Task.adopt name).Truthful confirmed (exitCode (adopt i name w).1) w.server.catalog
      (adopt i name w).2.server.catalog := by
  intro hzero
  obtain ⟨u, o, j, hadopt, hu, hj⟩ | ⟨u, f, hadopt, hf⟩ := Lifecycle.adopt_outcome name h.opening
  all_goals
    have hsession := session_trailed access (Lifecycle.adopt access name) w
    rw [hadopt] at hsession
  · obtain ⟨v, hrecord, hv⟩ := Attempt.record_sound (h.sound (u := closed u) hu.trail)
      ⟨.adopt, name, access.target, o.toJson⟩ none
    have hwork : importing i name w = (.ok o, v) := by
      rw [importing, bind_ok (audited_apply h.loaded), bind_ok hsession, bind_ok hrecord]
      rfl
    have hserver := ((adopt_works i name).server hwork).trans hv
    rw [hserver]
    change ∃ i, u.server.catalog.installation? name = some i
    rw [hu.server]
    exact ⟨j, hj⟩
  · have hwork : importing i name w = (.error f, closed u) := by
      rw [importing, bind_ok (audited_apply h.loaded), bind_error hsession]
    exact absurd hzero ((adopt_works i name).exitCode_ne_zero hwork hf)

/-- The exit code of a command on an extension tells the truth about the catalog, whatever its arguments are, if
they have no NUL. -/
theorem exit_codes_are_truthful {args : List String} {task : Task}
    (hargs : Command.ofArguments w.disk args = .ok (.task i task)) (hnul : ∀ arg ∈ args, '\x00' ∉ arg.toList)
    (h : Workable i access w) :
    task.Truthful (proceeds i w) (exitCode (run args w).1) w.server.catalog (run args w).2.server.catalog := by
  have hstart : Workable i access { w with console := i.console } :=
    ⟨h.loaded, h.expected, h.trail, h.server, h.version, h.unlocked⟩
  obtain ⟨hname, hvalues⟩ := ofArguments_task hargs
  have hnamed (name : String) (hn : name ∈ task.name?) : '\x00' ∉ name.toList := hnul name (hname name hn)
  have hgiven (text : String) (ht : text ∈ task.values) : '\x00' ∉ text.toList := (hvalues text ht).notMem hnul
  rw [run_task hargs]
  cases task with
  | create desired =>
      have hs : (Statement.create desired.name desired.schema desired.version).Storable := by
        intro text htext
        obtain rfl | htext := List.mem_cons.mp htext
        · exact hnamed _ rfl
        · exact hgiven text htext
      exact create_truthful hstart hs _
  | display name => exact display_truthful hstart _
  | probe name => exact probe_truthful hstart _
  | update wanted latest =>
      have hversion (version : String) (hv : wanted.version = some version) : '\x00' ∉ version.toList :=
        hgiven version (List.mem_append_right _ (Option.mem_toList.mpr hv))
      exact update_truthful hstart latest (hnamed _ rfl) hversion _
  | delete name => exact delete_truthful hstart
  | adopt name => exact adopt_truthful hstart _
  | _ => exact trivial

end

/-- A server of the oldest version that has extensions, with one of them. -/
def oldest : World := .ofServer ⟨Catalog.fresh.install "hstore" ⟨"app", "1.7"⟩, 90100, [], []⟩

/-- The exit code is one because the extension is not there. -/
theorem exit_codes_are_truthful_absent :
    (run ["extension", "exists", "citext"] oldest).2.server.catalog.installation? "citext" = none ∧
      exitCode (run ["extension", "exists", "citext"] oldest).1 = 1 := by
  have hargs : Command.ofArguments oldest.disk ["extension", "exists", "citext"] =
      .ok (.task (.ofOptions false 0 false false none) (.probe "citext")) := rfl
  have hworkable : Workable (.ofOptions false 0 false false none) ⟨.default, none⟩ oldest :=
    ⟨rfl, rfl, fun _ => by decide +kernel, ⟨rfl, rfl⟩, Int.le_refl _, fun key => ⟨rfl, rfl, rfl⟩⟩
  obtain ⟨-, hone⟩ := exit_codes_are_truthful hargs (by decide) hworkable
  have habsent : (run ["extension", "exists", "citext"] oldest).2.server.catalog.installation? "citext" = none := by
    decide +kernel
  exact ⟨habsent, hone habsent⟩

end CommandLine

end CatalogSteward
