import CatalogSteward.Proofs.Audit.History
import CatalogSteward.Proofs.CommandLine.Discipline
import CatalogSteward.Proofs.Lifecycle.Results

/-!
# Accounts of commands

What a command has to record is its account: what was tried, on which extension, and whether it worked. The
trail that the configuration asks for is started before the session, and neither the session nor an open
correlation leads the record elsewhere.
-/

namespace CatalogSteward
open Act

/-! ### Lines at the end of the log -/

namespace Trail

variable {t : Trail} {d e : Disk}

/-- The line of a record. -/
def line (t : Trail) (l : Logged) : String := (t.stamped l).text l.actor ++ "\n"

/-- A line has been written at the end of the log, and the log has not grown beyond its limit. -/
structure Appends (t : Trail) (line : String) (d e : Disk) : Prop where
  enabled : t.enabled = true
  written : Trail.append t.path line d = (.ok (), e)
  room : ((content e t.path).length : Int) ≤ t.maxSizeBytes

/-- A log within its limit is left alone. -/
theorem rotateIfLarge_room (h : ((content e t.path).length : Int) ≤ t.maxSizeBytes) :
    (t.rotateIfLarge e).2 = e := by
  have hkept : ((do if ← (return decide (t.maxSizeBytes < (← size t.path)) : Disk.Action Bool) then
      rotate t.path t.backupCount.toNat : Disk.Action Unit) e).2 = e := by
    cases hread : Disk.read t.path e with
    | error f =>
        have hsize : size t.path e = (.error f, e) := by
          unfold size
          rw [run_get_bind, hread]
          rfl
        rw [run_bind_error (run_bind_error hsize _)]
    | ok bytes =>
        have hroom : ¬t.maxSizeBytes < bytes.length := by
          simp only [content, hread] at h
          exact not_lt.mpr h
        rw [run_bind (run_bind (size_apply hread) _), decide_eq_false hroom]
        rfl
  have hboth (c : Prop) [Decidable c] (words : String) {a : Disk.Action Unit} (ha : (a e).2 = e) :
      ((if c then DiskAct.fault .noBackups else mentioning words a) e).2 = e := by
    split
    · rfl
    · rw [mentioning_disk, ha]
  unfold rotateIfLarge
  rw [run_get_bind]
  exact hboth _ _ hkept

/-- What is recorded is exactly what is written, if the log has room for it. -/
theorem Appends.log {l : Logged} (h : t.Appends (t.line l) d e) : (t.log l d).2 = e := by
  have henabled : (t.during l).enabled = true := h.enabled
  have hwritten : Trail.append (t.during l).path (((t.during l).stamp l.event).text l.actor ++ "\n") d =
      (.ok (), e) := h.written
  have hroom : ((content e (t.during l).path).length : Int) ≤ (t.during l).maxSizeBytes := h.room
  unfold Trail.log record addLine
  rw [if_pos henabled, run_bind (mentioning_apply hwritten _)]
  exact rotateIfLarge_room hroom

end Trail

namespace CommandLine

/-! ### Accounts -/

/-- What a record tells of a command: what was tried, on which extension, and whether it worked. -/
structure Account where
  action : Action
  name : String
  success : Bool
  deriving DecidableEq, Repr

def Account.Describes (account : Account) (target : String) (e : AuditEvent) : Prop :=
  e.action = account.action ∧ e.success = account.success ∧ e.targetDatabase = some target ∧
    e.targetType = some "extension" ∧ e.targetName = some account.name

/-- The world in which a session starts. -/
def opening (access : Access) (w : World) : World := { trailed access w with client := .start }

/-- The world within a correlation. -/
def correlating (operation : String) (w : World) : World :=
  { w with
    tickets := w.tickets + 1
    trail := w.trail.map fun t =>
      { t with correlations := Trail.correlationIdOf operation (w.tickets + 1) :: t.correlations } }

/-- The account of an update. There is none if the extension could not be read, if it is not installed, or if
the update returned without having sent a change. -/
def updateAccount? (access : Access) (desired : Declared) (w : World) : Option Account :=
  match Lifecycle.read access desired.name (opening access w) with
  | (.ok (some previous), u) =>
    let before := correlating "extension_update" u
    let (result, after) := Lifecycle.update access desired.name previous desired before
    if result.isOk ∧ after.changes = before.changes then none
    else some ⟨.update, desired.name, result.isOk⟩
  | _ => none

/-- What a command has to record. -/
def account? (i : Invocation) (access : Access) (w : World) : Task → Option Account
  | .create desired =>
    some ⟨.create, desired.name, (Lifecycle.create access desired (opening access w)).1.isOk⟩
  | .update wanted latest =>
    if conflicting wanted latest then none else updateAccount? access (updateTo wanted latest) w
  | .delete name =>
    if proceeds i w then
      let result := (Lifecycle.delete access name (opening access (questioned i name w))).1
      some ⟨.delete, name, result.isOk⟩
    else none
  | .adopt name =>
    if (Lifecycle.adopt access name (opening access w)).1.isOk then some ⟨.adopt, name, true⟩ else none
  | _ => none

/-- What comes of a command that has to record something, or nothing. A record goes to the trail of the
configuration, and nothing else happens to the disk: if the log can be written and has room for the record,
its line is all that is added. The catalog is as it was but for the extension that the record names, and
without a record it is as it was altogether. -/
def Recorded (access : Access) (w u : World) : Option Account → Prop
  | none => u.disk = w.disk ∧ u.server.catalog = w.server.catalog
  | some account =>
    let t := Trail.ofSettings access.settings.audit (w.tickets + 1)
    (∃ l : Trail.Logged, l.actor = w.actor ∧ account.Describes access.target l.event ∧
      u.disk = (t.log l w.disk).2 ∧ ∀ d, t.Appends (t.line l) w.disk d → u.disk = d) ∧
    w.server.catalog.SameBut (Identifier.kept account.name) u.server.catalog

theorem Recorded.congr {access : Access} {w u v : World} {account : Option Account}
    (h : Recorded access w u account) (hdisk : v.disk = u.disk) (hserver : v.server = u.server) :
    Recorded access w v account := by
  cases account <;> simpa only [Recorded, hdisk, hserver] using h

theorem Recorded.of_log {access : Access} {w u : World} {account : Account} {l : Trail.Logged}
    (hactor : l.actor = w.actor) (hdescribes : account.Describes access.target l.event)
    (hdisk : u.disk = ((Trail.ofSettings access.settings.audit (w.tickets + 1)).log l w.disk).2)
    (hcatalog : w.server.catalog.SameBut (Identifier.kept account.name) u.server.catalog) :
    Recorded access w u (some account) :=
  ⟨⟨l, hactor, hdescribes, hdisk, fun _ hd => hdisk.trans hd.log⟩, hcatalog⟩

/-! ### Records -/

/-- The event that an attempt records. -/
def Attempt.event (a : Attempt) (now : Moment) (failure : Option Error) : AuditEvent where
  action := a.action
  success := failure.isNone
  timestamp := now
  targetDatabase := some a.target
  targetType := some "extension"
  targetName := some a.name
  parameters := a.parameters
  message := none
  error := failure.map Error.message
  sessionId := none
  correlationId := none

/-- The error that there is to be recorded. -/
def error? {α : Type} : Except Failure α → Option Error
  | .error (.error e) => some e
  | _ => none

variable {α : Type}

/-- If all failures are errors, there is one to be recorded exactly if there was a failure. -/
theorem error?_isNone {result : Except Failure α} (herror : ∀ f, result = .error f → ∃ e, f = .error e) :
    (error? result).isNone = result.isOk := by
  cases result with
  | ok x => rfl
  | error f =>
      obtain ⟨e, rfl⟩ := herror f rfl
      rfl

theorem record_apply (a : Attempt) (failure : Option Error) (w : World) :
    a.record failure w = Act.record (a.event w.now failure) w := by
  rw [Attempt.record, get_bind]
  rfl

theorem record_disk {t : Trail} {w : World} (h : w.trail = some t) (e : AuditEvent) :
    (Act.record e w).2.disk = (t.record w.actor e w.disk).2 := by
  rw [Act.record, get_bind, h]
  dsimp only
  rw [get_bind, bind_apply, onDisk_apply]
  rcases t.record w.actor e w.disk with ⟨f | words, d⟩
  · rfl
  · cases words with
    | none => rfl
    | some words =>
        dsimp only
        rw [say_apply]
        rfl

theorem recordingErrors_ok {a : Attempt} {op : Act α} {w s : World} {x : α} (h : op w = (.ok x, s)) :
    a.recordingErrors op w = (.ok x, s) := by
  rw [Attempt.recordingErrors, bind_ok (outcome_apply op w), h]
  rfl

theorem recordingErrors_error {a : Attempt} {op : Act α} {w s : World} {e : Error}
    (h : op w = (.error (.error e), s)) : ∃ f, a.recordingErrors op w = (.error f, (a.record (some e) s).2) := by
  rw [Attempt.recordingErrors, bind_ok (outcome_apply op w), h]
  dsimp only
  rcases hrecord : a.record (some e) s with ⟨f | _, u⟩
  · exact ⟨f, bind_error hrecord _⟩
  · exact ⟨.error e, bind_ok hrecord _⟩

theorem record_pure (a : Attempt) (x : α) (w : World) :
    ((do a.record none; return x : Act α) w).2 = (a.record none w).2 := by
  rcases hrecord : a.record none w with ⟨f | _, u⟩
  · rw [bind_error hrecord]
  · rw [bind_ok hrecord]
    rfl

theorem carriedOut_world {a : Attempt} {op : Act α} {w s : World} {result : Except Failure α}
    (h : op w = (result, s)) (herror : ∀ f, result = .error f → ∃ e, f = .error e) :
    (a.carriedOut op w).2 = (a.record (error? result) s).2 := by
  cases result with
  | ok x =>
      rw [Attempt.carriedOut, bind_ok (recordingErrors_ok h)]
      exact record_pure a x s
  | error f =>
      obtain ⟨e, rfl⟩ := herror f rfl
      obtain ⟨f, hrecorded⟩ := recordingErrors_error (a := a) h
      rw [Attempt.carriedOut, bind_error hrecorded]
      rfl

/-- A fault is not recorded. -/
theorem carriedOut_fault {a : Attempt} {op : Act α} {w s : World} {f : Fault}
    (h : op w = (.error (.fault f), s)) : a.carriedOut op w = (.error (.fault f), s) := by
  have hfailed : a.recordingErrors op w = (.error (.fault f), s) := by
    rw [Attempt.recordingErrors, bind_ok (outcome_apply op w), h]
    rfl
  rw [Attempt.carriedOut, bind_error hfailed]

theorem carriedOutUpdate_unchanged {a : Attempt} {op : Act Lifecycle.Updated} {w s : World}
    (h : op w = (.ok .unchanged, s)) (previous : Observed) : (a.carriedOutUpdate previous op w).2 = s := by
  rw [Attempt.carriedOutUpdate, bind_ok (recordingErrors_ok h)]
  rfl

theorem carriedOutUpdate_world {a : Attempt} {op : Act Lifecycle.Updated} {w s : World}
    {result : Except Failure Lifecycle.Updated} (h : op w = (result, s)) (previous : Observed)
    (hresult : result ≠ .ok .unchanged) (herror : ∀ f, result = .error f → ∃ e, f = .error e) :
    (a.carriedOutUpdate previous op w).2 = (a.record (error? result) s).2 := by
  match result, h with
  | .ok .unchanged, _ => exact absurd rfl hresult
  | .ok (.readBack o), h =>
      rw [Attempt.carriedOutUpdate, bind_ok (recordingErrors_ok h)]
      exact record_pure a _ s
  | .error f, h =>
      obtain ⟨e, rfl⟩ := herror f rfl
      obtain ⟨f, hrecorded⟩ := recordingErrors_error (a := a) h
      rw [Attempt.carriedOutUpdate, bind_error hrecorded]
      rfl

/-- The world after a correlation. -/
def uncorrelated (w : World) : World :=
  { w with trail := w.trail.map fun t => { t with correlations := t.correlations.drop 1 } }

theorem correlated_apply (operation : String) (a : Act α) (w : World) :
    correlated operation a w =
      ((a (correlating operation w)).1, uncorrelated (a (correlating operation w)).2) := by
  have hticket : Act.ticket w = (.ok (w.tickets + 1), { w with tickets := w.tickets + 1 }) := rfl
  rw [correlated, bind_ok hticket]
  dsimp only
  rw [bind_ok (modify_apply ..), always_apply, modify_apply]
  rfl

/-! ### What a session leaves -/

theorem session_trailed (access : Access) (op : Act α) (w : World) :
    session op (trailed access w) = ((op (opening access w)).1, closed (op (opening access w)).2) :=
  session_apply op (trailed access w)

theorem Aside.statements {w u : World} {o : Option Failure} (h : Aside w o u) : u.statements = w.statements := by
  obtain ⟨added, htrace, hidle⟩ := h.trace
  rw [World.statements_append htrace, Exchanged.statement?_idle fun x hx => (hidle x hx).1, List.append_nil]

/-- A world in which the server has come to know as much as in another. -/
def Heard (s : World) (_ : World) (_ : Option Failure) (u : World) : Prop :=
  u.server = s.server ∧ u.statements = s.statements

theorem Heard.allowsAside (s : World) : Allows Aside (Heard s) := by
  intro w o u p v q h k _
  exact ⟨k.server.trans h.1, (Aside.statements k).trans h.2⟩

theorem session_heard (op : Act α) (w : World) :
    LeadsFrom (Heard (op { w with client := .start }).2) w (session op) := by
  unfold LeadsFrom
  rw [session_apply]
  generalize (op { w with client := .start }).2 = s
  refine ⟨rfl, ?_⟩
  unfold closed World.statements
  dsimp only
  split
  · rw [List.filterMap_append]
    exact List.append_nil _
  · rfl

/-- A world that has the disk and the actor of another one, and the trail that was started there, whatever
correlations are open. -/
structure Underway (access : Access) (w s : World) : Prop where
  disk : s.disk = w.disk
  actor : s.actor = w.actor
  trail : ∃ ids, s.trail =
    some { Trail.ofSettings access.settings.audit (w.tickets + 1) with correlations := ids }

namespace Underway

variable {access : Access} {w s u : World}

theorem opening (access : Access) (w : World) : Underway access w (opening access w) := ⟨rfl, rfl, [], rfl⟩

theorem attends (h : Underway access w s) {o : Option Failure} (hs : s.Unlocked) (hop : Attends access s o u) :
    Underway access w u := by
  obtain ⟨_, -, -, hapart⟩ := hop hs
  unfold World.Apart at hapart
  rw [hapart]
  exact ⟨h.disk, h.actor, h.trail⟩

theorem correlating (h : Underway access w s) (operation : String) :
    Underway access w (correlating operation s) := by
  obtain ⟨ids, htrail⟩ := h.trail
  refine ⟨h.disk, h.actor, Trail.correlationIdOf operation (s.tickets + 1) :: ids, ?_⟩
  unfold CommandLine.correlating
  rw [htrail]
  rfl

theorem closed (h : Underway access w s) : Underway access w (closed s) := ⟨h.disk, h.actor, h.trail⟩

/-- A record goes to the trail that was started. -/
theorem record (h : Underway access w s) {a : Attempt} (htarget : a.target = access.target)
    (failure : Option Error) :
    ∃ l : Trail.Logged, l.actor = w.actor ∧
      (⟨a.action, a.name, failure.isNone⟩ : Account).Describes access.target l.event ∧
      (a.record failure s).2.disk =
        ((Trail.ofSettings access.settings.audit (w.tickets + 1)).log l w.disk).2 := by
  obtain ⟨ids, htrail⟩ := h.trail
  refine ⟨⟨ids, s.actor, a.event s.now failure⟩, h.actor, ⟨rfl, rfl, congrArg some htarget, rfl, rfl⟩, ?_⟩
  rw [record_apply, record_disk htrail, h.disk]
  rfl

end Underway

/-- What a command leaves is what its work leaves, but for what it tells. -/
theorem Works.leaves {command : Act Unit} {op : Act α} (h : Works command op) (w : World) :
    (command w).2.disk = (op w).2.disk ∧ LeadsFrom (Heard (op w).2) w command := by
  have hallows : Allows Tells fun _ _ u => u.disk = (op w).2.disk := by
    intro _ _ u _ v _ hdisk htells _
    rw [htells.rest]
    exact hdisk
  exact ⟨h.allows (w := w) hallows rfl, h.allows (Heard.allowsAside _).tells ⟨rfl, rfl⟩⟩

theorem Works.recorded {command : Act Unit} {op : Act α} {access : Access} {w : World} {account : Option Account}
    (h : Works command op) (hserver : w.Reliably (command w).2)
    (hop : w.Reliably (op w).2 → Recorded access w (op w).2 account) :
    Recorded access w (command w).2 account := by
  obtain ⟨hdisk, hlast, hstatements⟩ := h.leaves w
  have hworked := hop fun said hsaid => hserver said (hstatements.trans hsaid)
  exact hworked.congr hdisk hlast

end CommandLine

end CatalogSteward
