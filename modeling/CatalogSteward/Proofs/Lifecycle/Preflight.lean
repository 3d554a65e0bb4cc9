import CatalogSteward.Proofs.Connections

/-!
# Errors before anything is done

A call can find out that the server has no extensions, or that its arguments are not in order, only before
it takes the lock: the same questions asked again in the section under the lock have the same answers. So
a call that ends with such an error has sent nothing. Once the version of the server is known, the error is
decided by the version and the arguments alone.
-/

namespace CatalogSteward

/-- Whether a report is about the arguments of an operation, or about what the server does not have. -/
def Report.Kind.isPreflight : Report.Kind → Bool
  | validation => true
  | unsupported _ _ => true
  | _ => false

def Failure.isPreflight : Failure → Bool
  | .error e => e.report.kind.isPreflight
  | _ => false

theorem Refusal.isPreflight_ofConnection (target : String) (r : Refusal) :
    (r.ofConnection target).isPreflight = false := by
  cases r <;> rfl

theorem Refusal.isPreflight_ofStatement (context text : String) (r : Refusal) :
    (r.ofStatement context text).isPreflight = false := by
  cases r <;> rfl

namespace Rules

/-- An error of a check is about the arguments. -/
theorem checkName_kind {objectType value : String} {e : Error} (h : checkName objectType value = .error e) :
    e.report.kind = .validation := by
  unfold checkName at h
  split_ifs at h <;> cases h <;> rfl

theorem checkSchemaChange_kind {extension schema : String} {e : Error}
    (h : checkSchemaChange extension schema = .error e) : e.report.kind = .validation := by
  unfold checkSchemaChange at h
  split_ifs at h
  · cases h
    rfl
  · exact checkName_kind h

end Rules

/-! ### Once the gate has been passed -/

/-- A client that knows that the server has extensions goes on knowing it, and meets no error that it
could have met before. -/
def Late (w : World) (o : Option Failure) (u : World) : Prop :=
  w.client.Cleared → u.client.Cleared ∧ ∀ f ∈ o, f.isPreflight = false

namespace Late
open Act Client

variable {α : Type} {a : Act α} {w u : World} {o : Option Failure} {access : Access}

theorem composes : Composes Late where
  refl _ := fun hw => ⟨hw, fun _ h => by cases h⟩
  trans := fun h k hw => k (h hw).1

theorem of_known (hknown : u.client.knownVersion = w.client.knownVersion)
    (ho : ∀ f ∈ o, f.isPreflight = false) : Late w o u :=
  fun ⟨n, hn, hsupports⟩ => ⟨⟨n, hknown.trans hn, hsupports⟩, ho⟩

theorem say (level : Level) (message : String) : Leads Late (say level message) := by
  intro w
  rw [say_apply]
  exact of_known rfl fun _ h => by cases h

theorem connection (access : Access) : Leads Late (connection access) := by
  intro w
  refine of_known (connection_knownVersion access w) fun f hf => ?_
  rcases h : Client.connection access w with ⟨g | link, u⟩ <;> rw [h] at hf <;> cases hf
  obtain ⟨r, -, rfl⟩ := connection_error h
  exact r.isPreflight_ofConnection access.target

theorem send (access : Access) (context text : String) (parameters : Option (List Json)) :
    Leads Late (send access context text parameters) := by
  intro w
  refine of_known (send_knownVersion access context text parameters w) fun f hf => ?_
  rcases h : Client.connection access (w.said .debug ("SQL: " ++ text)) with ⟨g | link, v⟩
  · rw [Client.send, bind_ok (say_apply ..), bind_error h] at hf
    cases hf
    obtain ⟨r, -, rfl⟩ := connection_error h
    exact r.isPreflight_ofConnection access.target
  · obtain ⟨u, hsend, -⟩ := send_connected access context text parameters h
    rw [hsend] at hf
    cases hanswer : (v.server.answer text parameters).1 with
    | ok rows =>
        rw [hanswer] at hf
        cases hf
    | error r =>
        rw [hanswer] at hf
        cases hf
        exact r.isPreflight_ofStatement context text

theorem acquire (mode : LockMode) (key : String) : Leads Late (acquire mode key) := by
  intro w
  cases hadmits : ((w.locks.ensure key).lock key).admits mode with
  | true =>
      rw [acquire_ok hadmits]
      exact of_known rfl fun _ h => by cases h
  | false =>
      rw [acquire_error hadmits]
      exact of_known rfl fun _ h => by cases h; rfl

theorem release (mode : LockMode) (key : String) : Leads Late (release mode key) := by
  intro w
  cases hrelease : (w.locks.lock key).release mode with
  | ok lock =>
      rw [release_ok hrelease]
      exact of_known rfl fun _ h => by cases h
  | error e =>
      rw [release_error hrelease]
      exact of_known rfl fun _ h => by cases h; rfl

theorem locked (mode : LockMode) (key : String) (h : Leads Late a) : Leads Late (locked mode key a) := by
  refine composes.bind (acquire mode key) fun _ => fun w => ?_
  rw [always_apply]
  have hbody := h w
  have hrelease := release mode key (a w).2
  rcases hafter : Act.release mode key (a w).2 with ⟨f | _, v⟩ <;> rw [hafter] at hrelease
  · exact fun hw => hrelease (hbody hw).1
  · exact fun hw => ⟨(hrelease (hbody hw).1).1, (hbody hw).2⟩

end Late

namespace Lifecycle
open Act Client

theorem Request.perform_late (access : Access) {q : Request} (hq : q.check = .ok ()) :
    Leads Late (q.perform access) := by
  intro w hw
  obtain ⟨u, hprelude, hu⟩ := q.prelude_spoken access hw hq
  rw [perform_eq, bind_ok hprelude]
  have hsend := Late.send access q.context q.text q.parameters
  refine Late.composes.bind hsend (fun rows v => ?_) u (by rwa [hu.client])
  rw [liftM_apply]
  refine .of_known rfl fun f hf => ?_
  cases hinterpret : q.interpret rows with
  | ok reply =>
      rw [hinterpret] at hf
      cases hf
  | error g =>
      rw [hinterpret] at hf
      cases hf
      obtain ⟨-, -, fault, -, rfl, -⟩ := interpret_error hinterpret
      rfl

theorem performAll_late (access : Access) {qs : List Request} (hqs : ∀ q ∈ qs, q.check = .ok ())
    (reply : Reply) : Leads Late (performAll access qs reply) := by
  induction qs generalizing reply with
  | nil => exact Late.composes.pure reply
  | cons q qs ih =>
      exact Late.composes.bind (q.perform_late access (hqs q List.mem_cons_self))
        (ih fun q hq => hqs q (List.mem_cons_of_mem _ hq))

namespace Call

theorem noted_late (identity : String) (found : Option Observed) : Leads Late (noted identity found) := by
  cases found with
  | none => exact Late.composes.bind (.say _ _) fun _ => Late.composes.pure _
  | some o => exact Late.composes.pure _

theorem conclude_late (call : Call) (reply : Reply) : Leads Late (call.conclude reply) := by
  have hnoted (identity : String) (g : Option Observed → Answer) :
      Leads Late (do return g (← noted identity reply.found)) :=
    Late.composes.bind (noted_late identity reply.found) fun _ => Late.composes.pure _
  cases call with
  | create desired => exact hnoted desired.name .observed
  | read identity => exact hnoted identity .observed
  | adopt name => exact hnoted name .observed
  | update identity previous desired => exact hnoted identity fun o => .updated (.readBack o)
  | installed identity => exact Late.composes.pure _
  | delete identity => exact Late.composes.pure _

theorem settle_late (call : Call) : Leads Late call.settle := by
  cases call with
  | update identity previous desired => exact Late.composes.bind (.say _ _) fun _ => Late.composes.pure _
  | _ => exact Late.composes.pure _

theorem deliver_late (call : Call) (answer : Answer) : Leads Late (checked (call.deliver answer)) := by
  intro w
  rw [deliver_apply]
  refine .of_known rfl fun f hf => ?_
  unfold deliver at hf
  split at hf <;> cases hf
  rfl

/-- Whatever happens after a call has been prepared, it ends with no error that could have been met
before. -/
theorem staged_late {access : Access} {call : Call} {w u : World} {qs : List Request}
    (h : call.prepare access w = (.ok qs, u)) :
    ∀ f ∈ failure? (call.run access w).1, f.isPreflight = false := by
  obtain ⟨hgate, hadmissible, rfl⟩ := prepare_ok h
  have hcleared : u.client.Cleared := requireExtensions_clears hgate
  have hbody : Leads Late (call.body access call.course) :=
    Late.composes.bind (performAll_late access (check_course hadmissible) .nothing) call.conclude_late
  rw [run_eq, staged, bind_ok h]
  split
  · exact (Late.composes.bind call.settle_late call.deliver_late u hcleared).2
  · exact (Late.composes.bind (Late.locked call.mode access.target hbody) call.deliver_late u hcleared).2

/-- An error that the plan of a call ends with is about its arguments. -/
theorem plan_kind {call : Call} {e : Error} (h : call.plan = .error e) : e.report.kind = .validation := by
  have hchecked {name : String} {qs : List Request}
      (h : (Rules.checkName "extension" name).map (fun _ => qs) = .error e) :
      e.report.kind = .validation := by
    cases hcheck : Rules.checkName "extension" name with
    | ok checked => rw [hcheck] at h; cases h
    | error e' =>
        rw [hcheck] at h
        cases h
        exact Rules.checkName_kind hcheck
  cases call with
  | create desired => exact hchecked h
  | delete identity => exact hchecked h
  | update identity previous desired =>
      rw [plan, Declared.changes] at h
      by_cases hname : desired.name = identity
      · rw [if_neg (not_not_intro hname)] at h
        cases hdiffers : differing desired.schema previous.schema with
        | none => rw [hdiffers] at h; cases h
        | some schema =>
            rw [hdiffers] at h
            dsimp only at h
            cases hcheck : Rules.checkSchemaChange identity schema with
            | ok checked => rw [hcheck] at h; cases h
            | error e' =>
                rw [hcheck] at h
                cases h
                exact Rules.checkSchemaChange_kind hcheck
      · rw [if_pos hname] at h
        cases h
        rfl
  | _ => cases h

/-- A call that could not be prepared ends with the same failure, and has sent nothing. -/
theorem run_unprepared {access : Access} {call : Call} {w u : World} {f : Failure}
    (h : call.prepare access w = (.error f, u)) : call.run access w = (.error f, u) := by
  rw [run_eq, staged, bind_error h]

theorem run_planless {access : Access} {call : Call} {w u : World} {e : Error}
    (hgate : requireExtensions access Gateway.resourceName w = (.ok (), u)) (hplan : call.plan = .error e) :
    call.run access w = (.error (.error e), u) := by
  refine run_unprepared ?_
  rw [prepare, bind_ok hgate, hplan]
  rfl

end Call

end Lifecycle

namespace Client
open Act

/-- The version of the server, as far as it is known: it is remembered, or the settings expect it, or the
connection that is open or can be opened tells it. -/
def Knows (access : Access) (w : World) (n : Int) : Prop :=
  match w.client.knownVersion, access.settings.connection.expectedVersion.filter (· ≠ "") with
  | some known, _ => known = n
  | none, some text => Version.parse text = .ok n
  | none, none => ∃ link, (connection access w).1 = .ok link ∧ link.version = n

theorem serverVersion_of_knows {access : Access} {w : World} {n : Int} (h : Knows access w n) :
    (serverVersion access w).1 = .ok n := by
  unfold Knows at h
  split at h
  · next known expected hknown =>
      rw [serverVersion_known access hknown, h]
  · next text hknown hexpected =>
      obtain ⟨hgiven, hne⟩ := Option.filter_eq_some_iff.mp hexpected
      rw [serverVersion_expected hgiven (of_decide_eq_true hne) hknown, h]
  · next hknown hexpected =>
      obtain ⟨link, hconnection, rfl⟩ := h
      rw [serverVersion_unexpected hexpected hknown]
      generalize connection access w = r at hconnection ⊢
      obtain ⟨_, u⟩ := r
      obtain rfl := hconnection
      rfl

/-- Where a version is expected, asking for it tells nobody anything. -/
theorem requireExtensions_expected {access : Access} {text : String}
    (hexpected : access.settings.connection.expectedVersion = some text) (hne : text ≠ "")
    (resource : String) (w : World) : (requireExtensions access resource w).2.trace = w.trace := by
  have hversion : (serverVersion access w).2.trace = w.trace := by
    cases hknown : w.client.knownVersion with
    | some n => rw [serverVersion_known access hknown]
    | none =>
        rw [serverVersion_expected hexpected hne hknown]
        rcases Version.parse text with (_ | _) | n <;> rfl
  rcases hn : serverVersion access w with ⟨f | n, u⟩ <;> rw [hn] at hversion
  · rw [requireExtensions, bind_error hn]
    exact hversion
  · rw [requireExtensions, bind_ok hn]
    split <;> exact hversion

end Client

namespace Lifecycle.Call
open Act Client

theorem prepare_expected {access : Access} {text : String}
    (hexpected : access.settings.connection.expectedVersion = some text) (hne : text ≠ "") (call : Call)
    (w : World) : (call.prepare access w).2.trace = w.trace := by
  have hgate := requireExtensions_expected hexpected hne Gateway.resourceName w
  rcases h : requireExtensions access Gateway.resourceName w with ⟨f | _, u⟩ <;> rw [h] at hgate
  · rw [prepare, bind_error h]
    exact hgate
  · rw [prepare, bind_ok h]
    cases call.plan <;> exact hgate

/-- A call that cannot be prepared sends nothing and takes no lock; it may have connected for the version,
unless one is expected. -/
theorem prepare_touches_nothing {access : Access} {call : Call} {w u : World} {f : Failure}
    (h : call.prepare access w = (.error f, u)) :
    ∃ added, u.trace = w.trace ++ added ∧ (∀ h ∈ added, h.isLocking = false ∧ h.statement? = none) ∧
      u.locks = w.locks ∧
      u.server = { w.server with
        connectReplies := w.server.connectReplies.drop (added.countP Happening.isConnect) } ∧
      ∀ text ∈ access.settings.connection.expectedVersion, text ≠ "" → added = [] := by
  obtain ⟨added, hdialogue, hlocking, hbesides⟩ := call.prepare_converses access w
  have hsilent := (call.prepare_silent access).statements w
  rw [h] at hdialogue hbesides hsilent
  have hsaid : added.filterMap Happening.statement? = [] := by
    rw [World.statements_append hdialogue.trace] at hsilent
    exact List.append_right_eq_self.mp hsilent
  have hserver := hdialogue.server
  rw [hsaid] at hserver
  have hlocks : u.locks = w.locks := by
    change w.Besides u at hbesides
    rw [hbesides]
  refine ⟨added, hdialogue.trace, fun x hx => ⟨hlocking x hx, List.filterMap_eq_nil_iff.mp hsaid x hx⟩,
    hlocks, hserver, fun text hexpected hne => ?_⟩
  have htrace := prepare_expected hexpected hne call w
  rw [h] at htrace
  exact List.append_right_eq_self.mp (hdialogue.trace.symm.trans htrace)

/-- A call that the gate lets pass ends with an error about its arguments exactly if its plan is one. -/
theorem validation_of_plan {access : Access} {call : Call} {w u : World}
    (hgate : requireExtensions access Gateway.resourceName w = (.ok (), u)) (e : Error) :
    (call.run access w).1 = .error (.error e) ∧ e.report.kind = .validation ↔ call.plan = .error e := by
  constructor
  · rintro ⟨hrun, hkind⟩
    cases hplan : call.plan with
    | error e' =>
        rw [run_planless hgate hplan] at hrun
        cases hrun
        rfl
    | ok qs =>
        have hprepare : call.prepare access w = (.ok qs, u) := by
          rw [prepare, bind_ok hgate, hplan]
          rfl
        have hlate := staged_late hprepare (.error e) (by rw [hrun]; rfl)
        rw [Failure.isPreflight, hkind] at hlate
        cases hlate
  · intro hplan
    exact ⟨by rw [run_planless hgate hplan], plan_kind hplan⟩

/-- A call that ends with an error about its arguments, or about what the server does not have, has sent
nothing and has taken no lock, and the server has only been connected to, which it has not either where
its version is expected. Once the version is known, the call ends with such an error if the version is too
low, whatever its arguments are, and else exactly if its plan, which is made from the arguments alone, is
one. -/
theorem preflight_errors_touch_nothing (access : Access) (call : Call) (w : World) :
    (∀ f, (call.run access w).1 = .error f → f.isPreflight = true →
      ∃ added, (call.run access w).2.trace = w.trace ++ added ∧
        (∀ h ∈ added, h.isLocking = false ∧ h.statement? = none) ∧
        (call.run access w).2.locks = w.locks ∧
        (call.run access w).2.server = { w.server with
          connectReplies := w.server.connectReplies.drop (added.countP Happening.isConnect) } ∧
        ∀ text ∈ access.settings.connection.expectedVersion, text ≠ "" → added = []) ∧
      ∀ n, Knows access w n →
        (n < 90100 → (call.run access w).1 = .error (.error (.unsupported Gateway.resourceName n))) ∧
        (90100 ≤ n → ∀ e, (call.run access w).1 = .error (.error e) ∧ e.report.kind = .validation ↔
          call.plan = .error e) := by
  constructor
  · intro f hf hpreflight
    rcases hprepare : call.prepare access w with ⟨g | qs, u⟩
    · rw [run_unprepared hprepare]
      exact prepare_touches_nothing hprepare
    · have hlate := staged_late hprepare f (by rw [hf]; rfl)
      cases hpreflight.symm.trans hlate
  · intro n hn
    have hversion := serverVersion_of_knows hn
    rcases hasked : serverVersion access w with ⟨_, u⟩
    rw [hasked] at hversion
    obtain rfl := hversion
    refine ⟨fun hlow => ?_, fun hhigh => ?_⟩
    · have hunsupported : Version.supportsExtensions n = false := decide_eq_false (not_le.mpr hlow)
      have hgate : requireExtensions access Gateway.resourceName w =
          (.error (.error (.unsupported Gateway.resourceName n)), u) := by
        rw [requireExtensions, bind_ok hasked, hunsupported]
        rfl
      rw [run_unprepared (bind_error hgate _)]
    · have hsupported : Version.supportsExtensions n = true := decide_eq_true hhigh
      refine validation_of_plan (u := u) ?_
      rw [requireExtensions, bind_ok hasked, hsupported]
      rfl

end Lifecycle.Call

end CatalogSteward
