import CatalogSteward.Proofs.Client
import CatalogSteward.Proofs.Lifecycle.Calls
import CatalogSteward.Proofs.Lock.Section
import CatalogSteward.Proofs.Rules

/-!
# What calls do to the catalog

At a server for which no answers were laid down, all that counts of the world is the catalog. This module
gives, for requests and for whole calls, the result and the catalog afterwards as functions of the catalog
before, and shows that the operations of the program compute these functions: they change nothing else but
the client, the trace and, for the time of the section, the lock.
-/

namespace CatalogSteward.Lifecycle
open Act Client

/-! ### Requests -/

namespace Request

def text : Request → String
  | .create d => (Statement.create d.name d.schema d.version).text
  | .find name => (Query.entry name).text
  | .has name => (Query.presence name).text
  | .relocate name schema => (Statement.relocate name schema).text
  | .reversion name version => (Statement.reversion name version).text
  | .drop name => (Statement.drop name).text

def parameters : Request → Option (List Json)
  | .find name => some [.str name]
  | .has name => some [.str name]
  | _ => none

/-- What a failure of the request says was being done. -/
def context : Request → String
  | .create _ => "creating extension"
  | .find _ => "reading extension"
  | .has _ => "checking extension"
  | .relocate _ _ => "updating extension SCHEMA"
  | .reversion _ _ => "updating extension version"
  | .drop _ => "deleting extension"

def check : Request → Except Error Unit
  | .relocate name schema => (Rules.checkSchemaChange name schema).map fun _ => ()
  | _ => .ok ()

def interpret : Request → List (List Json) → Except Failure Reply
  | .find _, rows =>
    match rows.head? with
    | none => .ok ⟨none, false⟩
    | some row =>
      match Observed.ofRow row with
      | .ok o => .ok ⟨some o, false⟩
      | .error f => .error (.fault f)
  | .has _, rows => .ok ⟨none, !rows.isEmpty⟩
  | _, _ => .ok .nothing

/-- The reply to a request, and the catalog afterwards. -/
def onCatalog (q : Request) (c : Catalog) : Except Failure Reply × Catalog :=
  match q.check with
  | .error e => (.error (.error e), c)
  | .ok () =>
    let (rows, c) := exchange q.context q.text q.parameters c
    (rows.bind q.interpret, c)

/-- Everything that a request does before it sends its text. -/
def prelude (access : Access) : Request → Act Unit
  | .create d => do
    requireExtensions access Gateway.resourceName
    say .step ("Creating extension '" ++ d.name ++ "'")
  | .relocate name schema => do
    let schema ← checked (Rules.checkSchemaChange name schema)
    say .step ("Moving extension '" ++ name ++ "' to schema '" ++ schema ++ "'")
  | .reversion name version =>
    say .step ("Updating extension '" ++ name ++ "' to " ++ (version.filter (· ≠ "")).getD "default version")
  | .drop name => say .step ("Dropping extension '" ++ name ++ "'")
  | _ => return

end Request

/-- A request sends one text, once all that comes before it has gone well. -/
theorem Request.perform_eq (access : Access) (q : Request) :
    q.perform access = (do
      q.prelude access
      let rows ← send access q.context q.text q.parameters
      liftM (q.interpret rows)) := by
  cases q with
  | create d =>
      simp only [perform, Gateway.create, execute, prelude, text, context, parameters, interpret,
        bind_assoc, pure_bind]
      rfl
  | find name =>
      simp only [perform, Gateway.find, fetch, prelude, text, context, parameters, interpret, bind_assoc,
        pure_bind]
      refine congrArg (send access _ _ _ >>= ·) ?_
      funext rows
      cases rows.head? with
      | none => rfl
      | some row =>
          dsimp only
          cases Observed.ofRow row <;> rfl
  | has name =>
      simp only [perform, Gateway.has, fetch, prelude, text, context, parameters, interpret, bind_assoc,
        pure_bind]
      rfl
  | relocate name schema =>
      simp only [perform, Gateway.relocate, execute, prelude, text, context, parameters, interpret,
        bind_assoc, pure_bind]
      cases hcheck : Rules.checkSchemaChange name schema with
      | error e => simp only [checked_error, fail_bind]
      | ok checked =>
          obtain ⟨rfl, -⟩ := Rules.checkSchemaChange_eq_ok_iff.mp hcheck
          simp only [checked_ok, pure_bind]
          rfl
  | reversion name version =>
      simp only [perform, Gateway.reversion, execute, prelude, text, context, parameters, interpret,
        bind_assoc, pure_bind]
      rfl
  | drop name =>
      simp only [perform, Gateway.drop, execute, prelude, text, context, parameters, interpret, bind_assoc,
        pure_bind]
      rfl

theorem Request.prelude_apply (access : Access) (q : Request) {w : World} (hw : w.client.Cleared) :
    ∃ u, q.prelude access w = (q.check.mapError Failure.error, u) ∧ Talk access w w.server.catalog u := by
  have hsay (message : String) := Talk.said access w .step message
  cases q with
  | create d =>
      refine ⟨_, ?_, hsay ("Creating extension '" ++ d.name ++ "'")⟩
      rw [prelude, bind_ok (requireExtensions_cleared access _ hw), say_apply]
      rfl
  | find name => exact ⟨w, rfl, .refl access w⟩
  | has name => exact ⟨w, rfl, .refl access w⟩
  | relocate name schema =>
      rw [prelude, check]
      cases Rules.checkSchemaChange name schema with
      | error e => exact ⟨w, rfl, .refl access w⟩
      | ok checked => exact ⟨_, say_apply .., hsay _⟩
  | reversion name version => exact ⟨_, say_apply .., hsay _⟩
  | drop name => exact ⟨_, say_apply .., hsay _⟩

/-- A request does to the catalog of a server that has extensions what it does to the catalog alone. -/
theorem Request.perform_apply (access : Access) (q : Request) {w : World} (hw : w.server.Unscripted)
    (hclient : w.client.Cleared) :
    ∃ u, q.perform access w = ((q.onCatalog w.server.catalog).1, u) ∧
      Talk access w (q.onCatalog w.server.catalog).2 u := by
  obtain ⟨u, hprelude, hu⟩ := q.prelude_apply access hclient
  rw [perform_eq, onCatalog]
  cases hcheck : q.check with
  | error e =>
      rw [hcheck] at hprelude
      exact ⟨u, bind_error hprelude _, hu⟩
  | ok _ =>
      rw [hcheck] at hprelude
      obtain ⟨v, hsend, hv⟩ := send_apply access q.context q.text q.parameters (hu.unscripted hw)
      rw [hu.server] at hsend hv
      dsimp only at hsend hv ⊢
      refine ⟨v, ?_, hu.trans hv⟩
      rw [bind_ok hprelude, bind_apply, hsend]
      cases (exchange q.context q.text q.parameters w.server.catalog).1 <;> rfl

/-! ### Calls -/

/-- The last reply to some requests, and the catalog afterwards. -/
def allOnCatalog : List Request → Reply → Catalog → Except Failure Reply × Catalog
  | [], reply, c => (.ok reply, c)
  | q :: qs, _, c =>
    match q.onCatalog c with
    | (.ok reply, c) => allOnCatalog qs reply c
    | (.error f, c) => (.error f, c)

theorem performAll_apply (access : Access) (qs : List Request) (reply : Reply) {w : World}
    (hw : w.server.Unscripted) (hclient : w.client.Cleared) :
    ∃ u, performAll access qs reply w = ((allOnCatalog qs reply w.server.catalog).1, u) ∧
      Talk access w (allOnCatalog qs reply w.server.catalog).2 u := by
  induction qs generalizing reply w with
  | nil => exact ⟨w, rfl, .refl access w⟩
  | cons q qs ih =>
      obtain ⟨u, hperform, hu⟩ := q.perform_apply access hw hclient
      rw [performAll, allOnCatalog]
      rcases hq : q.onCatalog w.server.catalog with ⟨f | reply, c⟩
      · rw [hq] at hperform hu
        exact ⟨u, bind_error hperform _, hu⟩
      · rw [hq] at hperform hu
        obtain ⟨v, hperformAll, hv⟩ := ih reply (hu.unscripted hw) (hu.cleared hclient)
        rw [hu.server] at hperformAll hv
        exact ⟨v, (bind_ok hperform _).trans hperformAll, hu.trans hv⟩

namespace Call

def settled : Call → Answer
  | .installed _ => .installed false
  | .update _ _ _ => .updated .unchanged
  | .delete _ => .deleted
  | _ => .observed none

def concluded : Call → Reply → Answer
  | .installed _, reply => .installed reply.present
  | .update _ _ _, reply => .updated (.readBack reply.found)
  | .delete _, _ => .deleted
  | _, reply => .observed reply.found

/-- The result of a call that the version gate lets pass or not, and the catalog afterwards. -/
def onCatalog (gate : Except Failure Unit) (call : Call) (c : Catalog) : Except Failure Answer × Catalog :=
  match gate.bind fun _ => call.plan.mapError .error with
  | .error f => (.error f, c)
  | .ok [] => ((call.deliver call.settled).mapError .error, c)
  | .ok (q :: qs) =>
    let (reply, c) := allOnCatalog (q :: qs) .nothing c
    (reply.bind fun reply => (call.deliver (call.concluded reply)).mapError .error, c)

section
variable {call : Call} {qs : List Request}

theorem onCatalog_of_error {e : Error} (h : call.plan = .error e) (c : Catalog) :
    call.onCatalog (.ok ()) c = (.error (.error e), c) := by
  rw [onCatalog, h]
  rfl

theorem onCatalog_of_nil (h : call.plan = .ok []) (c : Catalog) :
    call.onCatalog (.ok ()) c = ((call.deliver call.settled).mapError .error, c) := by
  rw [onCatalog, h]
  rfl

theorem onCatalog_of_requests (h : call.plan = .ok qs) (hqs : qs ≠ []) (c : Catalog) :
    call.onCatalog (.ok ()) c =
      ((allOnCatalog qs .nothing c).1.bind fun reply =>
        (call.deliver (call.concluded reply)).mapError .error, (allOnCatalog qs .nothing c).2) := by
  obtain ⟨q, qs, rfl⟩ := List.exists_cons_of_ne_nil hqs
  rw [onCatalog, h]
  rfl

end

theorem noted_apply (identity : String) (found : Option Observed) (w : World) :
    ∃ u, noted identity found w = (.ok found, u) ∧
      ∀ access, Talk access w w.server.catalog u := by
  cases found with
  | none => exact ⟨_, bind_ok (say_apply ..) _, fun access => .said access w ..⟩
  | some o => exact ⟨w, rfl, fun access => .refl access w⟩

theorem conclude_apply (call : Call) (reply : Reply) (w : World) :
    ∃ u, call.conclude reply w = (.ok (call.concluded reply), u) ∧
      ∀ access, Talk access w w.server.catalog u := by
  have hnoted (identity : String) (g : Option Observed → Answer) :
      ∃ u, (do return g (← noted identity reply.found) : Act Answer) w = (.ok (g reply.found), u) ∧
        ∀ access, Talk access w w.server.catalog u := by
    obtain ⟨u, hu, htalk⟩ := noted_apply identity reply.found w
    exact ⟨u, bind_ok hu _, htalk⟩
  cases call with
  | create desired => exact hnoted desired.name .observed
  | installed identity => exact ⟨w, rfl, fun access => .refl access w⟩
  | read identity => exact hnoted identity .observed
  | adopt name => exact hnoted name .observed
  | update identity previous desired => exact hnoted identity fun o => .updated (.readBack o)
  | delete identity => exact ⟨w, rfl, fun access => .refl access w⟩

theorem settle_apply (call : Call) (w : World) :
    ∃ u, call.settle w = (.ok call.settled, u) ∧ ∀ access, Talk access w w.server.catalog u := by
  cases call with
  | update identity previous desired =>
      exact ⟨_, bind_ok (say_apply ..) _, fun access => .said access w ..⟩
  | _ => exact ⟨w, rfl, fun access => .refl access w⟩

theorem prepare_apply (access : Access) (call : Call) {w : World} (hw : w.server.Unscripted) :
    ∃ u, call.prepare access w =
        ((w.client.verdict access Gateway.resourceName w.server.version).bind fun _ =>
          call.plan.mapError .error, u) ∧
      Talk access w w.server.catalog u ∧
      (w.client.verdict access Gateway.resourceName w.server.version = .ok () → u.client.Cleared) := by
  obtain ⟨u, hgate, hu, hclient⟩ := requireExtensions_apply access Gateway.resourceName hw.connectReplies
  refine ⟨u, ?_, hu, hclient⟩
  rw [prepare, bind_apply, hgate]
  cases w.client.verdict access Gateway.resourceName w.server.version with
  | error f => rfl
  | ok _ => cases call.plan <;> rfl

theorem body_apply (access : Access) (call : Call) (qs : List Request) {w : World}
    (hw : w.server.Unscripted) (hclient : w.client.Cleared) :
    ∃ u, call.body access qs w =
        ((allOnCatalog qs .nothing w.server.catalog).1.map call.concluded, u) ∧
      Talk access w (allOnCatalog qs .nothing w.server.catalog).2 u := by
  obtain ⟨u, hperform, hu⟩ := performAll_apply access qs .nothing hw hclient
  rw [body, bind_apply, hperform]
  cases (allOnCatalog qs .nothing w.server.catalog).1 with
  | error f => exact ⟨u, rfl, hu⟩
  | ok reply =>
      obtain ⟨v, hconclude, hv⟩ := call.conclude_apply reply u
      refine ⟨v, hconclude, hu.trans ?_⟩
      have htalk := hv access
      rwa [hu.server] at htalk

theorem mapError_eq_ok {α : Type} {x : Except Error α} {a : α} :
    x.mapError Failure.error = .ok a ↔ x = .ok a := by
  cases x <;> simp [Except.mapError]

theorem deliver_apply (call : Call) (answer : Answer) (w : World) :
    (checked (call.deliver answer) : Act Answer) w = ((call.deliver answer).mapError .error, w) := by
  cases call.deliver answer <;> rfl

/-- The world after an operation that has led to a catalog: the lock is as it was before. -/
structure Ran (access : Access) (w : World) (c : Catalog) (u : World) : Prop where
  talk : Talk access w c { u with locks := w.locks }
  lock : u.locks.lock access.target = w.locks.lock access.target

theorem Ran.of_talk {access : Access} {w u : World} {c : Catalog} (h : Talk access w c u) :
    Ran access w c u :=
  ⟨⟨by rw [h.world]; rfl, h.version, h.cleared⟩, by rw [h.locks]⟩

theorem Ran.after_talk {access : Access} {w u v : World} {c d : Catalog} (h : Talk access w c u)
    (k : Ran access u d v) : Ran access w d v := by
  refine ⟨h.trans ?_, k.lock.trans (by rw [h.locks])⟩
  rw [← h.locks]
  exact k.talk

theorem section_apply (access : Access) (call : Call) (qs : List Request) {w : World}
    (hw : w.server.Unscripted) (hclient : w.client.Cleared)
    (hlock : (w.locks.lock access.target).admits call.mode = true) :
    ∃ u, locked call.mode access.target (call.body access qs) w =
        ((allOnCatalog qs .nothing w.server.catalog).1.map call.concluded, u) ∧
      Ran access w (allOnCatalog qs .nothing w.server.catalog).2 u := by
  obtain ⟨v, hbody, hv⟩ := call.body_apply access qs (w := w.entered call.mode access.target) hw hclient
  obtain ⟨locks, hlocked, hafter⟩ := locked_apply hlock hbody hv.locks
  refine ⟨_, hlocked, ⟨?_, hv.version, hv.cleared⟩, hafter⟩
  rw [hv.world]
  rfl

/-- A call that is admitted to the lock, if it needs it at all, does to the catalog of the server what it
does to the catalog alone. -/
theorem run_apply (access : Access) (call : Call) {w : World} (hw : w.server.Unscripted)
    (hlock : ∀ q qs, call.plan = .ok (q :: qs) →
      (w.locks.lock access.target).admits call.mode = true) :
    ∃ u, call.run access w =
        ((call.onCatalog (w.client.verdict access Gateway.resourceName w.server.version)
          w.server.catalog).1, u) ∧
      Ran access w (call.onCatalog (w.client.verdict access Gateway.resourceName w.server.version)
        w.server.catalog).2 u ∧
      (w.client.verdict access Gateway.resourceName w.server.version = .ok () → u.client.Cleared) := by
  obtain ⟨u, hprepare, hu, hclient⟩ := call.prepare_apply access hw
  rw [run_eq, staged, onCatalog]
  rcases hplan : (w.client.verdict access Gateway.resourceName w.server.version).bind fun _ =>
    call.plan.mapError .error with f | _ | ⟨q, qs⟩
  · rw [hplan] at hprepare
    exact ⟨u, bind_error hprepare _, .of_talk hu, hclient⟩
  · rw [hplan] at hprepare
    obtain ⟨v, hsettle, hv⟩ := call.settle_apply u
    rw [bind_ok hprepare, if_pos rfl, bind_ok hsettle]
    have htalk := hu.trans (hv access)
    rw [hu.server] at htalk
    exact ⟨v, call.deliver_apply _ v, .of_talk htalk, fun hgate => (hv access).cleared (hclient hgate)⟩
  · rw [hplan] at hprepare
    have hgate : w.client.verdict access Gateway.resourceName w.server.version = .ok () := by
      cases h : w.client.verdict access Gateway.resourceName w.server.version with
      | error f => rw [h] at hplan; cases hplan
      | ok _ => rfl
    have hadmits : (u.locks.lock access.target).admits call.mode = true := by
      rw [hgate] at hplan
      rw [hu.locks]
      exact hlock q qs (mapError_eq_ok.mp hplan)
    obtain ⟨v, hsection, hv⟩ :=
      call.section_apply access (q :: qs) (hu.unscripted hw) (hclient hgate) hadmits
    rw [hu.server] at hsection hv
    dsimp only at hsection hv ⊢
    rw [bind_ok hprepare, if_neg (List.cons_ne_nil q qs), bind_apply, hsection]
    refine ⟨v, ?_, .after_talk hu hv, fun hgate => hv.talk.cleared (hclient hgate)⟩
    cases (allOnCatalog (q :: qs) .nothing w.server.catalog).1 with
    | error f => rfl
    | ok reply => exact call.deliver_apply _ v

theorem run_ok {access : Access} {call : Call} {w u : World} {answer : Answer} (hw : w.server.Unscripted)
    (h : call.run access w = (.ok answer, u)) :
    call.onCatalog (.ok ()) w.server.catalog = (.ok answer, u.server.catalog) ∧
      Ran access w u.server.catalog u ∧ u.client.Cleared := by
  -- a call that was not admitted to the lock would have ended with a fault
  have hlock (q : Request) (qs : List Request) (hplan : call.plan = .ok (q :: qs)) :
      (w.locks.lock access.target).admits call.mode = true := by
    refine Decidable.byContradiction fun hno => ?_
    obtain ⟨v, hprepare, hv, -⟩ := call.prepare_apply access hw
    have hadmits : (v.locks.lock access.target).admits call.mode = false := by
      rw [hv.locks]
      exact Bool.eq_false_iff.mpr hno
    rw [hplan] at hprepare
    rw [run_eq, staged] at h
    cases hgate : w.client.verdict access Gateway.resourceName w.server.version with
    | error f =>
        rw [hgate] at hprepare
        rw [bind_error hprepare] at h
        cases h
    | ok _ =>
        rw [hgate] at hprepare
        rw [bind_ok hprepare, if_neg (List.cons_ne_nil q qs), bind_error (locked_error hadmits _)] at h
        cases h
  obtain ⟨v, hrun, hv, hclient⟩ := call.run_apply access hw hlock
  obtain ⟨hresult, rfl⟩ := Prod.mk.inj (h.symm.trans hrun)
  have hcatalog : u.server.catalog = (call.onCatalog _ w.server.catalog).2 :=
    congrArg Server.catalog hv.talk.server
  cases hgate : w.client.verdict access Gateway.resourceName w.server.version with
  | error f =>
      rw [hgate] at hresult
      cases hresult
  | ok _ =>
      rw [hgate] at hresult hv hcatalog
      refine ⟨Prod.ext hresult.symm hcatalog.symm, ?_, hclient hgate⟩
      rwa [hcatalog]

end Call

end CatalogSteward.Lifecycle
