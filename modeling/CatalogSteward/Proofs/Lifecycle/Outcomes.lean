import CatalogSteward.Proofs.Lifecycle.Course
import CatalogSteward.Proofs.Lifecycle.Results

/-!
# What calls come to

For each call the answer and the catalog afterwards, from the catalog before. What the server makes of a
statement decides the two calls that send one; the calls that look answer with the entry and change nothing.
Where nothing stands in the way of a call, this is what it does to the server.
-/

namespace CatalogSteward

/-! ### Statements -/

namespace Catalog

/-- An entry that is needed by nothing else. -/
def Independent (c : Catalog) (name : String) : Prop := (find? c.dependents name).getD [] = []

instance (c : Catalog) (name : String) : Decidable (c.Independent name) :=
  inferInstanceAs (Decidable (_ = _))

theorem installation?_uninstall_self (c : Catalog) (name : String) :
    (c.uninstall name).installation? name = none := by
  simp [installation?, find?, uninstall, List.find?_filter]

/-- Exactly the installed extensions that nothing depends on can be dropped. -/
theorem apply_drop_eq_ok_iff {c d : Catalog} {name : String} :
    c.apply (.drop name) = .ok d ↔
      (∃ i, c.installation? name = some i) ∧ c.Independent name ∧ d = c.uninstall name := by
  constructor
  · intro h
    obtain ⟨i, hi, hafter⟩ := except_bind_eq_ok_iff.mp h
    dsimp only at hafter
    split at hafter
    · next hempty =>
        exact ⟨⟨i, requireInstalled_eq_ok_iff.mp hi⟩, List.isEmpty_iff.mp hempty,
          (Except.ok.inj hafter).symm⟩
    · cases hafter
  · intro ⟨⟨i, hi⟩, hfree, hd⟩
    refine except_bind_eq_ok_iff.mpr ⟨i, requireInstalled_eq_ok_iff.mpr hi, ?_⟩
    dsimp only
    rw [if_pos (List.isEmpty_iff.mpr hfree), hd]

/-- What was to be created is installed in the end, whether it was there already or not. -/
theorem installed_of_create {c d : Catalog} {name : String} {schema version : Option String}
    (h : c.apply (.create name schema version) = .ok d) : ∃ i, d.installation? name = some i := by
  cases hi : c.installation? name with
  | none =>
      obtain ⟨i, -, rfl⟩ := (apply_create_eq_ok_iff hi).mp h
      exact ⟨i, installation?_install_self ..⟩
  | some i =>
      obtain rfl := Except.ok.inj ((apply_create_of_installed hi schema version).symm.trans h)
      exact ⟨i, hi⟩

/-- An absent extension is created as it is wanted, if there are such a schema and such a version. -/
theorem apply_create_of_absent {c : Catalog} {name : String} {i : Installation} {versions : List String}
    (habsent : c.installation? name = none) (hschema : i.schema ∈ c.schemas) (hne : i.schema ≠ "")
    (hversions : c.versions? name = some versions) (hversion : i.version ∈ versions) (hne' : i.version ≠ "") :
    c.apply (.create name (some i.schema) (some i.version)) = .ok (c.install name i) := by
  have hwanted {s : String} (hs : s ≠ "") : (some s).filter (· ≠ "") = some s := by
    rw [Option.filter_some, if_pos (decide_eq_true hs)]
  refine (apply_create_eq_ok_iff habsent).mpr ⟨i, ⟨?_, hschema, versions, hversions, ?_, hversion⟩, rfl⟩
  · rw [hwanted hne, Option.getD_some]
  · rw [hwanted hne', Option.some_or]

end Catalog

theorem Server.regular_presence (c : Catalog) (name : String) :
    regular c (Query.presence name).text (some [.str name]) =
      .ok (((c.installation? name).map fun _ => [.str name]).toList, c) := by
  obtain ⟨hpe, -, hap⟩ := Query.distinct_texts
  change regular c (Query.presence "").text (some [.str name]) = _
  rw [regular, if_neg hap.symm, if_neg hpe, if_pos rfl]
  simp only [queried, Option.bind_some]
  cases c.installation? name <;> rfl

/-- A failure that leaves the program with an exit code of its own. -/
def Failure.isExit : Failure → Bool
  | .exit _ => true
  | _ => false

namespace Lifecycle
open Act Client

/-! ### Requests -/

/-- A text that is answered with a failure has changed nothing. -/
theorem exchange_error {context text : String} {parameters : Option (List Json)} {c d : Catalog} {f : Failure}
    (h : exchange context text parameters c = (.error f, d)) : d = c ∧ f.isExit = false := by
  rw [exchange] at h
  rcases hregular : Server.regular c text parameters with (e | r) | ⟨rows, e⟩
  all_goals
    rw [hregular] at h
    cases h
  all_goals exact ⟨rfl, rfl⟩

namespace Request

theorem onCatalog_has (name : String) (c : Catalog) :
    (Request.has name).onCatalog c = (.ok ⟨none, (c.installation? name).isSome⟩, c) := by
  have hexchange : exchange "checking extension" (Query.presence name).text (some [.str name]) c =
      (.ok ((c.installation? name).map fun _ => [Json.str name]).toList, c) := by
    rw [exchange, Server.regular_presence]
  simp only [onCatalog, check, context, text, parameters, hexchange]
  cases c.installation? name <;> rfl

section
variable {q : Request} {s : Statement} {c d : Catalog}

/-- A request does to the catalog what the statement does that is written for it. -/
theorem onCatalog_written (hcheck : q.check = .ok ()) (htext : q.text = s.text)
    (h : c.apply s.written = .ok d) : q.onCatalog c = (q.interpret [], d) := by
  rw [onCatalog, hcheck, htext]
  dsimp only
  rw [exchange, Server.regular_written c s, h]
  rfl

/-- A request whose statement is carried out has changed the catalog as the statement does. -/
theorem onCatalog_applied (hcheck : q.check = .ok ()) (htext : q.text = s.text) (hs : s.Storable)
    (h : c.apply s.normal = .ok d) : q.onCatalog c = (q.interpret [], d) :=
  onCatalog_written hcheck htext (Statement.written_eq_normal hs ▸ h)

theorem onCatalog_refused {r : Refusal} (hcheck : q.check = .ok ()) (htext : q.text = s.text)
    (hs : s.Storable) (h : c.apply s.normal = .error r) : ∃ f, q.onCatalog c = (.error f, c) := by
  rw [onCatalog, hcheck, htext]
  dsimp only
  rw [exchange, Server.regular_statement c hs, h]
  cases r <;> exact ⟨_, rfl⟩

end

/-- Only the answer to a query for an entry has to be understood. -/
theorem interpret_ok {q : Request} (h : ∀ name, q ≠ .find name) (rows : List (List Json)) :
    ∃ reply, q.interpret rows = .ok reply := by
  cases q with
  | find name => exact absurd rfl (h name)
  | _ => exact ⟨_, rfl⟩

/-- A request that fails has changed nothing. -/
theorem onCatalog_error {q : Request} {c d : Catalog} {f : Failure} (h : q.onCatalog c = (.error f, d)) :
    d = c ∧ f.isExit = false := by
  have hfind (name : String) : q ≠ .find name := by
    rintro rfl
    rw [onCatalog_find] at h
    cases h
  rw [onCatalog] at h
  cases hcheck : q.check with
  | error e =>
      rw [hcheck] at h
      cases h
      exact ⟨rfl, rfl⟩
  | ok _ =>
      rw [hcheck] at h
      rcases hexchange : exchange q.context q.text q.parameters c with ⟨g | rows, e⟩
      · rw [hexchange] at h
        cases h
        exact exchange_error hexchange
      · obtain ⟨reply, hreply⟩ := interpret_ok hfind rows
        rw [hexchange] at h
        cases hreply.symm.trans (Prod.mk.inj h).1

end Request

/-- Requests of which one fails: either it is the first, or what comes after the first fails. -/
theorem allOnCatalog_error {q : Request} {qs : List Request} {reply : Reply} {c d : Catalog} {f : Failure}
    (h : allOnCatalog (q :: qs) reply c = (.error f, d)) :
    q.onCatalog c = (.error f, d) ∨
      ∃ next e, q.onCatalog c = (.ok next, e) ∧ allOnCatalog qs next e = (.error f, d) := by
  rw [allOnCatalog] at h
  rcases hq : q.onCatalog c with ⟨g | next, e⟩
  · rw [hq] at h
    obtain ⟨hfailure, rfl⟩ := Prod.mk.inj h
    obtain rfl := Except.error.inj hfailure
    exact .inl rfl
  · rw [hq] at h
    exact .inr ⟨next, e, rfl, h⟩

theorem allOnCatalog_isExit {qs : List Request} {reply : Reply} {c d : Catalog} {f : Failure}
    (h : allOnCatalog qs reply c = (.error f, d)) : f.isExit = false := by
  induction qs generalizing reply c with
  | nil => cases h
  | cons q qs ih =>
      obtain hfirst | ⟨next, e, -, hrest⟩ := allOnCatalog_error h
      · exact (Request.onCatalog_error hfirst).2
      · exact ih hrest

theorem allOnCatalog_find_ne_error (name : String) (reply : Reply) (c : Catalog) (f : Failure) (d : Catalog) :
    allOnCatalog [.find name] reply c ≠ (.error f, d) := by
  rw [allOnCatalog, Request.onCatalog_find]
  intro h
  cases h

/-- How up to two changes fail that are read back: nothing has changed, and at most one request was sent, or the
first one was carried out and the second one was not. -/
theorem allOnCatalog_changes_error {name : String} {schema version : Option String} {reply : Reply}
    {c d : Catalog} {f : Failure}
    (h : allOnCatalog (schema.toList.map (.relocate name) ++
      (version.toList.map (fun v => .reversion name (some v)) ++ [.find name])) reply c = (.error f, d)) :
    (d = c ∧ (allSent (schema.toList.map (.relocate name) ++
        (version.toList.map (fun v => .reversion name (some v)) ++ [.find name])) c).length ≤ 1) ∨
      ∃ wanted chosen next, schema = some wanted ∧ version = some chosen ∧
        (Request.relocate name wanted).onCatalog c = (.ok next, d) ∧
        (Request.reversion name (some chosen)).onCatalog d = (.error f, d) := by
  have hnothing {q : Request} {qs : List Request} (hq : q.onCatalog c = (.error f, d)) :
      d = c ∧ (allSent (q :: qs) c).length ≤ 1 := by
    refine ⟨(Request.onCatalog_error hq).1, ?_⟩
    rw [allSent, hq]
    exact Nat.le_refl 1
  -- the first of two requests fails, since reading back cannot
  have hfirst {q : Request} {reply : Reply} {e : Catalog}
      (hall : allOnCatalog [q, .find name] reply e = (.error f, d)) : q.onCatalog e = (.error f, d) := by
    obtain hq | ⟨next, e', -, hfind⟩ := allOnCatalog_error hall
    · exact hq
    · exact absurd hfind (allOnCatalog_find_ne_error _ _ _ _ _)
  cases schema with
  | none =>
      cases version with
      | none => exact absurd h (allOnCatalog_find_ne_error _ _ _ _ _)
      | some chosen => exact .inl (hnothing (hfirst h))
  | some wanted =>
      cases version with
      | none => exact .inl (hnothing (hfirst h))
      | some chosen =>
          obtain hq | ⟨next, e, hrelocate, hrest⟩ := allOnCatalog_error h
          · exact .inl (hnothing hq)
          · have hreversion := hfirst hrest
            obtain rfl := (Request.onCatalog_error hreversion).1
            exact .inr ⟨wanted, chosen, next, rfl, rfl, hrelocate, hreversion⟩

/-! ### Calls -/

namespace Call

/-- An update fails with the request that fails. -/
theorem allOnCatalog_of_update_error {name : String} {previous : Observed} {desired : Declared}
    {qs : List Request} {c d : Catalog} {f : Failure} (hplan : (Call.update name previous desired).plan = .ok qs)
    (hqs : qs ≠ []) (h : (Call.update name previous desired).onCatalog (.ok ()) c = (.error f, d)) :
    allOnCatalog qs .nothing c = (.error f, d) := by
  rw [onCatalog_of_requests hplan hqs] at h
  rcases hall : allOnCatalog qs .nothing c with ⟨g | last, e⟩
  · rw [hall] at h
    obtain ⟨hfailure, rfl⟩ := Prod.mk.inj h
    obtain rfl := Except.error.inj hfailure
    rfl
  · rw [hall] at h
    cases h

/-- No call leaves the program. -/
theorem onCatalog_isExit {call : Call} {c d : Catalog} {f : Failure}
    (h : call.onCatalog (.ok ()) c = (.error f, d)) : f.isExit = false := by
  have hreported {x : Except Error Answer} (hx : x.mapError Failure.error = .error f) : f.isExit = false := by
    cases x <;> cases hx
    rfl
  rcases hplan : call.plan with e | _ | ⟨q, qs⟩
  · rw [onCatalog_of_error hplan] at h
    cases h
    rfl
  · rw [onCatalog_of_nil hplan] at h
    exact hreported (Prod.mk.inj h).1
  · rw [onCatalog_of_requests hplan (List.cons_ne_nil q qs)] at h
    rcases hall : allOnCatalog (q :: qs) .nothing c with ⟨g | last, e⟩
    · rw [hall] at h
      cases h
      exact allOnCatalog_isExit hall
    · rw [hall] at h
      exact hreported (Prod.mk.inj h).1

variable {name : String} {c d : Catalog}

theorem onCatalog_installed (hname : name ≠ "") (c : Catalog) :
    (Call.installed name).onCatalog (.ok ()) c = (.ok (.installed (c.installation? name).isSome), c) := by
  have hplan : (Call.installed name).plan = .ok [.has name] := by rw [plan, if_neg hname]
  rw [onCatalog_of_requests hplan (List.cons_ne_nil _ _), allOnCatalog, Request.onCatalog_has]
  rfl

theorem onCatalog_installed_empty (c : Catalog) :
    (Call.installed "").onCatalog (.ok ()) c = (.ok (.installed false), c) :=
  onCatalog_of_nil rfl c

theorem onCatalog_read_empty (c : Catalog) :
    (Call.read "").onCatalog (.ok ()) c = (.ok (.observed none), c) :=
  onCatalog_of_nil rfl c

theorem plan_adopt (hname : name ≠ "") : (Call.adopt name).plan = .ok [.find name] := by rw [plan, if_neg hname]

theorem onCatalog_adopt {i : Installation} (hname : name ≠ "") (hi : c.installation? name = some i) :
    (Call.adopt name).onCatalog (.ok ()) c = (.ok (.observed (some (i.observed name))), c) := by
  rw [onCatalog_of_requests (plan_adopt hname) (List.cons_ne_nil _ _), allOnCatalog, Request.onCatalog_find, hi]
  rfl

/-- What is adopted is installed, and nothing changes. -/
theorem onCatalog_adopt_ok {answer : Answer} (h : (Call.adopt name).onCatalog (.ok ()) c = (.ok answer, d)) :
    d = c ∧ ∃ i, c.installation? name = some i := by
  by_cases hname : name = ""
  · rw [hname, onCatalog_of_nil rfl] at h
    cases h
  · rw [onCatalog_of_requests (plan_adopt hname) (List.cons_ne_nil _ _), allOnCatalog,
      Request.onCatalog_find] at h
    cases hi : c.installation? name with
    | none => rw [hi] at h; cases h
    | some i => exact ⟨(Prod.mk.inj h).2.symm, i, rfl⟩

theorem onCatalog_read (hname : name ≠ "") (c : Catalog) :
    (Call.read name).onCatalog (.ok ()) c =
      (.ok (.observed ((c.installation? name).map (·.observed name))), c) := by
  have hplan : (Call.read name).plan = .ok [.find name] := by rw [plan, if_neg hname]
  rw [onCatalog_of_requests hplan (List.cons_ne_nil _ _), allOnCatalog, Request.onCatalog_find]
  rfl

theorem plan_create {desired : Declared} (hname : Rules.Acceptable desired.name) :
    (Call.create desired).plan = .ok [.create desired, .find desired.name] := by
  rw [plan, Rules.checkName_eq_ok_iff.mpr ⟨rfl, hname⟩]
  rfl

section
variable {desired : Declared} (hname : Rules.Acceptable desired.name)
include hname

theorem onCatalog_create_written
    (h : c.apply (Statement.create desired.name desired.schema desired.version).written = .ok d) :
    (Call.create desired).onCatalog (.ok ()) c =
      (.ok (.observed ((d.installation? desired.name).map (·.observed desired.name))), d) := by
  have hcreate : (Request.create desired).onCatalog c = (.ok .nothing, d) :=
    Request.onCatalog_written rfl rfl h
  rw [onCatalog_of_requests (plan_create hname) (List.cons_ne_nil _ _), allOnCatalog, hcreate]
  dsimp only
  rw [allOnCatalog, Request.onCatalog_find]
  rfl

/-- What is installed already is found as it is, whatever was asked for. -/
theorem onCatalog_create_installed {i : Installation} (hi : c.installation? desired.name = some i) :
    (Call.create desired).onCatalog (.ok ()) c =
      (.ok (.observed (some (i.observed desired.name))), c) := by
  have hkept : c.installation? (Identifier.kept desired.name) = some i := by
    rw [Identifier.kept_eq_self hname.noNul, hi]
  rw [onCatalog_create_written hname (Catalog.apply_create_of_installed hkept _ _), hi]
  rfl

variable (hs : (Statement.create desired.name desired.schema desired.version).Storable)
include hs

theorem onCatalog_create
    (h : c.apply (Statement.create desired.name desired.schema desired.version).normal = .ok d) :
    (Call.create desired).onCatalog (.ok ()) c =
      (.ok (.observed ((d.installation? desired.name).map (·.observed desired.name))), d) :=
  onCatalog_create_written hname (Statement.written_eq_normal hs ▸ h)

theorem onCatalog_create_refused {r : Refusal}
    (h : c.apply (Statement.create desired.name desired.schema desired.version).normal = .error r) :
    ∃ f, (Call.create desired).onCatalog (.ok ()) c = (.error f, c) := by
  obtain ⟨f, hcreate⟩ := Request.onCatalog_refused (q := .create desired) rfl rfl hs h
  refine ⟨f, ?_⟩
  rw [onCatalog_of_requests (plan_create hname) (List.cons_ne_nil _ _), allOnCatalog, hcreate]
  rfl

end

section
variable (hname : Rules.Acceptable name)
include hname

theorem plan_delete : (Call.delete name).plan = .ok [.drop name] := by
  rw [plan, Rules.checkName_eq_ok_iff.mpr ⟨rfl, hname⟩]
  rfl

theorem storable_drop : (Statement.drop name).Storable := by
  simp [Statement.Storable, Statement.names, hname.noNul]

theorem onCatalog_delete (h : c.apply (.drop name) = .ok d) :
    (Call.delete name).onCatalog (.ok ()) c = (.ok .deleted, d) := by
  have hdrop : (Request.drop name).onCatalog c = (.ok .nothing, d) :=
    Request.onCatalog_applied rfl rfl (storable_drop hname) h
  rw [onCatalog_of_requests (plan_delete hname) (List.cons_ne_nil _ _), allOnCatalog, hdrop]
  rfl

theorem onCatalog_delete_refused {r : Refusal} (h : c.apply (.drop name) = .error r) :
    ∃ f, (Call.delete name).onCatalog (.ok ()) c = (.error f, c) := by
  obtain ⟨f, hdrop⟩ := Request.onCatalog_refused (q := .drop name) rfl rfl (storable_drop hname) h
  refine ⟨f, ?_⟩
  rw [onCatalog_of_requests (plan_delete hname) (List.cons_ne_nil _ _), allOnCatalog, hdrop]
  rfl

end

end Call

/-! ### Calls with nothing in their way -/

/-- A world in which calls get as far as the catalog: no answers were laid down for the server, the gate lets
calls pass, and nobody else holds the lock of the database. -/
structure Ready (access : Access) (w : World) : Prop where
  server : w.server.Unscripted
  gate : w.client.verdict access Gateway.resourceName w.server.version = .ok ()
  lock : (w.locks.lock access.target).IsFree

/-- Where no version is expected, a server of version 9.1 or later lets calls pass. -/
theorem gate_of_recent {access : Access} {w : World}
    (hexpected : access.settings.connection.expectedVersion = none) (hclient : w.client = .start)
    (hversion : 90100 ≤ w.server.version) :
    w.client.verdict access Gateway.resourceName w.server.version = .ok () := by
  rw [hclient, verdict, version, hexpected]
  exact if_pos (decide_eq_true hversion)

/-- The world after a call that has led to a catalog. It is ready for another call. -/
structure Answered (access : Access) (w : World) (c : Catalog) (u : World) : Prop where
  server : u.server = { w.server with catalog := c }
  trail : u.trail = w.trail
  ready : Ready access u

section
variable {access : Access} {w : World}

theorem Call.run_ready (call : Call) (hw : Ready access w) :
    ∃ u, call.run access w = ((call.onCatalog (.ok ()) w.server.catalog).1, u) ∧
      Answered access w (call.onCatalog (.ok ()) w.server.catalog).2 u := by
  obtain ⟨u, hrun, hran, -⟩ := call.run_apply access hw.server fun _ _ _ => hw.lock.admits call.mode
  rw [hw.gate] at hrun hran
  have hserver : u.server = { w.server with catalog := (call.onCatalog (.ok ()) w.server.catalog).2 } :=
    hran.talk.server
  have htrail : u.trail = w.trail := by
    have hworld := congrArg World.trail hran.talk.world
    exact hworld
  refine ⟨u, hrun, hserver, htrail, ?_, ?_, ?_⟩
  · rw [hserver]
    exact ⟨hw.server.replies, hw.server.connectReplies⟩
  · have hversion : u.client.version access w.server.version = w.client.version access w.server.version :=
      hran.talk.version
    have hgate := hw.gate
    rw [verdict] at hgate ⊢
    rw [hserver, hversion]
    exact hgate
  · rw [hran.lock]
    exact hw.lock

/-- An operation comes to what its call comes to. -/
theorem answered {α : Type} (call : Call) {g : α → Answer} {a : Act α}
    (hcall : call.run access = (do return g (← a))) (hw : Ready access w) :
    ∃ d, call.onCatalog (.ok ()) w.server.catalog = ((a w).1.map g, d) ∧ Answered access w d (a w).2 := by
  obtain ⟨u, hrun, hanswered⟩ := call.run_ready hw
  rw [hcall, ← map_eq_pure_bind, map_apply] at hrun
  obtain ⟨hresult, rfl⟩ := Prod.mk.inj hrun
  exact ⟨_, Prod.ext hresult.symm rfl, hanswered⟩

theorem map_injective {α β : Type} {g : α → β} (hg : Function.Injective g) {r s : Except Failure α}
    (h : r.map g = s.map g) : r = s := by
  cases r <;> cases s
  case error.error => exact congrArg _ (Except.error.inj h)
  case ok.ok => exact congrArg _ (hg (Except.ok.inj h))
  all_goals cases h

theorem answered_of_call {α : Type} {g : α → Answer} (hg : Function.Injective g) {a : Act α} {call : Call}
    (hcall : call.run access = (do return g (← a))) (hw : Ready access w) {r : Except Failure α}
    {d : Catalog} (h : call.onCatalog (.ok ()) w.server.catalog = (r.map g, d)) :
    ∃ u, a w = (r, u) ∧ Answered access w d u := by
  obtain ⟨e, honCatalog, hanswered⟩ := answered call hcall hw
  obtain ⟨hresult, rfl⟩ := Prod.mk.inj (honCatalog.symm.trans h)
  exact ⟨(a w).2, Prod.ext (map_injective hg hresult) rfl, hanswered⟩

variable {name : String} {c : Catalog}

theorem create_answered {desired : Declared} (hw : Ready access w) {r : Except Failure (Option Observed)}
    (h : (Call.create desired).onCatalog (.ok ()) w.server.catalog = (r.map Answer.observed, c)) :
    ∃ u, create access desired w = (r, u) ∧ Answered access w c u :=
  answered_of_call (fun _ _ heq => Answer.observed.inj heq) rfl hw h

theorem delete_answered (hw : Ready access w) {r : Except Failure Unit}
    (h : (Call.delete name).onCatalog (.ok ()) w.server.catalog = (r.map fun _ => Answer.deleted, c)) :
    ∃ u, delete access name w = (r, u) ∧ Answered access w c u :=
  answered_of_call (fun _ _ _ => rfl) rfl hw h

theorem installed_answered (hw : Ready access w) (hname : name ≠ "") :
    ∃ u, installed access name w = (.ok (w.server.catalog.installation? name).isSome, u) ∧
      Answered access w w.server.catalog u :=
  answered_of_call (fun _ _ heq => Answer.installed.inj heq) rfl hw (Call.onCatalog_installed hname _)

theorem read_answered (hw : Ready access w) (hname : name ≠ "") :
    ∃ u, read access name w = (.ok ((w.server.catalog.installation? name).map (·.observed name)), u) ∧
      Answered access w w.server.catalog u :=
  answered_of_call (fun _ _ heq => Answer.observed.inj heq) rfl hw (Call.onCatalog_read hname _)

theorem read_nameless (hw : Ready access w) :
    ∃ u, read access "" w = (.ok none, u) ∧ Answered access w w.server.catalog u :=
  answered_of_call (g := Answer.observed) (fun _ _ heq => Answer.observed.inj heq) rfl hw
    (Call.onCatalog_read_empty _)

theorem update_answered {previous : Observed} {desired : Declared} (hw : Ready access w)
    {r : Except Failure Updated}
    (h : (Call.update name previous desired).onCatalog (.ok ()) w.server.catalog = (r.map Answer.updated, c)) :
    ∃ u, update access name previous desired w = (r, u) ∧ Answered access w c u :=
  answered_of_call (fun _ _ heq => Answer.updated.inj heq) rfl hw h

theorem adopt_answered (hw : Ready access w) {r : Except Failure Observed}
    (h : (Call.adopt name).onCatalog (.ok ()) w.server.catalog =
      (r.map fun o => Answer.observed (some o), c)) :
    ∃ u, adopt access name w = (r, u) ∧ Answered access w c u :=
  answered_of_call (fun _ _ heq => Option.some.inj (Answer.observed.inj heq)) rfl hw h

/-- A creation returns the entry that is there in the end, or it fails and has changed nothing. -/
theorem create_outcome {desired : Declared} (hw : Ready access w)
    (hs : (Statement.create desired.name desired.schema desired.version).Storable) :
    (∃ u d i, create access desired w = (.ok (some (i.observed desired.name)), u) ∧ Answered access w d u ∧
      d.installation? desired.name = some i) ∨
    ∃ u f, create access desired w = (.error f, u) ∧ f.isExit = false ∧
      Answered access w w.server.catalog u := by
  cases hplan : (Call.create desired).plan with
  | error e =>
      obtain ⟨u, hcreate, hu⟩ := create_answered (r := .error (.error e)) hw (Call.onCatalog_of_error hplan _)
      exact .inr ⟨u, _, hcreate, rfl, hu⟩
  | ok qs =>
      have hname : Rules.Acceptable desired.name := Call.admissible_of_plan hplan
      cases happly : w.server.catalog.apply
          (Statement.create desired.name desired.schema desired.version).normal with
      | error refusal =>
          obtain ⟨f, hcall⟩ := Call.onCatalog_create_refused hname hs happly
          obtain ⟨u, hcreate, hu⟩ := create_answered (r := .error f) hw hcall
          exact .inr ⟨u, f, hcreate, Call.onCatalog_isExit hcall, hu⟩
      | ok d =>
          obtain ⟨i, hi⟩ := Catalog.installed_of_create happly
          have hcall := Call.onCatalog_create hname hs happly
          rw [hi] at hcall
          obtain ⟨u, hcreate, hu⟩ := create_answered (r := .ok (some (i.observed desired.name))) hw hcall
          exact .inl ⟨u, d, i, hcreate, hu, hi⟩

/-- A deletion takes out an entry that was there, or it fails and has changed nothing. -/
theorem delete_outcome (name : String) (hw : Ready access w) :
    (∃ u i, delete access name w = (.ok (), u) ∧ w.server.catalog.installation? name = some i ∧
      Answered access w (w.server.catalog.uninstall name) u) ∨
    ∃ u f, delete access name w = (.error f, u) ∧ f.isExit = false ∧
      Answered access w w.server.catalog u := by
  cases hplan : (Call.delete name).plan with
  | error e =>
      obtain ⟨u, hdelete, hu⟩ := delete_answered (r := .error (.error e)) hw (Call.onCatalog_of_error hplan _)
      exact .inr ⟨u, _, hdelete, rfl, hu⟩
  | ok qs =>
      have hname : Rules.Acceptable name := Call.admissible_of_plan hplan
      cases happly : w.server.catalog.apply (.drop name) with
      | error refusal =>
          obtain ⟨f, hcall⟩ := Call.onCatalog_delete_refused hname happly
          obtain ⟨u, hdelete, hu⟩ := delete_answered (r := .error f) hw hcall
          exact .inr ⟨u, f, hdelete, Call.onCatalog_isExit hcall, hu⟩
      | ok d =>
          obtain ⟨⟨i, hi⟩, -, rfl⟩ := Catalog.apply_drop_eq_ok_iff.mp happly
          obtain ⟨u, hdelete, hu⟩ := delete_answered (r := .ok ()) hw (Call.onCatalog_delete hname happly)
          exact .inl ⟨u, i, hdelete, hi, hu⟩

/-- Only what is installed is said to be installed. No extension has the empty name. -/
theorem installed_outcome (name : String) (hw : Ready access w) :
    ∃ u found, installed access name w = (.ok found, u) ∧ Answered access w w.server.catalog u ∧
      (found = true → ∃ i, w.server.catalog.installation? name = some i) ∧
      (w.server.catalog.installation? name = none → found = false) := by
  by_cases hname : name = ""
  · obtain ⟨u, hinstalled, hu⟩ := answered_of_call (g := Answer.installed) (a := installed access name)
      (r := .ok false) (fun _ _ heq => Answer.installed.inj heq) rfl hw (hname ▸ Call.onCatalog_installed_empty _)
    exact ⟨u, false, hinstalled, hu, fun h => (by cases h), fun _ => rfl⟩
  · obtain ⟨u, hinstalled, hu⟩ := installed_answered hw hname
    refine ⟨u, _, hinstalled, hu, Option.isSome_iff_exists.mp, fun hnone => ?_⟩
    rw [hnone]
    rfl

theorem read_outcome (name : String) (hw : Ready access w) :
    ∃ u found, read access name w = (.ok found, u) ∧ Answered access w w.server.catalog u ∧
      (∀ o, found = some o → ∃ i, w.server.catalog.installation? name = some i ∧ o = i.observed name) ∧
      (w.server.catalog.installation? name = none → found = none) := by
  by_cases hname : name = ""
  · obtain ⟨u, hread, hu⟩ := read_nameless hw
    rw [← hname] at hread
    exact ⟨u, none, hread, hu, fun _ h => (by cases h), fun _ => rfl⟩
  · obtain ⟨u, hread, hu⟩ := read_answered hw hname
    refine ⟨u, _, hread, hu, fun o ho => ?_, fun hnone => ?_⟩
    · obtain ⟨i, hi, rfl⟩ := Option.map_eq_some_iff.mp ho
      exact ⟨i, hi, rfl⟩
    · rw [hnone]
      rfl

/-- An adoption that does not fail has found the extension. -/
theorem adopt_outcome (name : String) (hw : Ready access w) :
    (∃ u o i, adopt access name w = (.ok o, u) ∧ Answered access w w.server.catalog u ∧
      w.server.catalog.installation? name = some i) ∨
    ∃ u f, adopt access name w = (.error f, u) ∧ f.isExit = false := by
  obtain ⟨d, hcall, hanswered⟩ := answered (.adopt name) (g := fun o => Answer.observed (some o))
    (a := adopt access name) rfl hw
  rcases hadopt : adopt access name w with ⟨f | o, u⟩
  · rw [hadopt] at hcall
    exact .inr ⟨u, f, rfl, Call.onCatalog_isExit hcall⟩
  · rw [hadopt] at hcall hanswered
    obtain ⟨rfl, i, hi⟩ := Call.onCatalog_adopt_ok hcall
    exact .inl ⟨u, o, i, rfl, hanswered, hi⟩

/-- An update that has moved the extension and then failed to change its version, and the catalog that it has
left. -/
structure MovedOnly (c : Catalog) (name : String) (i : Installation) (desired : Declared) (schema version : String)
    (d : Catalog) : Prop where
  declared : desired.schema = some schema ∧ desired.version = some version
  differs : schema ≠ i.schema
  plan : (Call.update name (i.observed name) desired).plan =
    .ok [.relocate name schema, .reversion name (some version), .find name]
  relocated : ∃ reply, (Request.relocate name schema).onCatalog c = (.ok reply, d)
  unchanged : ∃ f, (Request.reversion name (some version)).onCatalog d = (.error f, d)
  catalog : d = c.install name { i with schema := schema }

/-- What a failed update can have left: nothing has changed, and at most one request was sent, or the extension
has been moved and no more. -/
theorem update_onCatalog_error {desired : Declared} {i : Installation} {c d : Catalog} {f : Failure}
    (hname : '\x00' ∉ name.toList) (hi : c.installation? name = some i)
    (h : (Call.update name (i.observed name) desired).onCatalog (.ok ()) c = (.error f, d)) :
    (d = c ∧ ((Call.update name (i.observed name) desired).sent c).length ≤ 1) ∨
      ∃ schema version, MovedOnly c name i desired schema version d := by
  rw [Call.sent]
  cases hplan : (Call.update name (i.observed name) desired).plan with
  | error e =>
      rw [Call.onCatalog_of_error hplan] at h
      exact .inl ⟨(Prod.mk.inj h).2.symm, Nat.zero_le 1⟩
  | ok qs =>
      obtain ⟨-, ⟨rfl, -, -⟩ | hqs⟩ := plan_update hplan
      · rw [Call.onCatalog_of_nil hplan] at h
        exact .inl ⟨(Prod.mk.inj h).2.symm, Nat.zero_le 1⟩
      · have hall := Call.allOnCatalog_of_update_error hplan (by rw [hqs]; simp) h
        subst hqs
        obtain hnothing | ⟨schema, version, reply, hschema, hversion, hrelocate, hreversion⟩ :=
          allOnCatalog_changes_error hall
        · exact .inl hnothing
        · obtain ⟨hdesired, hdiffers⟩ := Option.filter_eq_some_iff.mp hschema
          obtain ⟨j, hj, -, hmoved⟩ :=
            Catalog.apply_relocate_eq_ok_iff.mp (Request.onCatalog_relocate hname hrelocate)
          obtain rfl := Option.some.inj (hi.symm.trans hj)
          rw [hschema, hversion] at hplan
          exact .inr ⟨schema, version, ⟨hdesired, (Option.filter_eq_some_iff.mp hversion).1⟩,
            of_decide_eq_true hdiffers, hplan, ⟨reply, hrelocate⟩, ⟨f, hreversion⟩, hmoved⟩

/-- An update of an installed extension leads to what was declared and tells so, or it fails, and then it has
moved the extension at most. -/
theorem update_outcome {desired : Declared} {i : Installation} (hw : Ready access w)
    (hname : '\x00' ∉ name.toList) (hversion : ∀ v, desired.version = some v → '\x00' ∉ v.toList)
    (hi : w.server.catalog.installation? name = some i) :
    (∃ u d j updated, update access name (i.observed name) desired w = (.ok updated, u) ∧
      Answered access w d u ∧ d.installation? name = some j ∧ Changed w.server.catalog desired i j ∧
      updated.state (i.observed name) = some (j.observed name)) ∨
    ∃ u d f, update access name (i.observed name) desired w = (.error f, u) ∧ f.isExit = false ∧
      Answered access w d u ∧ (d = w.server.catalog ∨ ∃ schema, desired.schema = some schema ∧
        d = w.server.catalog.install name { i with schema := schema }) := by
  obtain ⟨d, hcall, hanswered⟩ := answered (.update name (i.observed name) desired) (g := Answer.updated)
    (a := update access name (i.observed name) desired) rfl hw
  rcases hupdate : update access name (i.observed name) desired w with ⟨f | updated, u⟩
  · rw [hupdate] at hcall hanswered
    refine .inr ⟨u, d, f, rfl, Call.onCatalog_isExit hcall, hanswered, ?_⟩
    obtain ⟨hd, -⟩ | ⟨schema, version, hmoved⟩ := update_onCatalog_error hname hi hcall
    · exact .inl hd
    · exact .inr ⟨schema, hmoved.declared.1, hmoved.catalog⟩
  · rw [hupdate] at hcall hanswered
    obtain ⟨-, j, hj, -, hchanged, hstate⟩ := update_onCatalog hname hversion hi hcall
    exact .inl ⟨u, d, j, updated, rfl, hanswered, hj, hchanged, hstate⟩

end

end Lifecycle

end CatalogSteward
