import CatalogSteward.Proofs.Lifecycle.Discipline
import CatalogSteward.Proofs.Lifecycle.Naming
import CatalogSteward.Proofs.Version

/-!
# What comes of calls

A call that returns has sent all of its course. A call that fails where no lock is held fails with an
error, if the server does no more than refuse and the version that the settings expect has a number. And
whatever comes of it, a call touches nothing but the server, the connection, the locks and the trace; the
catalog is as it was unless a change was sent.
-/

namespace CatalogSteward
open Act

/-! ### Changes -/

/-- The number of changes that were sent so far. -/
def World.changes (w : World) : Nat := w.trace.countP Happening.isChange

theorem World.changes_append {w u : World} {added : List Happening} (h : u.trace = w.trace ++ added) :
    u.changes = w.changes + added.countP Happening.isChange := by
  rw [changes, h, List.countP_append]
  rfl

theorem World.changes_eq_iff {w u : World} {added : List Happening} (h : u.trace = w.trace ++ added) :
    u.changes = w.changes ↔ ∀ x ∈ added, x.isChange = false := by
  rw [changes_append h, Nat.add_eq_left, List.countP_eq_zero]
  simp only [Bool.not_eq_true]

theorem World.changes_of_queries {w u : World} {added : List Happening} (h : u.trace = w.trace ++ added)
    (hqueries : ∀ sent ∈ added.filterMap Happening.statement?, "SELECT".toList.isPrefixOf sent.1.toList = true) :
    u.changes = w.changes := by
  apply (changes_eq_iff h).mpr
  intro x hx
  cases x with
  | sql text parameters =>
      have hquery := hqueries (text, parameters) (List.mem_filterMap.mpr ⟨_, hx, rfl⟩)
      simpa [Happening.isChange] using hquery
  | _ => rfl

theorem Act.Emits.changes {α : Type} {a : Act α} (h : Emits (fun h => h.isChange = false) a) (w : World) :
    (a w).2.changes = w.changes := by
  obtain ⟨added, htrace, hqueries⟩ := h w
  exact (World.changes_eq_iff htrace).mpr hqueries

/-- A section makes visible what its operation does, and the lock. -/
theorem Act.Emits.locked {α : Type} {kind : Happening → Prop} {a : Act α} (h : Emits kind a) (mode : LockMode)
    (key : String) (hlock : kind (.lock mode key)) (hunlock : kind (.unlock mode key)) :
    Emits kind (locked mode key a) := by
  have hacquire : Emits kind (acquire mode key) := by
    apply Emits.bind (.of_trace fun _ => rfl)
    intro _
    apply Emits.get_bind
    intro w
    dsimp only
    split
    · exact Emits.bind (.of_trace fun _ => rfl) fun _ => .happen hlock
    · exact .of_trace fun _ => rfl
  apply hacquire.bind
  intro _
  apply Emits.bind (a := outcome a) h
  intro result
  exact (release_emits hunlock).bind fun _ => .of_trace fun _ => rfl

namespace Server

theorem answer_query (s : Server) {text : String} (h : "SELECT".toList.isPrefixOf text.toList = true)
    (parameters : Option (List Json)) : (s.answer text parameters).2.catalog = s.catalog := by
  have hkeeps : TextKeeps (· = s.catalog) text parameters := by
    rintro c rows d rfl hregular
    exact regular_select h hregular
  exact hkeeps.answer rfl

theorem hears_queries (s : Server) {said : List (String × Option (List Json))}
    (h : ∀ sent ∈ said, "SELECT".toList.isPrefixOf sent.1.toList = true) :
    (s.hears said).catalog = s.catalog := by
  induction said generalizing s with
  | nil => rfl
  | cons sent said ih =>
      change ((s.answer sent.1 sent.2).2.hears said).catalog = s.catalog
      rw [ih _ fun other hother => h other (List.mem_cons_of_mem _ hother)]
      exact s.answer_query (h sent List.mem_cons_self) _

/-- By the catalog a query is answered with rows of the width that it asks for. -/
theorem regular_query (c : Catalog) (q : Query) (parameters : Option (List Json)) :
    ∃ rows, regular c q.text parameters = .ok (rows, c) ∧ ∀ row ∈ rows, row.length = q.columns := by
  obtain ⟨hpe, hea, hap⟩ := Query.distinct_texts
  have hwidth {α : Type} {xs : List α} {f : α → List Json} {n : Nat} (hf : ∀ x, (f x).length = n) :
      ∀ row ∈ xs.map f, row.length = n := by
    intro row hrow
    obtain ⟨x, -, rfl⟩ := List.mem_map.mp hrow
    exact hf x
  cases q with
  | presence name =>
      change ∃ rows, regular c (Query.presence "").text parameters = .ok (rows, c) ∧ _
      rw [regular, if_neg hap.symm, if_neg hpe, if_pos rfl]
      exact ⟨_, rfl, hwidth fun _ => rfl⟩
  | entry name =>
      change ∃ rows, regular c (Query.entry "").text parameters = .ok (rows, c) ∧ _
      rw [regular, if_neg hea, if_pos rfl]
      exact ⟨_, rfl, hwidth fun _ => rfl⟩
  | all =>
      rw [regular, if_pos rfl]
      exact ⟨_, rfl, hwidth fun _ => rfl⟩

theorem fits_query {s : Server} (h : s.replies = []) (q : Query) (parameters : Option (List Json)) :
    Fits q.text (s.answer q.text parameters).1 := by
  obtain ⟨rows, hregular, hrows⟩ := regular_query s.catalog q parameters
  rw [answer_unscripted h, hregular]
  intro p hp row hrow
  rw [hrows row hrow]
  exact Query.of_text (fun _ _ => rfl) (fun _ _ => rfl) hp.symm

theorem answer_statement {s : Server} (h : s.replies = []) {statement : Statement} {c : Catalog}
    (hc : s.catalog.apply statement.written = .ok c) (parameters : Option (List Json)) :
    s.answer statement.text parameters = (.ok [], { s with catalog := c }) := by
  rw [answer_unscripted h, regular_written, hc]
  rfl

/-- A change that the catalog can carry out and a query after it are answered as they should. -/
theorem fitsAll_readBack {s : Server} (h : s.replies = []) {statement : Statement} {c : Catalog}
    (hc : s.catalog.apply statement.written = .ok c) (q : Query) (first second : Option (List Json)) :
    s.FitsAll [(statement.text, first), (q.text, second)] := by
  refine ⟨?_, ?_, trivial⟩
  · rw [answer_statement h hc]
    exact fun p _ row hrow => absurd hrow List.not_mem_nil
  · rw [answer_statement h hc]
    have hafter : ({ s with catalog := c } : Server).replies = [] := h
    exact fits_query hafter q second

end Server

/-- Without a change the catalog is as it was. -/
theorem Exchanged.catalog {access : Access} {w u : World} {o : Option Failure} {added : List Happening}
    (h : Exchanged access w o u added) (hchanges : u.changes = w.changes) :
    u.server.catalog = w.server.catalog := by
  rw [h.server]
  apply Server.hears_queries
  intro sent hsent
  obtain ⟨x, hx, hstatement⟩ := List.mem_filterMap.mp hsent
  have hquery := (World.changes_eq_iff h.trace).mp hchanges x hx
  cases x with
  | sql text parameters =>
      cases hstatement
      simpa [Happening.isChange] using hquery
  | _ => cases hstatement

/-! ### Sections in between -/

/-- A world that differs from another at most in the server, the client, the locks and the trace. -/
def World.Apart (w u : World) : Prop :=
  u = { w with server := u.server, client := u.client, locks := u.locks, trace := u.trace }

theorem World.Apart.trans {w u v : World} (h : w.Apart u) (k : u.Apart v) : w.Apart v := by
  unfold Apart at *
  rw [k, h]

theorem World.Besides.apart {w u : World} (h : w.Besides u) : w.Apart u := by
  unfold Apart
  rw [h]

/-- On the way from a world to another one the server disrupts no connection, and it answers what it is
sent as it should. -/
def World.Reliably (w u : World) : Prop :=
  ∀ said, u.statements = w.statements ++ said → w.server.Reliable said

/-- What an operation does that talks to the server and takes locks in between, if it finds all of them
free: it leaves them so, and does not fail for their sake. -/
def Attends (access : Access) (w : World) (o : Option Failure) (u : World) : Prop :=
  w.Unlocked → ∃ added, Dialogue access w o u added ∧ u.Unlocked ∧ w.Apart u

namespace Attends

variable {access : Access} {α : Type} {a : Act α} {w u : World}

theorem composes (access : Access) : Composes (Attends access) where
  refl w hw := ⟨[], .refl access w, hw, rfl⟩
  trans := by
    intro w u v o h k hw
    obtain ⟨added, hadded, hu, hapart⟩ := h hw
    obtain ⟨more, hmore, hv, hapart'⟩ := k hu
    exact ⟨added ++ more, hadded.trans hmore, hv, hapart.trans hapart'⟩

theorem of_converses (h : Leads (Converses access) a) : Leads (Attends access) a := by
  intro w hw
  obtain ⟨added, hdialogue, -, hbesides⟩ := h w
  exact ⟨added, hdialogue, hbesides.unlocked hw, hbesides.apart⟩

theorem locked (mode : LockMode) (key : String) (h : Leads (Converses access) a) :
    Leads (Attends access) (locked mode key a) := by
  intro w hw
  obtain ⟨inside, hdialogue, -, hbesides⟩ := h (w.entered mode key)
  have hlocks : (a (w.entered mode key)).2.locks = (w.entered mode key).locks := by rw [hbesides]
  obtain ⟨locks, hlocked, hrestored⟩ := locked_restores (a := a) ((hw key).admits mode) rfl hlocks
  have hentered : Dialogue access w none (w.entered mode key) [.lock mode key] :=
    .idle rfl rfl rfl (by simp [Happening.isTraffic]) (by simp)
  rw [hlocked]
  have hleft : ∀ h ∈ [Happening.unlock mode key], h.isTraffic = false := by simp [Happening.isTraffic]
  refine ⟨_, hentered.trans (hdialogue.then_idle rfl rfl rfl hleft), ?_, ?_⟩
  · intro other
    rw [hrestored]
    exact hw other
  · unfold World.Apart
    rw [hbesides]
    rfl

/-- A server that has been reliable all the way is so from any point on. -/
theorem reliably (h : Attends access w none u) (hw : w.Unlocked) {v : World} (hserver : w.Reliably v) :
    u.Reliably v := by
  intro more hmore
  obtain ⟨added, hdialogue, -⟩ := h hw
  apply hdialogue.reliable
  apply hserver
  rw [hmore, World.statements_append hdialogue.trace, List.append_assoc]

/-- An operation fails with an error only, if nothing else is to be blamed on the server or the settings. -/
theorem error {f : Failure} (h : Attends access w (some f) u) (hw : w.Unlocked)
    (hversion : ∀ text ∈ access.settings.connection.expectedVersion, Version.IsPlain text)
    (hserver : w.Reliably u) : ∃ e, f = .error e := by
  obtain ⟨added, hdialogue, -⟩ := h hw
  have hreliable := hserver _ (World.statements_append hdialogue.trace)
  have howed := hdialogue.failure f rfl
  cases f with
  | error e => exact ⟨e, rfl⟩
  | exit code => exact howed.elim
  | fault f =>
      cases f with
      | version r =>
          obtain ⟨text, htext, hparse⟩ := howed
          exact absurd hparse ((hversion text htext).parse_ne r)
      | disruption d => exact absurd hreliable howed
      | rowTooShort expected got => exact absurd hreliable howed
      | rowTooLong expected => exact absurd hreliable howed
      | _ => exact howed.elim

/-- Without a change the catalog is as it was. -/
theorem catalog {o : Option Failure} (h : Attends access w o u) (hw : w.Unlocked)
    (hchanges : u.changes = w.changes) : u.server.catalog = w.server.catalog := by
  obtain ⟨added, hdialogue, -⟩ := h hw
  exact hdialogue.catalog hchanges

end Attends

/-! ### Versions without a number -/

theorem Client.serverVersion_refused {access : Access} {w : World} (hfresh : w.client.knownVersion = none)
    {text : String} (hexpected : access.settings.connection.expectedVersion = some text)
    {refusal : Decimal.Refusal} (hparse : Version.parse text = .error (.notNumber refusal)) :
    serverVersion access w = (.error (.fault (.version refusal)), w) := by
  have htext : text ≠ "" := by
    rintro rfl
    cases hparse
  rw [serverVersion_expected hexpected htext hfresh, hparse]

/-- An expected version without a number is found out before anything is checked or sent. -/
theorem Lifecycle.create_refused {access : Access} {w : World} (hfresh : w.client.knownVersion = none)
    {text : String} (hexpected : access.settings.connection.expectedVersion = some text)
    {refusal : Decimal.Refusal} (hparse : Version.parse text = .error (.notNumber refusal))
    (desired : Declared) :
    Lifecycle.create access desired w = (.error (.fault (.version refusal)), w) := by
  have hrefused := Client.serverVersion_refused hfresh hexpected hparse
  rw [create, Client.requireExtensions, bind_error (bind_error hrefused _)]

/-! ### Calls -/

/-- Turning a result into something else changes nothing in the world. -/
theorem Act.map_world {α β : Type} (g : α → β) (a : Act α) (w : World) :
    ((do return g (← a) : Act β) w).2 = (a w).2 := by
  rw [← map_eq_pure_bind, map_apply]

namespace Lifecycle
open Client

theorem Request.prelude_silent (access : Access) (q : Request) : Silent (q.prelude access) := by
  have hsay (message : String) : Silent (say .step message) := .say (fun _ _ => rfl) _ _
  cases q with
  | create d => exact .bind (requireExtensions_silent access _) fun _ => hsay _
  | relocate name schema => exact .bind (.checked _) fun _ => hsay _
  | reversion name version => exact hsay _
  | drop name => exact hsay _
  | find name => exact .of_trace fun _ => rfl
  | has name => exact .of_trace fun _ => rfl

/-- A request that has been answered was sent. -/
theorem Request.perform_ok {access : Access} {q : Request} {w u : World} {reply : Reply}
    (h : q.perform access w = (.ok reply, u)) : u.statements = w.statements ++ [q.sending] := by
  rw [perform_eq] at h
  have hsilent := (q.prelude_silent access).statements w
  rcases hprelude : q.prelude access w with ⟨f | _, v⟩
  · rw [bind_error hprelude] at h
    cases h
  · rw [bind_ok hprelude] at h
    rw [hprelude] at hsilent
    rcases hsend : send access q.context q.text q.parameters v with ⟨f | rows, v'⟩
    · rw [bind_error hsend] at h
      cases h
    · rw [bind_ok hsend, liftM_apply] at h
      obtain ⟨-, hstatements⟩ := send_result access _ _ _ hsend
      obtain ⟨-, rfl⟩ := Prod.mk.inj h
      rw [hstatements, hsilent]
      rfl

theorem performAll_ok {access : Access} {qs : List Request} {before reply : Reply} {w u : World}
    (h : performAll access qs before w = (.ok reply, u)) :
    u.statements = w.statements ++ qs.map Request.sending := by
  induction qs generalizing before w with
  | nil =>
      obtain ⟨-, rfl⟩ := Prod.mk.inj h
      exact (List.append_nil _).symm
  | cons q qs ih =>
      rw [performAll] at h
      rcases hperform : q.perform access w with ⟨f | next, v⟩
      · rw [bind_error hperform] at h
        cases h
      · rw [bind_ok hperform] at h
        rw [ih h, Request.perform_ok hperform, List.append_assoc]
        rfl

namespace Call

variable {access : Access} {call : Call} {w u : World} {answer : Answer}

theorem run_attends (access : Access) (call : Call) : Leads (Attends access) (call.run access) := by
  have hcomposes := Attends.composes access
  have hdelivered (answer : Answer) : Leads (Attends access) (checked (call.deliver answer)) :=
    .of_converses (.checked access _)
  rw [run_eq, staged]
  apply hcomposes.bind (.of_converses (call.prepare_converses access))
  intro qs
  dsimp only
  split
  · exact hcomposes.bind (.of_converses (call.settle_converses access)) hdelivered
  · exact hcomposes.bind (.locked _ _ (call.body_converses access qs)) hdelivered

theorem body_ok {qs : List Request} (h : call.body access qs w = (.ok answer, u)) :
    u.statements = w.statements ++ qs.map Request.sending ∧ ∃ reply, answer = call.concluded reply := by
  rcases hperform : performAll access qs .nothing w with ⟨f | reply, v⟩
  · rw [body, bind_error hperform] at h
    cases h
  · rw [body, bind_ok hperform] at h
    obtain ⟨v', hconclude, -⟩ := call.conclude_apply reply v
    have hsilent := (call.conclude_silent reply).statements v
    rw [h] at hconclude hsilent
    obtain ⟨hanswer, rfl⟩ := Prod.mk.inj hconclude
    rw [hsilent, performAll_ok hperform]
    exact ⟨rfl, reply, Except.ok.inj hanswer⟩

theorem deliver_ok {before : Answer} (h : call.deliver before = .ok answer) : answer = before := by
  unfold deliver at h
  split at h
  · cases h
  · exact (Except.ok.inj h).symm

/-- A section that returns has been entered, and returns what its operation does. -/
theorem locked_ok {α : Type} {mode : LockMode} {key : String} {a : Act α} {x : α}
    (h : locked mode key a w = (.ok x, u)) :
    ∃ v, a (w.entered mode key) = (.ok x, v) ∧ u.statements = v.statements := by
  cases hadmits : (w.locks.lock key).admits mode with
  | false =>
      rw [locked_error hadmits] at h
      cases h
  | true =>
      have hstatements := locked_statements a hadmits
      have hacquire : acquire mode key w = (.ok (), w.entered mode key) := by
        rw [acquire_ok (by rwa [LockRegistry.lock_ensure]), LockRegistry.lock_ensure]
        rfl
      rw [h] at hstatements
      rw [locked, bind_ok hacquire, always_apply] at h
      rcases ha : a (w.entered mode key) with ⟨result, v⟩
      rw [ha] at h hstatements
      rcases hrelease : release mode key v with ⟨f | _, v'⟩ <;> rw [hrelease] at h
      · cases h
      · obtain ⟨rfl, -⟩ := Prod.mk.inj h
        exact ⟨v, rfl, hstatements⟩

/-- A call that returns has sent its whole course, and its answer is what it makes of the last reply, or of
having had nothing to ask. -/
theorem run_ok_statements (h : call.run access w = (.ok answer, u)) :
    u.statements = w.statements ++ call.course.map Request.sending ∧
      if call.course = [] then answer = call.settled else ∃ reply, answer = call.concluded reply := by
  rw [run_eq] at h
  have hsilent := (call.prepare_silent access).statements w
  rcases hprepare : call.prepare access w with ⟨f | qs, v⟩
  · rw [staged, bind_error hprepare] at h
    cases h
  · obtain ⟨-, -, rfl⟩ := prepare_ok hprepare
    rw [hprepare] at hsilent
    rw [staged, bind_ok hprepare] at h
    split
    · next hnone =>
        obtain ⟨v', hsettle, -⟩ := call.settle_apply v
        have hsettled := call.settle_silent.statements v
        rw [if_pos hnone, bind_ok hsettle] at h
        dsimp only at h
        rw [deliver_apply] at h
        rw [hsettle] at hsettled
        obtain ⟨hdeliver, rfl⟩ := Prod.mk.inj h
        refine ⟨?_, deliver_ok (mapError_eq_ok.mp hdeliver)⟩
        rw [hnone, List.map_nil, List.append_nil]
        exact hsettled.trans hsilent
    · next hsome =>
        rw [if_neg hsome] at h
        rcases hlocked : locked call.mode access.target (call.body access call.course) v with ⟨f | before, v'⟩
        · rw [bind_error hlocked] at h
          cases h
        · rw [bind_ok hlocked] at h
          dsimp only at h
          rw [deliver_apply] at h
          obtain ⟨hdeliver, rfl⟩ := Prod.mk.inj h
          obtain ⟨t, hbody, hlast⟩ := locked_ok hlocked
          obtain ⟨hstatements, hreply⟩ := body_ok hbody
          obtain rfl := deliver_ok (mapError_eq_ok.mp hdeliver)
          have hentered : (v.entered call.mode access.target).statements = v.statements :=
            (World.statements_append rfl).trans (List.append_nil _)
          refine ⟨?_, hreply⟩
          rw [hlast, hstatements, hentered, hsilent]

/-- Whether a call only asks the server for something. -/
def asks : Call → Bool
  | .installed _ | .read _ | .adopt _ => true
  | _ => false

theorem changes_of_asks {call : Call} (h : call.asks = true) : call.changes = [] := by
  cases call with
  | installed identity => rw [changes, course]; split <;> rfl
  | read identity => rw [changes, course]; split <;> rfl
  | adopt name => rw [changes, course]; split <;> rfl
  | _ => cases h

/-- A call that only asks sends no change. -/
theorem run_asks (call : Call) (h : call.asks = true) (access : Access) (hw : w.Unlocked) :
    (call.run access w).2.changes = w.changes := by
  obtain ⟨added, hdialogue, -⟩ := call.run_attends access w hw
  obtain ⟨said, hsaid, -, hsends⟩ := call.run_sends access w
  rw [World.statements_append hdialogue.trace] at hsaid
  apply World.changes_of_queries hdialogue.trace
  intro sent hsent
  rw [List.append_cancel_left hsaid] at hsent
  obtain hquery | ⟨s, hs, -⟩ := hsends sent hsent
  · exact hquery
  · rw [changes_of_asks h] at hs
    cases hs

/-- A call changes at most the entry of its extension, by the name that is written for it. -/
theorem run_sameBut_kept (access : Access) (call : Call) (w : World) :
    w.server.catalog.SameBut (Identifier.kept call.identity) (call.run access w).2.server.catalog :=
  run_sameBut (fun _ s hs => by rw [call.subject_changes s hs]) access w

/-- The course of an update starts with a change, if it is not empty. -/
theorem course_update {identity : String} {previous : Observed} {desired : Declared}
    (h : (update identity previous desired).course ≠ []) :
    ∃ q ∈ (update identity previous desired).course, ∃ s, q.statement? = some s := by
  rw [course] at h ⊢
  split at h
  · exact absurd rfl h
  · exact ⟨_, List.mem_cons_self, _, rfl⟩
  · exact ⟨_, List.mem_cons_self, _, rfl⟩
  · exact ⟨_, List.mem_cons_self, _, rfl⟩

end Call

/-- An update that returns has sent a change, unless it had nothing to do. -/
theorem update_changes {access : Access} {identity : String} {previous : Observed} {desired : Declared}
    {w u : World} {updated : Updated} (hw : w.Unlocked)
    (h : Lifecycle.update access identity previous desired w = (.ok updated, u)) :
    u.changes = w.changes ↔ updated = .unchanged := by
  have hrun : (Call.update identity previous desired).run access w = (.ok (.updated updated), u) := bind_ok h _
  have hattends := (Call.update identity previous desired).run_attends access w hw
  rw [hrun] at hattends
  obtain ⟨added, hdialogue, -⟩ := hattends
  obtain ⟨hstatements, hanswer⟩ := Call.run_ok_statements hrun
  rw [World.statements_append hdialogue.trace] at hstatements
  have hadded := List.append_cancel_left hstatements
  by_cases hcourse : (Call.update identity previous desired).course = []
  · rw [if_pos hcourse] at hanswer
    rw [hcourse, List.map_nil] at hadded
    refine ⟨fun _ => Answer.updated.inj hanswer, fun _ => World.changes_of_queries hdialogue.trace ?_⟩
    simp [hadded]
  · rw [if_neg hcourse] at hanswer
    obtain ⟨reply, hreply⟩ := hanswer
    obtain ⟨q, hq, s, hs⟩ := Call.course_update hcourse
    constructor
    · intro hchanges
      have hsent : q.sending ∈ added.filterMap Happening.statement? := by
        rw [hadded]
        exact List.mem_map_of_mem hq
      obtain ⟨x, hx, hstatement⟩ := List.mem_filterMap.mp hsent
      have hquery := (World.changes_eq_iff hdialogue.trace).mp hchanges x hx
      cases x with
      | sql text parameters =>
          cases hstatement
          rw [Happening.isChange, Request.text_of_statement hs, Server.not_select_text] at hquery
          cases hquery
      | _ => cases hstatement
    · rintro rfl
      cases hreply

end Lifecycle

end CatalogSteward
