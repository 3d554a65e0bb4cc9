import CatalogSteward.Proofs.Lifecycle.Fates
import CatalogSteward.Proofs.Lifecycle.Requests

/-!
# The course of a call

The requests that a call would make are known from its arguments alone. Whatever the server does, the
statements that the call sends are the first ones of this course, and how many they are is decided by the
version gate, the checks of the arguments, the lock and the fates of the requests.
-/

namespace CatalogSteward.Lifecycle
open Act Client

/-! ### Courses -/

namespace Call

/-- The name by which a call knows its extension. -/
def identity : Call → String
  | .create desired => desired.name
  | .installed identity => identity
  | .read identity => identity
  | .adopt name => name
  | .update identity _ _ => identity
  | .delete identity => identity

/-- The requests that a call makes when nothing goes wrong. -/
def course : Call → List Request
  | .create desired => [.create desired, .find desired.name]
  | .installed identity => if identity = "" then [] else [.has identity]
  | .read identity => if identity = "" then [] else [.find identity]
  | .adopt name => if name = "" then [] else [.find name]
  | .update identity previous desired =>
    match differing desired.schema previous.schema, differing desired.version previous.version with
    | none, none => []
    | some schema, none => [.relocate identity schema, .find identity]
    | none, some version => [.reversion identity (some version), .find identity]
    | some schema, some version =>
      [.relocate identity schema, .reversion identity (some version), .find identity]
  | .delete identity => [.drop identity]

/-- What is checked without asking the server. -/
def Admissible : Call → Prop
  | .create desired => Rules.Acceptable desired.name
  | .update identity previous desired =>
    desired.name = identity ∧
      ∀ schema, differing desired.schema previous.schema = some schema → Rules.Acceptable schema
  | .delete identity => Rules.Acceptable identity
  | _ => True

theorem changes_of_admissible {identity : String} {previous : Observed} {desired : Declared}
    (h : (Call.update identity previous desired).Admissible) :
    desired.changes identity previous =
      .ok ⟨differing desired.schema previous.schema, differing desired.version previous.version⟩ := by
  obtain ⟨hname, hschema⟩ := h
  rw [Declared.changes, if_neg (not_not_intro hname)]
  cases hdiffers : differing desired.schema previous.schema with
  | none => rfl
  | some schema =>
      dsimp only
      rw [Rules.checkSchemaChange_eq_ok_iff.mpr ⟨rfl, hschema schema hdiffers⟩]
      rfl

theorem plan_of_admissible {call : Call} (h : call.Admissible) : call.plan = .ok call.course := by
  cases call with
  | create desired => rw [plan, Rules.checkName_eq_ok_iff.mpr ⟨rfl, h⟩]; rfl
  | delete identity => rw [plan, Rules.checkName_eq_ok_iff.mpr ⟨rfl, h⟩]; rfl
  | update identity previous desired =>
      rw [plan, changes_of_admissible h, course]
      cases differing desired.schema previous.schema <;>
        cases differing desired.version previous.version <;> rfl
  | _ => rfl

theorem admissible_of_plan {call : Call} {qs : List Request} (h : call.plan = .ok qs) :
    call.Admissible := by
  have hchecked {name : String} {qs rs : List Request}
      (h : (Rules.checkName "extension" name).map (fun _ => rs) = .ok qs) : Rules.Acceptable name := by
    cases hcheck : Rules.checkName "extension" name with
    | error e => rw [hcheck] at h; cases h
    | ok checked => exact (Rules.checkName_eq_ok_iff.mp hcheck).2
  cases call with
  | create desired => exact hchecked h
  | delete identity => exact hchecked h
  | update identity previous desired =>
      rw [plan, Declared.changes] at h
      by_cases hname : desired.name = identity
      · refine ⟨hname, fun schema hdiffers => ?_⟩
        rw [if_neg (not_not_intro hname), hdiffers] at h
        cases hcheck : Rules.checkSchemaChange identity schema with
        | error e =>
            dsimp only at h
            rw [hcheck] at h
            cases h
        | ok checked => exact (Rules.checkSchemaChange_eq_ok_iff.mp hcheck).2
      · rw [if_pos hname] at h
        cases h
  | _ => trivial

theorem plan_eq_ok_iff {call : Call} {qs : List Request} :
    call.plan = .ok qs ↔ call.Admissible ∧ qs = call.course := by
  constructor
  · intro h
    have hadmissible := admissible_of_plan h
    exact ⟨hadmissible, Except.ok.inj (h.symm.trans (plan_of_admissible hadmissible))⟩
  · rintro ⟨hadmissible, rfl⟩
    exact plan_of_admissible hadmissible

/-- A change of the schema has been checked before; the other requests have nothing to check. -/
theorem check_course {call : Call} (h : call.Admissible) : ∀ q ∈ call.course, q.check = .ok () := by
  have hunchecked {q : Request} (hq : ∀ name schema, q ≠ .relocate name schema) : q.check = .ok () := by
    cases q with
    | relocate name schema => exact absurd rfl (hq name schema)
    | _ => rfl
  cases call with
  | update identity previous desired =>
      obtain ⟨-, hschema⟩ := h
      have hrelocate (schema : String) (hdiffers : differing desired.schema previous.schema = some schema) :
          (Request.relocate identity schema).check = .ok () := by
        rw [Request.check, Rules.checkSchemaChange_eq_ok_iff.mpr ⟨rfl, hschema schema hdiffers⟩]
        rfl
      rw [course]
      split
      · simp
      · next schema hdiffers _ => simp [hrelocate schema hdiffers, hunchecked]
      · simp [hunchecked]
      · next schema version hdiffers _ => simp [hrelocate schema hdiffers, hunchecked]
  | create desired => simp [course, hunchecked]
  | delete identity => simp [course, hunchecked]
  | installed identity => rw [course]; split <;> simp [hunchecked]
  | read identity => rw [course]; split <;> simp [hunchecked]
  | adopt name => rw [course]; split <;> simp [hunchecked]

/-- Only the last request of a course reads. -/
theorem changes_course (call : Call) : ∀ q ∈ call.course.dropLast, q.statement?.isSome := by
  cases call with
  | update identity previous desired => rw [course]; split <;> simp [Request.statement?]
  | create desired => simp [course, Request.statement?]
  | delete identity => simp [course]
  | installed identity => rw [course]; split <;> simp
  | read identity => rw [course]; split <;> simp
  | adopt name => rw [course]; split <;> simp

/-- What a course reads is the extension that the call is about. -/
theorem reading_course (call : Call) :
    ∀ q ∈ call.course, q.statement?.isSome ∨ q = .find call.identity ∨ q = .has call.identity := by
  cases call with
  | update name previous desired => rw [course, identity]; split <;> simp [Request.statement?]
  | create desired => simp [course, Request.statement?, identity]
  | delete name => simp [course, Request.statement?]
  | installed name => rw [course, identity]; split <;> simp
  | read name => rw [course, identity]; split <;> simp
  | adopt name => rw [course, identity]; split <;> simp

end Call

/-- A query binds the name of its extension as its only parameter, and no other text has parameters. -/
theorem Request.parameters_eq {q : Request} {name : String}
    (h : q.statement?.isSome ∨ q = .find name ∨ q = .has name) :
    q.parameters =
      if "SELECT".toList.isPrefixOf q.text.toList then some [.str name] else none := by
  obtain h | rfl | rfl := h
  · obtain ⟨s, hs⟩ := Option.isSome_iff_exists.mp h
    rw [text_of_statement hs, Server.not_select_text]
    cases q <;> cases hs <;> rfl
  · exact (if_pos Server.select_entry).symm
  · exact (if_pos Server.select_presence).symm

theorem text_ne_entry (s : Statement) (name : String) : s.text ≠ (Query.entry name).text := by
  intro heq
  have hselect := Server.not_select_text s
  rw [heq] at hselect
  exact Bool.false_ne_true (hselect.symm.trans Server.select_entry)

theorem text_relocate_ne (name schema : String) (version : Option String) :
    (Statement.relocate name schema).text ≠ (Statement.reversion name version).text := by
  intro heq
  have hrest := congrArg String.toList heq
  simp [Statement.text_relocate, Statement.text_reversion] at hrest

/-- No two requests of a course have the same text. -/
theorem Call.nodup_course (call : Call) : (call.course.map Request.text).Nodup := by
  cases call with
  | update name previous desired =>
      rw [course]
      split <;> simp [Request.text, text_ne_entry, text_relocate_ne]
  | create desired => simp [course, Request.text, text_ne_entry]
  | delete name => simp [course]
  | installed name => rw [course]; split <;> simp
  | read name => rw [course]; split <;> simp
  | adopt name => rw [course]; split <;> simp

/-! ### Where no answers were laid down -/

theorem dial_unscripted (c : Client) {s : Server} (h : s.connectReplies = []) : ∃ d, c.dial s = (true, d, s) := by
  obtain ⟨_, _, _, _⟩ := s
  obtain rfl := h
  rcases c with ⟨_ | ⟨_ | _, n⟩, _⟩ <;> exact ⟨_, rfl⟩

/-- There is a connection for every text. -/
theorem attempt_unscripted (text : String) (parameters : Option (List Json)) (c : Client) {s : Server}
    (h : s.connectReplies = []) :
    ∃ d, attempt text parameters c s =
      (if (s.answer text parameters).1.isOk then .answered else .refused, d, (s.answer text parameters).2) := by
  obtain ⟨d, hdial⟩ := dial_unscripted c h
  rcases hanswer : s.answer text parameters with ⟨result, after⟩
  exact ⟨_, attempt_open hdial hanswer⟩

/-- What becomes of the text of a change is what the change does to the catalog. -/
theorem Request.answer_change {q : Request} {s : Server} (hs : s.replies = []) (hcheck : q.check = .ok ())
    (hchange : q.statement?.isSome) :
    (s.answer q.text q.parameters).1.isOk = (q.onCatalog s.catalog).1.isOk ∧
      (s.answer q.text q.parameters).2 = { s with catalog := (q.onCatalog s.catalog).2 } := by
  rw [Server.answer_unscripted hs, onCatalog, hcheck]
  dsimp only
  rw [exchange]
  rcases Server.regular s.catalog q.text q.parameters with (e | r) | ⟨rows, c⟩
  · exact ⟨rfl, rfl⟩
  · exact ⟨rfl, rfl⟩
  · dsimp only
    rw [Except.bind, interpret_change hchange]
    exact ⟨rfl, rfl⟩

/-- The requests that are sent one after another, by the catalog alone: those that come to something, and the
first one that does not. -/
def allSent : List Request → Catalog → List Request
  | [], _ => []
  | q :: qs, c =>
    match q.onCatalog c with
    | (.ok _, d) => q :: allSent qs d
    | (.error _, _) => [q]

theorem reached_answered_cons (outcomes : List Fate) : reached (.answered :: outcomes) = reached outcomes + 1 :=
  List.countP_cons_of_pos rfl

/-- Which requests are sent is decided by the catalog of the server. -/
theorem take_reached (qs : List Request) (c : Client) {s : Server} (hs : s.Unscripted)
    (hchecks : ∀ q ∈ qs, q.check = .ok ()) (hchanges : ∀ q ∈ qs.dropLast, q.statement?.isSome) :
    qs.take (reached (fates qs c s)) = allSent qs s.catalog := by
  induction qs generalizing c s with
  | nil => rfl
  | cons q qs ih =>
      obtain ⟨d, hattempt⟩ := attempt_unscripted q.text q.parameters c hs.connectReplies
      rw [fates, allSent, hattempt]
      cases qs with
      | nil =>
          -- the last request is sent, whatever becomes of it
          rcases s.answer q.text q.parameters with ⟨_ | _, _⟩ <;>
            rcases q.onCatalog s.catalog with ⟨_ | _, _⟩ <;> rfl
      | cons next qs =>
          obtain ⟨hanswered, hafter⟩ := q.answer_change hs.replies (hchecks q List.mem_cons_self)
            (hchanges q (by simp))
          rw [hanswered, hafter]
          rcases q.onCatalog s.catalog with ⟨f | reply, e⟩
          · rfl
          · have hrest := ih d (s := { s with catalog := e }) ⟨hs.replies, hs.connectReplies⟩
              (fun r hr => hchecks r (List.mem_cons_of_mem _ hr)) (fun r hr => hchanges r (by simp [hr]))
            change (q :: next :: qs).take (reached (.answered :: fates (next :: qs) d { s with catalog := e })) = _
            rw [reached_answered_cons, List.take_succ_cons, hrest]

/-- The requests that a call sends, by the catalog alone. -/
def Call.sent (call : Call) (c : Catalog) : List Request :=
  match call.plan with
  | .ok qs => allSent qs c
  | .error _ => []

/-! ### Calls -/

namespace Call

variable {access : Access} {call : Call} {w : World}

/-- A call comes to its first request when the gate lets it pass, its arguments are in order, and the lock
admits it. -/
structure Starts (access : Access) (call : Call) (w : World) : Prop where
  gate : (requireExtensions access Gateway.resourceName w).1 = .ok ()
  admissible : call.Admissible
  lock : ((requireExtensions access Gateway.resourceName w).2.locks.lock access.target).admits call.mode =
    true

/-- The fates of the requests in the course of a call. -/
def outcomes (access : Access) (call : Call) (w : World) : List Fate :=
  let u := (requireExtensions access Gateway.resourceName w).2
  fates call.course u.client u.server

theorem prepare_silent (access : Access) (call : Call) : Silent (call.prepare access) :=
  .bind (requireExtensions_silent access _) fun _ => .checked _

/-- A call that is prepared has passed the gate, and asks for its course. -/
theorem prepare_ok {qs : List Request} {u : World} (h : call.prepare access w = (.ok qs, u)) :
    requireExtensions access Gateway.resourceName w = (.ok (), u) ∧ call.Admissible ∧
      qs = call.course := by
  rcases hu : requireExtensions access Gateway.resourceName w with ⟨f | _, v⟩
  · rw [prepare, bind_error hu] at h
    cases h
  · rw [prepare, bind_ok hu] at h
    cases hplan : call.plan with
    | error e =>
        rw [hplan] at h
        cases h
    | ok rs =>
        rw [hplan] at h
        obtain ⟨hqs, rfl⟩ := Prod.mk.inj h
        obtain ⟨hadmissible, hcourse⟩ := plan_eq_ok_iff.mp hplan
        exact ⟨rfl, hadmissible, (Except.ok.inj hqs).symm.trans hcourse⟩

theorem body_statements (access : Access) (call : Call) (qs : List Request) (w : World) :
    (call.body access qs w).2.statements = (performAll access qs .nothing w).2.statements :=
  bind_statements _ call.conclude_silent w

/-- The statements of a call, once it is known what it asks for. -/
theorem staged_statements {qs : List Request} {u : World}
    (hprepare : call.prepare access w = (.ok qs, u)) :
    (call.staged access w).2.statements =
      if qs = [] then w.statements
      else (locked call.mode access.target (call.body access qs) u).2.statements := by
  have hsilent := (call.prepare_silent access).statements w
  rw [hprepare] at hsilent
  rw [staged, bind_ok hprepare]
  split
  · rw [bind_statements _ fun _ => .checked _, call.settle_silent.statements]
    exact hsilent
  · rw [bind_statements _ fun _ => .checked _]

theorem statements_of_starts (h : call.Starts access w) :
    (call.run access w).2.statements =
      w.statements ++ (call.course.take (reached (call.outcomes access w))).map Request.sending := by
  obtain ⟨hgate, hadmissible, hlock⟩ := h
  rcases hu : requireExtensions access Gateway.resourceName w with ⟨r, u⟩
  rw [hu] at hgate hlock
  obtain rfl : r = .ok () := hgate
  have hprepare : call.prepare access w = (.ok call.course, u) := by
    rw [prepare, bind_ok hu, plan_of_admissible hadmissible]
    rfl
  have hstatements := (requireExtensions_silent access Gateway.resourceName).statements w
  rw [run_eq, staged_statements hprepare, outcomes, hu]
  rw [hu] at hstatements
  split
  · next hnone => rw [hnone, List.take_nil, List.map_nil, List.append_nil]
  · have hentered : (u.entered call.mode access.target).statements = w.statements :=
      (World.statements_append rfl).trans (by rw [hstatements]; exact List.append_nil _)
    have hcleared : u.client.Cleared := requireExtensions_clears hu
    have hperformed := performAll_statements access call.course .nothing
      (w := u.entered call.mode access.target) hcleared (check_course hadmissible) call.changes_course
    rw [hentered] at hperformed
    rw [locked_statements _ hlock, body_statements]
    exact hperformed

theorem statements_of_not_starts (h : ¬call.Starts access w) :
    (call.run access w).2.statements = w.statements := by
  have hsilent := (call.prepare_silent access).statements w
  rw [run_eq]
  rcases hprepare : call.prepare access w with ⟨f | qs, u⟩
  · rw [hprepare] at hsilent
    rw [staged, bind_error hprepare]
    exact hsilent
  · rw [hprepare] at hsilent
    rw [staged_statements hprepare]
    split
    · rfl
    · obtain ⟨hu, hadmissible, -⟩ := prepare_ok hprepare
      have hlock : (u.locks.lock access.target).admits call.mode = false := by
        refine Bool.eq_false_iff.mpr fun hadmits => h ⟨?_, hadmissible, ?_⟩
        · rw [hu]
        · rw [hu]
          exact hadmits
      rw [locked_error hlock]
      exact hsilent

theorem sendings_nodup (call : Call) (n : Nat) : ((call.course.take n).map Request.sending).Nodup := by
  have htexts : ((call.course.take n).map Request.text).Nodup :=
    call.nodup_course.sublist ((List.take_sublist n _).map _)
  refine List.Nodup.of_map Prod.fst ?_
  rw [List.map_map]
  exact htexts

theorem sendings_parameters (call : Call) (n : Nat) :
    ∀ sent ∈ (call.course.take n).map Request.sending,
      sent.2 = if "SELECT".toList.isPrefixOf sent.1.toList then some [.str call.identity] else none := by
  intro sent hsent
  obtain ⟨q, hq, rfl⟩ := List.mem_map.mp hsent
  exact Request.parameters_eq (call.reading_course q (List.mem_of_mem_take hq))

/-- Whatever the server does, the statements that a call sends are the first ones of its course. They are
all of them exactly if the course is empty or the call came to its first request, had a connection for each
one and no request before the last was refused. If there are fewer, the last one was refused or there was
no connection for the next, and each before the last was answered. None is sent twice, and a query has the
name of the extension as its only parameter. -/
theorem statements_follow_course (access : Access) (call : Call) (w : World) :
    ∃ n ≤ call.course.length,
      (call.run access w).2.statements = w.statements ++ (call.course.take n).map Request.sending ∧
      (n = call.course.length ↔ call.course = [] ∨
        call.Starts access w ∧ .unreached ∉ call.outcomes access w ∧
          .refused ∉ (call.outcomes access w).take (call.course.length - 1)) ∧
      (0 < n → call.Starts access w) ∧
      (∀ i, i + 1 < n → (call.outcomes access w)[i]? = some .answered) ∧
      (0 < n → n < call.course.length → (call.outcomes access w)[n - 1]? = some .refused ∨
        (call.outcomes access w)[n]? = some .unreached) ∧
      ((call.course.take n).map Request.sending).Nodup ∧
      ∀ sent ∈ (call.course.take n).map Request.sending,
        sent.2 = if "SELECT".toList.isPrefixOf sent.1.toList then some [.str call.identity] else none := by
  have hfated : Fated call.course.length (call.outcomes access w) := fated_fates ..
  by_cases hstarts : call.Starts access w
  · refine ⟨reached (call.outcomes access w), hfated.reached_le, statements_of_starts hstarts, ?_,
      fun _ => hstarts, fun i => hfated.before_last, hfated.at_end, call.sendings_nodup _,
      call.sendings_parameters _⟩
    by_cases hcourse : call.course = []
    · have hle := hfated.reached_le
      rw [hcourse] at hle ⊢
      exact ⟨fun _ => .inl rfl, fun _ => Nat.le_antisymm hle (Nat.zero_le _)⟩
    · rw [hfated.reached_eq_iff (by simpa using hcourse)]
      simp [hstarts, hcourse]
  · refine ⟨0, Nat.zero_le _, ?_, ?_, fun h => absurd h (Nat.lt_irrefl _), fun i hi => absurd hi (by omega),
      fun h => absurd h (Nat.lt_irrefl _), call.sendings_nodup 0, call.sendings_parameters 0⟩
    · rw [statements_of_not_starts hstarts, List.take_zero, List.map_nil, List.append_nil]
    · rw [eq_comm, List.length_eq_zero_iff]
      exact ⟨.inl, fun h => h.resolve_right fun ⟨h, _⟩ => hstarts h⟩

/-- A server that closes the connection after the first statement and lets no other be opened. -/
example : ((Call.update "hstore" (Installation.observed "hstore" ⟨"public", "1.7"⟩)
    ⟨"hstore", some "app", some "1.8"⟩).run ⟨.default, none⟩
      (.ofServer ⟨.fresh, 160002, [.lastRows []], [none, some (.disruption .warning)]⟩)).2.statements.map
        Prod.fst = ["ALTER EXTENSION \"hstore\" SET SCHEMA \"app\""] := by
  decide +kernel

end Call

end CatalogSteward.Lifecycle
