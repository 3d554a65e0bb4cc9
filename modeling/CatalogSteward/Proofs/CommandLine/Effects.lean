import CatalogSteward.Proofs.CommandLine.Operands
import CatalogSteward.Proofs.CommandLine.Records

/-!
# What commands can do

Besides queries a command sends no other statements than those of its task, which are known from the arguments:
one for a creation and for a deletion, at most two for an update, and none for all else. Whatever rows the
server returns, they are about the extension that the arguments name. A deletion that is not agreed to does
nothing at all.
-/

namespace CatalogSteward
open Act

/-- Whether a text that is sent is a query. -/
def isQuery (sent : String × Option (List Json)) : Bool := "SELECT".toList.isPrefixOf sent.1.toList

/-- A statement as it is sent: it has no parameters. -/
def Statement.sending (s : Statement) : String × Option (List Json) := (s.text, none)

/-- From one world to another no statements but these have been sent besides queries, each at most once and in
this order; if there are none, the catalog is the same. -/
structure Sent (ss : List Statement) (w u : World) : Prop where
  said : ∃ said, u.statements = w.statements ++ said ∧
    (said.filter fun sent => !isQuery sent).Sublist (ss.map Statement.sending)
  kept : ss = [] → u.server.catalog = w.server.catalog

theorem Sent.trans {ss ts : List Statement} {w u v : World} (h : Sent ss w u) (k : Sent ts u v) :
    Sent (ss ++ ts) w v := by
  obtain ⟨said, hsaid, hsublist⟩ := h.said
  obtain ⟨more, hmore, hmoreSublist⟩ := k.said
  constructor
  · refine ⟨said ++ more, by rw [hmore, hsaid, List.append_assoc], ?_⟩
    rw [List.filter_append, List.map_append]
    exact hsublist.append hmoreSublist
  · intro hnone
    obtain ⟨hss, hts⟩ := List.append_eq_nil_iff.mp hnone
    exact (k.kept hts).trans (h.kept hss)

theorem Sent.mono {ss ts : List Statement} {w u : World} (h : Sent ss w u) (hsub : ss.Sublist ts) :
    Sent ts w u := by
  obtain ⟨said, hsaid, hsublist⟩ := h.said
  refine ⟨⟨said, hsaid, hsublist.trans (hsub.map _)⟩, fun hnone => h.kept ?_⟩
  exact List.sublist_nil.mp (hnone ▸ hsub)

/-- Nothing has been sent. -/
theorem Sent.nothing {w u : World} (hstatements : u.statements = w.statements) (hserver : u.server = w.server) :
    Sent [] w u :=
  ⟨⟨[], by rw [hstatements, List.append_nil], List.Sublist.refl _⟩, fun _ => by rw [hserver]⟩

/-- Whatever becomes of an operation, it has sent no statements but these besides queries. -/
def Act.Sends {α : Type} (ss : List Statement) (a : Act α) : Prop := ∀ w, Sent ss w (a w).2

namespace Act.Sends

variable {α β : Type} {ss ts : List Statement} {a : Act α} {f : α → Act β}

theorem mono (h : Sends ss a) (hsub : ss.Sublist ts) : Sends ts a := fun w => (h w).mono hsub

theorem nothing (h : ∀ w, (a w).2.statements = w.statements ∧ (a w).2.server = w.server) : Sends [] a :=
  fun w => .nothing (h w).1 (h w).2

theorem of_aside (h : Leads Aside a) : Sends [] a :=
  nothing fun w => ⟨CommandLine.Aside.statements (h w), (h w).server⟩

theorem bind (ha : Sends ss a) (hf : ∀ x, Sends ts (f x)) : Sends (ss ++ ts) (a >>= f) := by
  intro w
  have hsent := ha w
  rcases hw : a w with ⟨e | x, u⟩
  · rw [hw] at hsent
    rw [bind_error hw]
    exact hsent.mono (List.sublist_append_left ss ts)
  · rw [hw] at hsent
    rw [bind_ok hw]
    exact hsent.trans (hf x u)

/-- What comes after the statements sends only queries. -/
theorem then_queries (ha : Sends ss a) (hf : ∀ x, Sends [] (f x)) : Sends ss (a >>= f) :=
  List.append_nil ss ▸ ha.bind hf

theorem after_queries (ha : Sends [] a) (hf : ∀ x, Sends ss (f x)) : Sends ss (a >>= f) :=
  ha.bind hf

theorem pure (x : α) : Sends [] (Pure.pure x : Act α) := nothing fun _ => ⟨rfl, rfl⟩

theorem throw (e : Failure) : Sends [] (MonadExcept.throw e : Act α) := nothing fun _ => ⟨rfl, rfl⟩

theorem outcome (h : Sends ss a) : Sends ss (Act.outcome a) := h

/-- An operation whose result is only turned into something else. -/
theorem of_map {g : α → β} (h : Sends ss (do return g (← a))) : Sends ss a := by
  intro w
  rw [← Act.map_world g a w]
  exact h w

/-- An operation that makes no change visible and keeps every catalog. -/
theorem queries (hemits : Emits (fun x => x.isChange = false) a) (hkeeps : ∀ c, Keeps (· = c) a) :
    Sends [] a := by
  intro w
  obtain ⟨added, htrace, hadded⟩ := hemits w
  refine ⟨⟨_, World.statements_append htrace, ?_⟩, fun _ => hkeeps _ w rfl⟩
  rw [List.map_nil, List.sublist_nil, List.filter_eq_nil_iff]
  intro sent hsent
  obtain ⟨x, hx, hstatement⟩ := List.mem_filterMap.mp hsent
  cases x with
  | sql text parameters =>
      obtain rfl := Option.some.inj hstatement
      simpa [Happening.isChange, isQuery] using hadded _ hx
  | _ => cases hstatement

end Act.Sends

namespace Lifecycle

/-! ### Calls -/

theorem filter_sendings (qs : List Request) :
    ((qs.map Request.sending).filter fun sent => !isQuery sent) =
      (qs.filterMap Request.statement?).map Statement.sending := by
  induction qs with
  | nil => rfl
  | cons q qs ih =>
      have hfirst : isQuery q.sending = q.statement?.isNone := by
        cases q with
        | find name => exact Server.select_entry
        | has name => exact Server.select_presence
        | _ => exact Server.not_select_text _
      cases hs : q.statement? with
      | none =>
          rw [List.map_cons, List.filter_cons_of_neg (by simp [hfirst, hs]), ih, List.filterMap_cons_none hs]
      | some s =>
          have hsending : q.sending = s.sending := by cases q <;> cases hs <;> rfl
          rw [List.map_cons, List.filter_cons_of_pos (by simp [hfirst, hs]), ih, List.filterMap_cons_some hs,
            List.map_cons, hsending]

/-- A call without statements keeps every catalog. -/
theorem Call.run_keeps_catalog {call : Call} (h : call.changes = []) (access : Access) (c : Catalog) :
    Keeps (· = c) (call.run access) := by
  refine call.run_keeps access fun _ q hq => ?_
  have hquery : q.statement? = none := by
    rw [changes, List.filterMap_eq_nil_iff] at h
    exact h q hq
  have hselect : "SELECT".toList.isPrefixOf q.text.toList = true := by
    cases q with
    | find name => exact Server.select_entry
    | has name => exact Server.select_presence
    | _ => cases hquery
  rintro d rows e rfl hregular
  exact Server.regular_select hselect hregular

/-- A call sends its own statements at most. -/
theorem Call.run_sends_changes (access : Access) (call : Call) : Sends call.changes (call.run access) := by
  intro w
  refine ⟨?_, fun hnone => call.run_keeps_catalog hnone access _ w rfl⟩
  by_cases hstarts : call.Starts access w
  · refine ⟨_, statements_of_starts hstarts, ?_⟩
    rw [filter_sendings]
    exact ((List.take_sublist _ _).filterMap _).map _
  · exact ⟨[], by rw [statements_of_not_starts hstarts, List.append_nil], List.nil_sublist _⟩

theorem Call.run_sends_queries (call : Call) (h : call.asks = true) (access : Access) :
    Sends [] (call.run access) :=
  changes_of_asks h ▸ call.run_sends_changes access

end Lifecycle

theorem Gateway.list_keeps (access : Access) (c : Catalog) : Keeps (· = c) (Gateway.list access) := by
  have hall : Server.TextKeeps (· = c) Query.all.text none := by
    rintro d rows e rfl hregular
    exact Server.regular_select Server.select_all hregular
  refine Keeps.bind (Client.requireExtensions_keeps access _) fun _ => ?_
  refine Keeps.bind (Client.send_keeps access _ hall) fun rows => ?_
  split <;> exact .of_server fun _ => rfl

namespace CommandLine

/-! ### Sessions and records -/

section
variable {α : Type} {ss : List Statement} {op : Act α}

theorem session_sends (h : Sends ss op) : Sends ss (session op) := by
  intro w
  obtain ⟨hserver, hstatements⟩ := session_heard op w
  have hsent := h { w with client := .start }
  refine ⟨?_, fun hnone => ?_⟩
  · rw [hstatements]
    exact hsent.said
  · rw [hserver]
    exact hsent.kept hnone

theorem record_sends (a : Attempt) (failure : Option Error) : Sends [] (a.record failure) :=
  .of_aside (attempt_record_aside a failure)

theorem recordingErrors_sends (a : Attempt) (h : Sends ss op) : Sends ss (a.recordingErrors op) := by
  apply h.outcome.then_queries
  intro result
  cases result with
  | ok x => exact .pure x
  | error f =>
      cases f with
      | error e => exact (record_sends a _).after_queries fun _ => .throw _
      | fault f => exact (Sends.pure ()).after_queries fun _ => .throw _
      | exit code => exact (Sends.pure ()).after_queries fun _ => .throw _

theorem carriedOut_sends (a : Attempt) (h : Sends ss op) : Sends ss (a.carriedOut op) := by
  apply (recordingErrors_sends a h).then_queries
  intro x
  exact (record_sends a none).after_queries fun _ => .pure x

theorem correlated_sends (operation : String) (h : Sends ss op) : Sends ss (correlated operation op) := by
  intro w
  rw [correlated_apply]
  exact ⟨(h (correlating operation w)).said, (h (correlating operation w)).kept⟩

/-- What is sent by the work of a command is sent by the command. -/
theorem Works.sends {command : Act Unit} (hworks : Works command op) (h : Sends ss op) : Sends ss command := by
  intro w
  obtain ⟨-, hserver, hstatements⟩ := hworks.leaves w
  refine ⟨?_, fun hnone => ?_⟩
  · rw [hstatements]
    exact (h w).said
  · rw [hserver]
    exact (h w).kept hnone

end

/-! ### The statements of a task -/

/-- The statements that a task can send besides queries. -/
def Task.statements : Task → List Statement
  | .create desired => [.create desired.name desired.schema desired.version]
  | .update wanted latest =>
    wanted.schema.toList.map (.relocate wanted.name) ++
      (updateTo wanted latest).version.toList.map fun version => .reversion wanted.name (some version)
  | .delete name => [.drop name]
  | _ => []

theorem differing_sublist (wanted : Option String) (known : Json) :
    (differing wanted known).toList.Sublist wanted.toList := by
  cases wanted with
  | none => exact .refl _
  | some s =>
      rw [differing, Option.filter_some]
      split
      · exact .refl _
      · exact List.nil_sublist _

/-- Whatever is known of an extension, an update sends no other statements than those of its task. -/
theorem changes_update_sublist (desired : Declared) (previous : Observed) :
    (Lifecycle.Call.update desired.name previous desired).changes.Sublist
      (desired.schema.toList.map (.relocate desired.name) ++
        desired.version.toList.map fun version => .reversion desired.name (some version)) := by
  have hchanges : (Lifecycle.Call.update desired.name previous desired).changes =
      (differing desired.schema previous.schema).toList.map (.relocate desired.name) ++
        (differing desired.version previous.version).toList.map
          fun version => .reversion desired.name (some version) := by
    rw [Lifecycle.Call.changes, Lifecycle.Call.course]
    cases differing desired.schema previous.schema <;> cases differing desired.version previous.version <;> rfl
  rw [hchanges]
  exact ((differing_sublist _ _).map _).append ((differing_sublist _ _).map _)

theorem updateInstalled_sends (access : Access) (desired : Declared) :
    Sends (desired.schema.toList.map (.relocate desired.name) ++
      desired.version.toList.map fun version => .reversion desired.name (some version))
      (updateInstalled access desired) := by
  have hread : Sends [] (Lifecycle.read access desired.name) :=
    .of_map (Lifecycle.Call.run_sends_queries (.read desired.name) rfl access)
  apply hread.after_queries
  intro found
  cases found with
  | none => exact (Sends.throw _).mono (List.nil_sublist _)
  | some previous =>
      apply correlated_sends
      have hupdate : Sends _ (Lifecycle.update access desired.name previous desired) :=
        .of_map ((Lifecycle.Call.run_sends_changes access (.update desired.name previous desired)).mono
          (changes_update_sublist desired previous))
      apply (recordingErrors_sends _ hupdate).then_queries
      intro updated
      cases updated with
      | unchanged => exact (Sends.pure ()).after_queries fun _ => .pure _
      | readBack o => exact (record_sends _ none).after_queries fun _ => .pure _

/-! ### The commands -/

theorem deleteConfirmed_sends (i : Invocation) (name : String) :
    Sends [.drop name] (deleteConfirmed i name) := by
  apply (deleteConfirmed_works i name).sends
  apply (Sends.of_aside (audited_aside i)).after_queries
  intro access
  have hdelete : Sends [.drop name] (Lifecycle.delete access name) :=
    .of_map (g := fun _ => Lifecycle.Answer.deleted) (Lifecycle.Call.run_sends_changes access (.delete name))
  exact carriedOut_sends _ (session_sends hdelete)

theorem delete_sends (i : Invocation) (name : String) : Sends [.drop name] (delete i name) := by
  intro w
  have hquestioned := questioned_aside i name w
  have hasked : Sent [] w (questioned i name w) :=
    .nothing (Aside.statements hquestioned) hquestioned.server
  cases hproceeds : proceeds i w with
  | false =>
      have hsaid := Sends.of_aside (Tells.say .warn "Operation cancelled").aside (questioned i name w)
      rw [say_apply] at hsaid
      rw [delete_cancelled hproceeds]
      exact (hasked.trans hsaid).mono (List.nil_sublist _)
  | true =>
      rw [delete_proceeds hproceeds]
      exact hasked.trans (deleteConfirmed_sends i name _)

theorem list_sends (i : Invocation) : Sends [] (list i) := by
  have hlist (access : Access) : Sends [] (Act.locked .shared access.target (Gateway.list access)) :=
    .queries ((Gateway.list_queries access).locked _ _ rfl rfl) fun c => (Gateway.list_keeps access c).locked _ _
  apply (list_works i).sends
  apply (Sends.of_aside (loadAccess_aside i)).after_queries
  intro access
  exact (session_sends (hlist access)).then_queries fun _ => .pure _

/-- A command that only asks, in one session. -/
theorem reading_sends {α : Type} {i : Invocation} {command : Act Unit} {op : Access → Act α}
    (hworks : Works command (do
      let access ← loadAccess i
      session (op access))) (h : ∀ access, Sends [] (op access)) : Sends [] command :=
  hworks.sends ((Sends.of_aside (loadAccess_aside i)).after_queries fun access => session_sends (h access))

/-- A task sends no statements but its own, whatever the server does. -/
theorem perform_sends (i : Invocation) (task : Task) : Sends task.statements (perform i task) := by
  have haudited : Sends [] (audited i) := .of_aside (audited_aside i)
  cases task with
  | create desired =>
      apply (create_works i desired).sends
      apply haudited.after_queries
      intro access
      exact carriedOut_sends _ (session_sends (.of_map
        (Lifecycle.Call.run_sends_changes access (.create desired))))
  | display name =>
      exact reading_sends (display_works i name) fun access =>
        .of_map (Lifecycle.Call.run_sends_queries (.read name) rfl access)
  | probe name =>
      exact reading_sends (probe_works i name) fun access =>
        .of_map (Lifecycle.Call.run_sends_queries (.installed name) rfl access)
  | update wanted latest =>
      cases hconflicting : conflicting wanted latest with
      | true => exact (Sends.of_aside (update_tells i hconflicting).aside).mono (List.nil_sublist _)
      | false =>
          have hsends (access : Access) := updateInstalled_sends access (updateTo wanted latest)
          have hname : (updateTo wanted latest).name = wanted.name := by cases latest <;> rfl
          have hschema : (updateTo wanted latest).schema = wanted.schema := by cases latest <;> rfl
          rw [hname, hschema] at hsends
          apply (update_works i hconflicting).sends
          apply haudited.after_queries
          exact fun access => session_sends (hsends access)
  | delete name => exact delete_sends i name
  | adopt name =>
      apply (adopt_works i name).sends
      apply haudited.after_queries
      intro access
      have hadopt : Sends [] (Lifecycle.adopt access name) :=
        .of_map (g := fun o => Lifecycle.Answer.observed (some o))
          (Lifecycle.Call.run_sends_queries (.adopt name) rfl access)
      apply (session_sends hadopt).after_queries
      intro observed
      exact (record_sends _ none).after_queries fun _ => .pure observed
  | list => exact list_sends i
  | displaySettings => exact .of_aside (displaySettings_aside i)
  | initSettings force => exact .of_aside (initSettings_aside i force)
  | validateSettings => exact .of_aside (validateSettings_aside i)

/-- The statements of a task are about the extension that it is about, and of nothing but what it was given. -/
theorem statements_given {task : Task} {s : Statement} (h : s ∈ task.statements) :
    task.name? = some s.subject ∧ ∀ text ∈ s.names, text ∈ task.name? ∨ text ∈ task.values ∨ text = "" := by
  cases task with
  | create desired =>
      obtain rfl := List.mem_singleton.mp h
      refine ⟨rfl, List.forall_mem_cons.mpr ⟨.inl rfl, ?_⟩⟩
      exact fun text htext => .inr (.inl htext)
  | update wanted latest =>
      obtain hs | hs := List.mem_append.mp h
      · obtain ⟨schema, hschema, rfl⟩ := List.mem_map.mp hs
        rw [Option.mem_toList] at hschema
        simp [Task.name?, Task.values, Statement.subject, Statement.names, Option.mem_def.mp hschema]
      · obtain ⟨version, hversion, rfl⟩ := List.mem_map.mp hs
        rw [Option.mem_toList] at hversion
        refine ⟨rfl, List.forall_mem_cons.mpr ⟨.inl rfl, ?_⟩⟩
        cases latest with
        | false =>
            have hgiven : wanted.version = some version := hversion
            simp [Task.values, hgiven]
        | true =>
            have hempty : version = "" := (Option.some.inj hversion).symm
            simp [hempty]
  | delete name =>
      obtain rfl := List.mem_singleton.mp h
      simp [Task.name?, Statement.subject, Statement.names]
  | _ => cases h

/-- If the arguments of the program have no NUL, the server reads the statements of the task as they are meant. -/
theorem statements_read {d : Disk} {args : List String} {i : Invocation} {task : Task} {s : Statement}
    (hargs : Command.ofArguments d args = .ok (.task i task)) (hnul : ∀ arg ∈ args, '\x00' ∉ arg.toList)
    (h : s ∈ task.statements) :
    s.subject ∈ args ∧ Statement.read? s.text = some s.normal := by
  obtain ⟨hname, hvalues⟩ := ofArguments_task hargs
  obtain ⟨hsubject, hgiven⟩ := statements_given h
  constructor
  · exact hname s.subject hsubject
  · apply Statement.read?_text
    intro text htext
    obtain hnamed | hvalue | rfl := hgiven text htext
    · exact hnul text (hname text hnamed)
    · exact (hvalues text hvalue).notMem hnul
    · simp

/-! ### The question before a deletion -/

/-- Whether the next line from the keyboard, without the blanks around it and in lower case, says yes. -/
def Agrees (keyboard : List (Option String)) : Prop :=
  ∃ line, keyboard.head? = some (some line) ∧ Text.lower (Text.strip line) ∈ ["y", "yes"]

theorem agrees_of_agreed {keyboard : List (Option String)} (h : agreed false keyboard = true) :
    Agrees keyboard := by
  unfold agreed at h
  cases hline : keyboard.head?.join with
  | none =>
      rw [hline] at h
      cases h
  | some line =>
      rw [hline] at h
      refine ⟨line, Option.join_eq_some_iff.mp hline, ?_⟩
      by_cases hempty : Text.lower (Text.strip line) = ""
      · simp [hempty] at h
      · simpa [hempty] using h

/-- A deletion that is not agreed to only takes a line from the keyboard and tells so. -/
theorem delete_unconfirmed {i : Invocation} {w : World} (hyes : i.yes = false) (h : ¬ Agrees w.keyboard)
    (name : String) :
    ∃ added, delete i name w =
      (.error (.exit 0), { w with keyboard := w.keyboard.drop 1, trace := w.trace ++ added }) ∧
      ∀ x ∈ added, x.isTraffic = false ∧ x.isLocking = false := by
  have hconfirm : i.shouldConfirm = true := by simp [Invocation.shouldConfirm, hyes]
  have hcancelled : proceeds i w = false := by
    rw [proceeds, hconfirm, Bool.not_true, Bool.false_or, ← Bool.not_eq_true]
    exact fun hagreed => h (agrees_of_agreed hagreed)
  have hquestioned : questioned i name w = asked ("Drop extension '" ++ name ++ "'?") false w := if_pos hconfirm
  obtain ⟨hrest, ⟨added, htrace, hidle⟩, -⟩ := Tells.say .warn "Operation cancelled" (questioned i name w)
  rw [say_apply] at hrest htrace
  dsimp only at hrest htrace
  rw [htrace, hquestioned, asked, List.append_assoc, List.singleton_append] at hrest
  rw [delete_cancelled hcancelled, hquestioned, asked, hrest]
  exact ⟨_, rfl, List.forall_mem_cons.mpr ⟨⟨rfl, rfl⟩, hidle⟩⟩

/-! ### The program -/

/-- Whether a task is about extensions, and not about the configuration. -/
def Task.asksServer : Task → Bool
  | .displaySettings | .initSettings _ | .validateSettings => false
  | _ => true

/-- What becomes of a world through a task stays within the task. -/
structure Task.Confined (args : List String) (i : Invocation) (task : Task) (w : World)
    (result : Except Failure Unit) (u : World) : Prop where
  /-- Besides queries only its statements are sent, each once at most; if it has none, the catalog stays. -/
  sent : Sent task.statements w u
  /-- The server reads them as they are meant, and the arguments name the extension that they are about. -/
  understood : ∀ s ∈ task.statements,
    task.name? = some s.subject ∧ s.subject ∈ args ∧ Statement.read? s.text = some s.normal
  silent : task.asksServer = false → ∃ added, u.trace = w.trace ++ added ∧
    ∀ x ∈ added, x.isTraffic = false ∧ x.isLocking = false
  /-- A deletion that is not agreed to changes nothing but the keyboard and what is shown. -/
  unconfirmed : ∀ name, task = .delete name → i.yes = false → ¬ Agrees w.keyboard →
    exitCode result = 0 ∧ ∃ added, u =
      { w with console := i.console, keyboard := w.keyboard.drop 1, trace := w.trace ++ added } ∧
      ∀ x ∈ added, x.isTraffic = false ∧ x.isLocking = false

theorem silent_aside {i : Invocation} {task : Task} (h : task.asksServer = false) :
    Leads Aside (perform i task) := by
  cases task with
  | displaySettings => exact displaySettings_aside i
  | initSettings force => exact initSettings_aside i force
  | validateSettings => exact validateSettings_aside i
  | _ => cases h

/-- Whatever the server does and whatever is typed, a command has only the effect of its task; arguments that
make no task have none on the server. -/
theorem effects_are_confined {args : List String} (hnul : ∀ arg ∈ args, '\x00' ∉ arg.toList) (w : World) :
    (∀ i task, Command.ofArguments w.disk args = .ok (.task i task) →
      task.Confined args i w (run args w).1 (run args w).2) ∧
    ((∀ i task, Command.ofArguments w.disk args ≠ .ok (.task i task)) →
      ∃ added, (run args w).2 = { w with trace := w.trace ++ added } ∧
        ∀ x ∈ added, x.isTraffic = false ∧ x.isLocking = false) := by
  constructor
  · intro i task hargs
    rw [run_task hargs]
    have hsent := perform_sends i task { w with console := i.console }
    constructor
    · exact ⟨hsent.said, hsent.kept⟩
    · intro s hs
      obtain ⟨hsubject, hread⟩ := statements_read hargs hnul hs
      exact ⟨(statements_given hs).1, hsubject, hread⟩
    · intro hsilent
      exact (silent_aside hsilent { w with console := i.console }).trace
    · rintro name rfl hyes hdisagrees
      obtain ⟨added, hdelete, hidle⟩ :=
        delete_unconfirmed (w := { w with console := i.console }) hyes hdisagrees name
      rw [perform, hdelete]
      exact ⟨rfl, added, rfl, hidle⟩
  · intro hnone
    rw [run, get_bind]
    cases hargs : Command.ofArguments w.disk args with
    | error f =>
        refine ⟨[], ?_, by simp⟩
        rw [List.append_nil]
        rfl
    | ok command =>
        cases command with
        | version => exact ⟨_, rfl, by simp [Happening.isTraffic, Happening.isLocking]⟩
        | sampleSettings => exact ⟨_, rfl, by simp [Happening.isTraffic, Happening.isLocking]⟩
        | task i t => exact absurd hargs (hnone i t)

/-- A server whose next rows are about another extension, and a keyboard that is interrupted at once. -/
def interrupted : World :=
  { World.ofServer ⟨Catalog.fresh.install "hstore" ⟨"app", "1.7"⟩, 90100, [.rows [[.str "citext"]]], []⟩ with
    keyboard := [none] }

/-- Nothing is sent for a deletion that is interrupted. -/
theorem effects_are_confined_interrupted :
    exitCode (run ["extension", "delete", "hstore"] interrupted).1 = 0 ∧
      (run ["extension", "delete", "hstore"] interrupted).2.statements = [] ∧
      (run ["extension", "delete", "hstore"] interrupted).2.server = interrupted.server := by
  have hargs : Command.ofArguments interrupted.disk ["extension", "delete", "hstore"] =
      .ok (.task (.ofOptions false 0 false false none) (.delete "hstore")) := rfl
  have hconfined := (effects_are_confined (by decide) interrupted).1 _ _ hargs
  have hdisagrees : ¬ Agrees interrupted.keyboard := fun ⟨line, hline, _⟩ => nomatch hline
  obtain ⟨hzero, added, hworld, hidle⟩ := hconfined.unconfirmed "hstore" rfl rfl hdisagrees
  refine ⟨hzero, ?_, by rw [hworld]⟩
  rw [hworld]
  exact Exchanged.statement?_idle fun x hx => (hidle x hx).1

end CommandLine

end CatalogSteward
