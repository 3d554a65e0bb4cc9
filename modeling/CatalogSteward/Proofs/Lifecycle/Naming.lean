import CatalogSteward.Proofs.Lifecycle.Convergence
import CatalogSteward.Proofs.Lifecycle.Course

/-!
# What statements name

The text of a statement is read back as the statement with each name cut at its first null character.
Creating and deleting check the name, and an update checks the schema to which it moves an extension, but
a creation does not check its schema and version, nor an update its name and version. So a statement names
exactly what was meant if the unchecked names are in order; if they are not, an update can change another
extension than the one it was asked to.
-/

namespace CatalogSteward

namespace Act

/-- An operation that keeps what is true of the catalog of the server. -/
def Keeps {α : Type} (P : Catalog → Prop) (a : Act α) : Prop :=
  ∀ w, P w.server.catalog → P (a w).2.server.catalog

namespace Keeps

variable {α β : Type} {P : Catalog → Prop} {a : Act α} {f : α → Act β}

theorem of_server (h : ∀ w, (a w).2.server.catalog = w.server.catalog) : Keeps P a :=
  fun w hw => (h w).symm ▸ hw

theorem bind (ha : Keeps P a) (hf : ∀ x, Keeps P (f x)) : Keeps P (a >>= f) := by
  intro w hw
  have hafter := ha w hw
  rcases h : a w with ⟨e | x, u⟩ <;> rw [h] at hafter
  · rw [bind_error h]
    exact hafter
  · rw [bind_ok h]
    exact hf x u hafter

theorem get_bind {f : World → Act β} (hf : ∀ w, Keeps P (f w)) : Keeps P (get >>= f) :=
  fun w => hf w w

theorem say (level : Level) (message : String) : Keeps P (say level message) :=
  of_server fun w => by rw [say_apply]; rfl

theorem checked (x : Except Error α) : Keeps P (checked x) := by
  cases x <;> exact of_server fun _ => rfl

theorem always {after : Act Unit} (ha : Keeps P a) (hafter : Keeps P after) :
    Keeps P (always a after) := by
  intro w hw
  have hended := hafter _ (ha w hw)
  rw [always_apply]
  rcases h : after (a w).2 with ⟨_ | _, u⟩ <;> rw [h] at hended <;> exact hended

theorem locked (mode : LockMode) (key : String) (ha : Keeps P a) : Keeps P (locked mode key a) := by
  refine .bind ?_ fun _ => .always ha ?_
  · refine .bind (.of_server fun _ => rfl) fun _ => .get_bind fun w => ?_
    dsimp only
    split
    · exact .bind (.of_server fun _ => rfl) fun _ => .of_server fun _ => rfl
    · exact .of_server fun _ => rfl
  · refine .get_bind fun w => ?_
    split
    · exact .bind (.of_server fun _ => rfl) fun _ => .of_server fun _ => rfl
    · exact .of_server fun _ => rfl

end Keeps

end Act

/-! ### Which texts keep what -/

/-- A catalog of which something is true has it still when it has answered a text. -/
def Server.TextKeeps (P : Catalog → Prop) (text : String) (parameters : Option (List Json)) : Prop :=
  ∀ c rows d, P c → regular c text parameters = .ok (rows, d) → P d

theorem Server.TextKeeps.answer {P : Catalog → Prop} {text : String} {parameters : Option (List Json)}
    (h : TextKeeps P text parameters) {s : Server} (hs : P s.catalog) :
    P (s.answer text parameters).2.catalog := by
  have hregular := h s.catalog
  rw [Server.answer]
  rcases hresult : regular s.catalog text parameters with e | ⟨rows, d⟩
  · split <;> exact hs
  · have hkept := hregular _ _ hs hresult
    split
    · exact hs
    · exact hs
    · exact hs
    · exact hkept
    · exact hkept

namespace Client
open Act

variable {P : Catalog → Prop}

theorem connection_keeps (access : Access) : Keeps P (connection access) := by
  intro w hw
  rw [(connection_dial access w).2.server, dial]
  split
  · exact hw
  · dsimp only
    split <;> exact hw

theorem serverVersion_keeps (access : Access) : Keeps P (serverVersion access) := by
  refine .get_bind fun w => ?_
  split
  · exact .of_server fun _ => rfl
  · have hlearn (n : Int) : Keeps P (do
        modify fun w => { w with client := { w.client with knownVersion := some n } }
        return n) := .of_server fun _ => rfl
    split
    · split
      · exact .bind (.of_server fun _ => rfl) hlearn
      · exact .bind (.of_server fun _ => rfl) hlearn
      · exact .bind (.of_server fun _ => rfl) hlearn
    · refine .bind (connection_keeps access) fun link => ?_
      exact .bind (.of_server fun _ => rfl) hlearn

theorem requireExtensions_keeps (access : Access) (resource : String) :
    Keeps P (requireExtensions access resource) := by
  refine .bind (serverVersion_keeps access) fun n => ?_
  split
  · exact .of_server fun _ => rfl
  · exact .of_server fun _ => rfl

theorem send_keeps (access : Access) (context : String) {text : String} {parameters : Option (List Json)}
    (h : Server.TextKeeps P text parameters) : Keeps P (send access context text parameters) := by
  intro w hw
  rw [(send_attempt access context text parameters w).2.server]
  have hdial : P (w.client.dial w.server).2.2.catalog := by
    rw [← (connection_dial access w).2.server]
    exact connection_keeps access w hw
  rcases hopen : w.client.dial w.server with ⟨_ | _, c, s⟩ <;> rw [hopen] at hdial
  · rw [attempt_closed hopen]
    exact hdial
  · rw [attempt_open hopen rfl]
    exact h.answer hdial

end Client

/-! ### What a statement touches -/

namespace Statement

/-- The extension that a statement is about. -/
def subject : Statement → String
  | .create name _ _ => name
  | .relocate name _ => name
  | .reversion name _ => name
  | .drop name => name

/-- The names of extensions and schemas in a statement. -/
def identifiers : Statement → List String
  | .create name schema _ => name :: schema.toList
  | .relocate name schema => [name, schema]
  | .reversion name _ => [name]
  | .drop name => [name]

theorem subject_written (s : Statement) : s.written.subject = Identifier.kept s.subject := by
  cases s <;> rfl

end Statement

namespace Catalog

theorem installation?_uninstall_of_ne (c : Catalog) {name other : String} (h : other ≠ name) :
    (c.uninstall name).installation? other = c.installation? other := by
  simp only [installation?, find?, uninstall, List.find?_filter]
  congr 2
  funext e
  by_cases he : e.1 = other
  · simp [he, h]
  · simp [he]

/-- A statement changes at most the entry of the extension that it is about. -/
theorem apply_sameBut {c d : Catalog} {s : Statement} (h : c.apply s = .ok d) :
    c.SameBut s.subject d := by
  cases s with
  | create name schema version =>
      rw [apply] at h
      split at h
      · exact Except.ok.inj h ▸ .refl name c
      · cases hversions : c.versions? name with
        | none => rw [hversions] at h; cases h
        | some versions =>
            rw [hversions] at h
            obtain ⟨found, -, h⟩ := except_bind_eq_ok_iff.mp h
            obtain ⟨chosen, -, h⟩ := except_bind_eq_ok_iff.mp h
            exact Except.ok.inj h ▸ .install name c _
  | relocate name schema =>
      obtain ⟨i, -, -, rfl⟩ := apply_relocate_eq_ok_iff.mp h
      exact .install name c _
  | reversion name version =>
      obtain ⟨i, versions, chosen, -, -, -, -, rfl⟩ := apply_reversion_eq_ok_iff.mp h
      exact .install name c _
  | drop name =>
      obtain ⟨i, -, h⟩ := except_bind_eq_ok_iff.mp h
      dsimp only at h
      split at h
      · exact Except.ok.inj h ▸ ⟨rfl, fun other hne => installation?_uninstall_of_ne c hne⟩
      · cases h

end Catalog

namespace Lifecycle
open Act Client

theorem Request.perform_keeps {P : Catalog → Prop} (access : Access) {q : Request}
    (h : Server.TextKeeps P q.text q.parameters) : Keeps P (q.perform access) := by
  rw [perform_eq]
  refine .bind ?_ fun _ => .bind (send_keeps access _ h) fun _ => .of_server fun _ => rfl
  cases q with
  | create d => exact .bind (requireExtensions_keeps access _) fun _ => .say _ _
  | relocate name schema => exact .bind (.checked _) fun _ => .say _ _
  | reversion name version => exact .say _ _
  | drop name => exact .say _ _
  | find name => exact .of_server fun _ => rfl
  | has name => exact .of_server fun _ => rfl

theorem performAll_keeps {P : Catalog → Prop} (access : Access) {qs : List Request}
    (h : ∀ q ∈ qs, Server.TextKeeps P q.text q.parameters) (reply : Reply) :
    Keeps P (performAll access qs reply) := by
  induction qs generalizing reply with
  | nil => exact .of_server fun _ => rfl
  | cons q qs ih =>
      refine .bind (q.perform_keeps access (h q List.mem_cons_self)) fun reply => ?_
      exact ih (fun q hq => h q (List.mem_cons_of_mem _ hq)) reply

namespace Call

theorem conclude_keeps {P : Catalog → Prop} (call : Call) (reply : Reply) :
    Keeps P (call.conclude reply) := by
  refine .of_server fun w => ?_
  obtain ⟨u, hconclude, htalk⟩ := call.conclude_apply reply w
  rw [hconclude]
  exact congrArg Server.catalog (htalk ⟨.default, none⟩).server

theorem settle_keeps {P : Catalog → Prop} (call : Call) : Keeps P call.settle := by
  refine .of_server fun w => ?_
  obtain ⟨u, hsettle, htalk⟩ := call.settle_apply w
  rw [hsettle]
  exact congrArg Server.catalog (htalk ⟨.default, none⟩).server

/-- What all texts of its course keep, a call keeps. -/
theorem run_keeps {P : Catalog → Prop} (access : Access) (call : Call)
    (h : call.Admissible → ∀ q ∈ call.course, Server.TextKeeps P q.text q.parameters) :
    Keeps P (call.run access) := by
  intro w hw
  have hprepared : P (call.prepare access w).2.server.catalog :=
    Keeps.bind (requireExtensions_keeps access _) (fun _ => .checked _) w hw
  rw [run_eq, staged]
  rcases hprepare : call.prepare access w with ⟨f | qs, u⟩ <;> rw [hprepare] at hprepared
  · rw [bind_error hprepare]
    exact hprepared
  · obtain ⟨-, hadmissible, rfl⟩ := prepare_ok hprepare
    rw [bind_ok hprepare]
    split
    · exact call.settle_keeps.bind (fun _ => .checked _) u hprepared
    · have hbody : Keeps P (call.body access call.course) :=
        (performAll_keeps access (h hadmissible) .nothing).bind call.conclude_keeps
      exact (hbody.locked _ _).bind (fun _ => .checked _) u hprepared

/-! ### The names in the statements of a call -/

/-- The statements of a call. -/
def changes (call : Call) : List Statement := call.course.filterMap Request.statement?

theorem subject_changes (call : Call) : ∀ s ∈ call.changes, s.subject = call.identity := by
  cases call with
  | update name previous desired =>
      rw [changes, course]
      split <;> simp [Request.statement?, Statement.subject, identity]
  | create desired => simp [changes, course, Request.statement?, Statement.subject, identity]
  | delete name => simp [changes, course, Request.statement?, Statement.subject, identity]
  | installed name => rw [changes, course]; split <;> simp [Request.statement?]
  | read name => rw [changes, course]; split <;> simp [Request.statement?]
  | adopt name => rw [changes, course]; split <;> simp [Request.statement?]

/-- A call changes at most the entry of one extension, if its statements are written with that name. -/
theorem run_sameBut {call : Call} {name : String}
    (h : call.Admissible → ∀ s ∈ call.changes, Identifier.kept s.subject = name) (access : Access)
    (w : World) : w.server.catalog.SameBut name (call.run access w).2.server.catalog := by
  refine call.run_keeps access (P := w.server.catalog.SameBut name) ?_ w (.refl _ _)
  intro hadmissible q hq c rows d hc hregular
  cases hs : q.statement? with
  | some s =>
      rw [Request.text_of_statement hs, Server.regular_written] at hregular
      have happly : c.apply s.written = .ok d := by
        rcases h : c.apply s.written with e | e <;> rw [h] at hregular <;> cases hregular
        rfl
      have hsame := Catalog.apply_sameBut happly
      rw [s.subject_written, h hadmissible s (List.mem_filterMap.mpr ⟨q, hq, hs⟩)] at hsame
      exact hc.trans hsame
  | none =>
      have hselect : "SELECT".toList.isPrefixOf q.text.toList = true := by
        cases q with
        | find name => exact Server.select_entry
        | has name => exact Server.select_presence
        | _ => cases hs
      exact Server.regular_select hselect hregular ▸ hc

/-- A call sends its statements, with no parameters, and queries. -/
theorem run_sends (access : Access) (call : Call) (w : World) :
    ∃ said, (call.run access w).2.statements = w.statements ++ said ∧
      (said ≠ [] → call.Admissible) ∧
      ∀ sent ∈ said, "SELECT".toList.isPrefixOf sent.1.toList = true ∨
        ∃ s ∈ call.changes, sent = (s.text, none) := by
  by_cases hstarts : call.Starts access w
  · refine ⟨_, statements_of_starts hstarts, fun _ => hstarts.admissible, fun sent hsent => ?_⟩
    obtain ⟨q, hq, rfl⟩ := List.mem_map.mp hsent
    cases hs : q.statement? with
    | some s =>
        refine .inr ⟨s, List.mem_filterMap.mpr ⟨q, List.mem_of_mem_take hq, hs⟩, ?_⟩
        cases q <;> cases hs <;> rfl
    | none =>
        cases q with
        | find name => exact .inl Server.select_entry
        | has name => exact .inl Server.select_presence
        | _ => cases hs
  · refine ⟨[], ?_, fun h => absurd rfl h, fun sent hsent => absurd hsent List.not_mem_nil⟩
    rw [statements_of_not_starts hstarts, List.append_nil]

/-- The names that a call does not check are in order all the same. -/
def Ordinary : Call → Prop
  | .create desired =>
    (∀ schema ∈ desired.schema, '\x00' ∉ schema.toList ∧ schema.utf8ByteSize ≤ nameLimit) ∧
      ∀ version ∈ desired.version, '\x00' ∉ version.toList
  | .update identity _ desired =>
    Rules.Acceptable identity ∧ ∀ version ∈ desired.version, '\x00' ∉ version.toList
  | _ => True

theorem mem_changes_update {name : String} {previous : Observed} {desired : Declared} {s : Statement}
    (h : s ∈ (Call.update name previous desired).changes) :
    (∃ schema, differing desired.schema previous.schema = some schema ∧ s = .relocate name schema) ∨
      ∃ version ∈ desired.version, s = .reversion name (some version) := by
  have hdeclared {version : String} (hv : differing desired.version previous.version = some version) :
      version ∈ desired.version := (Option.filter_eq_some_iff.mp hv).1
  rw [changes, course] at h
  split at h
  · simp at h
  · next schema hschema _ =>
      obtain rfl : s = .relocate name schema := by simpa [Request.statement?] using h
      exact .inl ⟨schema, hschema, rfl⟩
  · next version _ hversion =>
      obtain rfl : s = .reversion name (some version) := by simpa [Request.statement?] using h
      exact .inr ⟨version, hdeclared hversion, rfl⟩
  · next schema version hschema hversion =>
      have hs : s = .relocate name schema ∨ s = .reversion name (some version) := by
        simpa [Request.statement?] using h
      rcases hs with rfl | rfl
      · exact .inl ⟨schema, hschema, rfl⟩
      · exact .inr ⟨version, hdeclared hversion, rfl⟩

/-- All names of extensions and schemas that an ordinary call sends could be stored and are not cut, and
its versions could be stored. -/
theorem names_changes {call : Call} (hadmissible : call.Admissible) (h : call.Ordinary) :
    ∀ s ∈ call.changes, s.Storable ∧ ∀ name ∈ s.normal.identifiers, Rules.Acceptable name := by
  intro s hs
  cases call with
  | create desired =>
      obtain rfl : s = .create desired.name desired.schema desired.version := by
        simpa [changes, course, Request.statement?] using hs
      have hname : Rules.Acceptable desired.name := hadmissible
      obtain ⟨hschema, hversion⟩ := h
      constructor
      · intro name hm
        simp only [Statement.names, List.mem_cons, List.mem_append, Option.mem_toList] at hm
        rcases hm with rfl | hm | hm
        · exact hname.noNul
        · exact (hschema name hm).1
        · exact hversion name hm
      · intro name hm
        simp only [Statement.normal, Statement.identifiers, List.mem_cons, Option.mem_toList] at hm
        rcases hm with rfl | hm
        · exact hname
        · obtain ⟨hm, hne⟩ := Option.filter_eq_some_iff.mp hm
          exact ⟨by simpa using hne, (hschema name hm).1, (hschema name hm).2⟩
  | delete identity =>
      obtain rfl : s = .drop identity := by simpa [changes, course, Request.statement?] using hs
      have hname : Rules.Acceptable identity := hadmissible
      constructor
      · intro name hm
        obtain rfl : name = identity := by simpa [Statement.names] using hm
        exact hname.noNul
      · intro name hm
        obtain rfl : name = identity := by simpa [Statement.normal, Statement.identifiers] using hm
        exact hname
  | update identity previous desired =>
      obtain ⟨hname, hversion⟩ := h
      obtain ⟨-, hschema⟩ := hadmissible
      rcases mem_changes_update hs with ⟨schema, hdiffers, rfl⟩ | ⟨version, hm, rfl⟩
      · have hacceptable := hschema schema hdiffers
        constructor
        · intro name hm
          simp only [Statement.names, List.mem_cons, List.not_mem_nil, or_false] at hm
          rcases hm with rfl | rfl
          · exact hname.noNul
          · exact hacceptable.noNul
        · intro name hm
          simp only [Statement.normal, Statement.identifiers, List.mem_cons, List.not_mem_nil,
            or_false] at hm
          rcases hm with rfl | rfl
          · exact hname
          · exact hacceptable
      · constructor
        · intro name hn
          simp only [Statement.names, List.mem_cons, Option.toList_some, List.not_mem_nil, or_false] at hn
          rcases hn with rfl | rfl
          · exact hname.noNul
          · exact hversion _ hm
        · intro name hn
          obtain rfl : name = identity := by simpa [Statement.normal, Statement.identifiers] using hn
          exact hname
  | installed name => rw [changes, course] at hs; split at hs <;> simp [Request.statement?] at hs
  | read name => rw [changes, course] at hs; split at hs <;> simp [Request.statement?] at hs
  | adopt name => rw [changes, course] at hs; split at hs <;> simp [Request.statement?] at hs

/-- Whatever the names that are passed, a statement is read back as what can be stored of it, and no
extension changes but the one whose name is what can be stored of the name of the call. -/
theorem changes_are_written (access : Access) (call : Call) (w : World) :
    (∃ said, (call.run access w).2.statements = w.statements ++ said ∧
      ∀ sent ∈ said, "SELECT".toList.isPrefixOf sent.1.toList = true ∨
        ∃ s ∈ call.changes, sent = (s.text, none) ∧
          ∀ t, Statement.Sentence sent.1.toList t ↔ t = s.written) ∧
    w.server.catalog.SameBut (Identifier.kept call.identity) (call.run access w).2.server.catalog := by
  obtain ⟨said, hsaid, -, hsends⟩ := run_sends access call w
  refine ⟨⟨said, hsaid, fun sent hsent => ?_⟩, run_sameBut ?_ access w⟩
  · refine (hsends sent hsent).imp_right fun ⟨s, hs, heq⟩ => ⟨s, hs, heq, fun t => ?_⟩
    subst heq
    exact ⟨fun ht => ht.unique s.sentence_written, fun ht => ht ▸ s.sentence_written⟩
  · intro _ s hs
    rw [call.subject_changes s hs]

/-- Every statement that an ordinary call sends is read back as what was passed, its names of extensions
and schemas are such that the server does not cut them, and no extension changes but that of the call. -/
theorem changes_name_arguments {call : Call} (h : call.Ordinary) (access : Access) (w : World) :
    (∃ said, (call.run access w).2.statements = w.statements ++ said ∧
      ∀ sent ∈ said, "SELECT".toList.isPrefixOf sent.1.toList = true ∨
        ∃ s ∈ call.changes, sent = (s.text, none) ∧
          (∀ t, Statement.Sentence sent.1.toList t ↔ t = s.normal) ∧
          ∀ name ∈ s.normal.identifiers, Rules.Acceptable name) ∧
    w.server.catalog.SameBut call.identity (call.run access w).2.server.catalog := by
  obtain ⟨said, hsaid, hadmissible, hsends⟩ := run_sends access call w
  refine ⟨⟨said, hsaid, fun sent hsent => ?_⟩, run_sameBut ?_ access w⟩
  · refine (hsends sent hsent).imp_right fun ⟨s, hs, heq⟩ => ?_
    have hsome := hadmissible (List.ne_nil_of_mem hsent)
    obtain ⟨hstorable, hnames⟩ := names_changes hsome h s hs
    have hsentence := Statement.sentence_text hstorable
    subst heq
    exact ⟨s, hs, rfl, fun t => ⟨fun ht => ht.unique hsentence, fun ht => ht ▸ hsentence⟩, hnames⟩
  · intro hadmissible s hs
    have hsubject : s.subject ∈ s.names := by cases s <;> simp [Statement.subject, Statement.names]
    rw [Identifier.kept_eq_self ((names_changes hadmissible h s hs).1 _ hsubject),
      call.subject_changes s hs]

/-- An ordinary call that sends statements. -/
theorem changes_name_arguments_hstore :
    let call := Call.update "hstore" (Installation.observed "hstore" ⟨"public", "1.7"⟩)
      ⟨"hstore", some "app", some "1.8"⟩
    let w := World.ofServer ⟨Catalog.fresh.install "hstore" ⟨"public", "1.7"⟩, 160002, [], []⟩
    call.Ordinary ∧ w.server.catalog.SameBut "hstore" (call.run ⟨.default, none⟩ w).2.server.catalog ∧
      (call.run ⟨.default, none⟩ w).2.server.catalog.installation? "hstore" = some ⟨"app", "1.8"⟩ := by
  intro call w
  have hordinary : call.Ordinary := ⟨⟨by decide, by decide, by decide⟩, by decide⟩
  exact ⟨hordinary, (changes_name_arguments hordinary _ w).2, by decide +kernel⟩

/-- An update of one extension that changes another: the name is cut at its null character. -/
theorem update_changes_another :
    let call := Call.update "hstore\x00x" (Installation.observed "hstore\x00x" ⟨"public", "1.7"⟩)
      ⟨"hstore\x00x", none, some "1.8"⟩
    let w := World.ofServer ⟨Catalog.fresh.install "hstore" ⟨"public", "1.7"⟩, 160002, [], []⟩
    ((call.run ⟨.default, none⟩ w).2.statements.map Prod.fst).head? =
        some "ALTER EXTENSION \"hstore\" UPDATE TO \"1.8\"" ∧
      ¬w.server.catalog.SameBut call.identity (call.run ⟨.default, none⟩ w).2.server.catalog := by
  refine ⟨by decide +kernel, fun h => ?_⟩
  have hother := h.others "hstore" (by decide)
  exact absurd hother (by decide +kernel)

end Call

end Lifecycle

end CatalogSteward
