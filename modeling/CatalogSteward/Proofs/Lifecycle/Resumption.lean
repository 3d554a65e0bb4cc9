import CatalogSteward.Proofs.Lifecycle.Outcomes

/-!
# Updates that fail half-way

An update that fails has changed nothing, or it has moved its extension and could not change the version. The
second is the case exactly if the server has answered the one statement and not the other. What is left to be
done can then be done from the entry as it is read back: only the version is changed, and the server is left
as by an update that succeeds at once.

An extension without a name is never found by reading, although it can be moved.
-/

namespace CatalogSteward.Lifecycle
open Client

variable {access : Access} {name schema wanted : String} {i : Installation}

/-! ### Courses -/

theorem differing_same (known : String) : differing (some known) (.str known) = none := by
  rw [differing_str, Option.filter_some, if_neg (by simp)]

theorem differing_other {known : String} (h : wanted ≠ known) :
    differing (some wanted) (.str known) = some wanted := by
  rw [differing_str, Option.filter_some, if_pos (decide_eq_true h)]

namespace Call

/-- Where the schema is the wanted one already, only the version is changed. -/
theorem plan_reversion (name : String) (h : wanted ≠ i.version) :
    (Call.update name (i.observed name) ⟨name, some i.schema, some wanted⟩).plan =
      .ok [.reversion name (some wanted), .find name] := by
  have hschema := differing_same i.schema
  have hversion := differing_other h
  have hadmissible : (Call.update name (i.observed name) ⟨name, some i.schema, some wanted⟩).Admissible :=
    ⟨rfl, fun s hs => by cases hschema.symm.trans hs⟩
  rw [plan_of_admissible hadmissible, course]
  simp only [Installation.observed, hschema, hversion]

theorem plan_both (name : String) (hacceptable : Rules.Acceptable schema) (hschema : schema ≠ i.schema)
    (hversion : wanted ≠ i.version) :
    (Call.update name (i.observed name) ⟨name, some schema, some wanted⟩).plan =
      .ok [.relocate name schema, .reversion name (some wanted), .find name] := by
  have hmoved := differing_other hschema
  have hchanged := differing_other hversion
  have hadmissible : (Call.update name (i.observed name) ⟨name, some schema, some wanted⟩).Admissible :=
    ⟨rfl, fun s hs => Option.some.inj (hmoved.symm.trans hs) ▸ hacceptable⟩
  rw [plan_of_admissible hadmissible, course]
  simp only [Installation.observed, hmoved, hchanged]

end Call

/-- The version of an installed extension is changed to one that is available, and the entry is read back. -/
theorem allOnCatalog_reversion_readBack {c : Catalog} {versions : List String} (reply : Reply)
    (hname : '\x00' ∉ name.toList) (hstorable : '\x00' ∉ wanted.toList) (hi : c.installation? name = some i)
    (hversions : c.versions? name = some versions) (hwanted : wanted ∈ versions) (hne : wanted ≠ "") :
    allOnCatalog [.reversion name (some wanted), .find name] reply c =
      (.ok ⟨some (Installation.observed name { i with version := wanted }), false⟩,
        c.install name { i with version := wanted }) := by
  have hs : (Statement.reversion name (some wanted)).Storable := by
    simp [Statement.Storable, Statement.names, hname, hstorable]
  have hfilter : (some wanted).filter (· ≠ "") = some wanted := by
    rw [Option.filter_some, if_pos (decide_eq_true hne)]
  have happly : c.apply (Statement.reversion name (some wanted)).normal =
      .ok (c.install name { i with version := wanted }) := by
    refine Catalog.apply_reversion_eq_ok_iff.mpr ⟨i, versions, wanted, hi, hversions, ?_, hwanted, rfl⟩
    rw [hfilter, hfilter, Option.some_or]
  have hreversion : (Request.reversion name (some wanted)).onCatalog c =
      (.ok .nothing, c.install name { i with version := wanted }) :=
    Request.onCatalog_applied rfl rfl hs happly
  rw [allOnCatalog, hreversion]
  dsimp only
  rw [allOnCatalog, Request.onCatalog_find, Catalog.installation?_install_self]
  rfl

/-! ### Statements -/

variable {w u : World} {desired : Declared}

theorem Ready.starts {call : Call} (hw : Ready access w) (h : call.Admissible) : call.Starts access w := by
  obtain ⟨v, hrequire, hv, -⟩ := requireExtensions_apply access Gateway.resourceName hw.server.connectReplies
  refine ⟨?_, h, ?_⟩
  · rw [hrequire, hw.gate]
  · rw [hrequire, hv.locks]
    exact hw.lock.admits call.mode

/-- What a call sends is decided by the catalog. -/
theorem Call.statements_of_ready (call : Call) (hw : Ready access w) :
    (call.run access w).2.statements =
      w.statements ++ (call.sent w.server.catalog).map Request.sending := by
  rw [sent]
  cases hplan : call.plan with
  | error e =>
      have hstarts : ¬call.Starts access w := fun h => by
        cases hplan.symm.trans (plan_of_admissible h.admissible)
      rw [statements_of_not_starts hstarts]
      exact (List.append_nil _).symm
  | ok qs =>
      obtain ⟨hadmissible, rfl⟩ := plan_eq_ok_iff.mp hplan
      obtain ⟨v, hrequire, hv, -⟩ := requireExtensions_apply access Gateway.resourceName hw.server.connectReplies
      rw [statements_of_starts (hw.starts hadmissible), outcomes, hrequire]
      dsimp only
      rw [take_reached _ _ (hv.unscripted hw.server) (check_course hadmissible) call.changes_course, hv.server]

/-! ### Failed updates -/

/-- Two statements were sent: the server has moved the extension, and has not changed its version. -/
structure Halfway (name schema version : String) (w u : World) : Prop where
  sent : u.statements = w.statements ++
    [((Statement.relocate name schema).text, none), ((Statement.reversion name (some version)).text, none)]
  moved : (w.server.answer (Statement.relocate name schema).text none).1.isOk = true
  stuck : ((w.server.answer (Statement.relocate name schema).text none).2.answer
    (Statement.reversion name (some version)).text none).1.isOk = false

/-- From the world in which an update has ended, the extension is read as it is now, and any other version is
reached by an update from there. It sends the change of the version and reads back, and the server ends up as
by one update from the start. An extension without a name is not found by reading. -/
def Resumable (access : Access) (name : String) (i : Installation) (schema : String) (w u : World) : Prop :=
  ∃ v, read access name u =
      (.ok (if name = "" then none else some (Installation.observed name ⟨schema, i.version⟩)), v) ∧
    v.server = u.server ∧
    ∀ versions wanted, w.server.catalog.versions? name = some versions → wanted ∈ versions → wanted ≠ "" →
      '\x00' ∉ wanted.toList → wanted ≠ i.version →
      ∃ v' w', update access name (Installation.observed name ⟨schema, i.version⟩)
            ⟨name, some schema, some wanted⟩ v =
          (.ok (.readBack (some (Installation.observed name ⟨schema, wanted⟩))), v') ∧
        v'.statements = v.statements ++
          [((Statement.reversion name (some wanted)).text, none),
            ((Query.entry name).text, some [.str name])] ∧
        update access name (i.observed name) ⟨name, some schema, some wanted⟩ w =
          (.ok (.readBack (some (Installation.observed name ⟨schema, wanted⟩))), w') ∧
        v'.server = w'.server

namespace MovedOnly

variable {version : String} {c d : Catalog}

theorem acceptable (h : MovedOnly c name i desired schema version d) : Rules.Acceptable schema := by
  obtain ⟨-, hacceptable⟩ := Call.admissible_of_plan h.plan
  refine hacceptable schema ?_
  rw [h.declared.1]
  exact differing_other h.differs

theorem halfway (h : MovedOnly w.server.catalog name i desired schema version d)
    (hw : Ready access w) (hu : u = ((Call.update name (i.observed name) desired).run access w).2) :
    Halfway name schema version w u := by
  obtain ⟨reply, hrelocated⟩ := h.relocated
  obtain ⟨f, hunchanged⟩ := h.unchanged
  have hcheck : (Request.relocate name schema).check = .ok () :=
    (Request.exchange_of_onCatalog hrelocated).1
  have hmoved : (w.server.answer (Statement.relocate name schema).text none).1.isOk = true ∧
      (w.server.answer (Statement.relocate name schema).text none).2 = { w.server with catalog := d } := by
    have hanswer := Request.answer_change hw.server.replies hcheck rfl
    rw [hrelocated] at hanswer
    exact hanswer
  refine ⟨?_, hmoved.1, ?_⟩
  · rw [hu, Call.statements_of_ready _ hw, Call.sent, h.plan]
    dsimp only
    rw [allSent, hrelocated]
    dsimp only
    rw [allSent, hunchanged]
    rfl
  · have hreplies : ({ w.server with catalog := d } : Server).replies = [] := hw.server.replies
    have hanswer := Request.answer_change (q := .reversion name (some version)) hreplies rfl rfl
    rw [hunchanged] at hanswer
    rw [hmoved.2]
    exact hanswer.1

/-- From the catalog that a failed update has left, and from that before it, an update to another version leads
to the same catalog. -/
theorem resumed (h : MovedOnly c name i desired schema version d) (hname : '\x00' ∉ name.toList)
    {versions : List String} (hversions : c.versions? name = some versions) (hwanted : wanted ∈ versions)
    (hne : wanted ≠ "") (hstorable : '\x00' ∉ wanted.toList) (hother : wanted ≠ i.version) :
    let answer := Answer.updated (.readBack (some (Installation.observed name ⟨schema, wanted⟩)))
    let e := d.install name ⟨schema, wanted⟩
    (Call.update name (Installation.observed name ⟨schema, i.version⟩) ⟨name, some schema, some wanted⟩).onCatalog
        (.ok ()) d = (.ok answer, e) ∧
      (Call.update name (i.observed name) ⟨name, some schema, some wanted⟩).onCatalog (.ok ()) c =
        (.ok answer, e) := by
  intro answer e
  obtain ⟨reply, hrelocated⟩ := h.relocated
  have hmoved : d.installation? name = some ⟨schema, i.version⟩ := by
    rw [h.catalog]
    exact Catalog.installation?_install_self ..
  have havailable : d.versions? name = some versions := by
    rw [h.catalog]
    exact hversions
  have hrest (reply : Reply) :=
    allOnCatalog_reversion_readBack reply hname hstorable hmoved havailable hwanted hne
  constructor
  · have hplan := Call.plan_reversion name (i := ⟨schema, i.version⟩) hother
    rw [Call.onCatalog_of_requests hplan (List.cons_ne_nil _ _), hrest]
    rfl
  · have hplan := Call.plan_both name h.acceptable h.differs hother
    rw [Call.onCatalog_of_requests hplan (List.cons_ne_nil _ _), allOnCatalog, hrelocated]
    dsimp only
    rw [hrest]
    rfl

theorem resumable (h : MovedOnly w.server.catalog name i desired schema version d) (hw : Ready access w)
    (hname : '\x00' ∉ name.toList) (hu : Answered access w d u) : Resumable access name i schema w u := by
  have hcatalog : u.server.catalog = d := by rw [hu.server]
  have hmoved : u.server.catalog.installation? name = some ⟨schema, i.version⟩ := by
    rw [hcatalog, h.catalog]
    exact Catalog.installation?_install_self ..
  have hread : ∃ v, read access name u =
      (.ok (if name = "" then none else some (Installation.observed name ⟨schema, i.version⟩)), v) ∧
        Answered access u u.server.catalog v := by
    by_cases hempty : name = ""
    · rw [if_pos hempty, hempty]
      exact read_nameless hu.ready
    · rw [if_neg hempty]
      obtain ⟨v, hread, hv⟩ := read_answered hu.ready hempty
      rw [hmoved] at hread
      exact ⟨v, hread, hv⟩
  obtain ⟨v, hread, hv⟩ := hread
  refine ⟨v, hread, hv.server, fun versions wanted hversions hwanted hne hstorable hother => ?_⟩
  obtain ⟨hagain, hwhole⟩ := h.resumed hname hversions hwanted hne hstorable hother
  have hv' : v.server.catalog = d := by rw [hv.server, hcatalog]
  obtain ⟨v', hupdate, hresumed⟩ := update_answered (r := .ok _) hv.ready (hv'.symm ▸ hagain)
  obtain ⟨w', hupdate', honce⟩ := update_answered (r := .ok _) hw hwhole
  refine ⟨v', w', hupdate, ?_, hupdate', ?_⟩
  · have hrun : (Call.update name (Installation.observed name ⟨schema, i.version⟩)
        ⟨name, some schema, some wanted⟩).run access v = (.ok (.updated _), v') := Act.bind_ok hupdate _
    obtain ⟨hstatements, -⟩ := Call.run_ok_statements hrun
    have hplan := Call.plan_reversion name (i := ⟨schema, i.version⟩) hother
    obtain ⟨-, hcourse⟩ := Call.plan_eq_ok_iff.mp hplan
    rw [hstatements, ← hcourse]
    rfl
  · rw [hresumed.server, hv.server, hu.server, honce.server]

end MovedOnly

/-- How an update fails is seen from the statements that it has sent and from the server's answers to them. -/
theorem update_failed {f : Failure} (hw : Ready access w) (hname : '\x00' ∉ name.toList)
    (hi : w.server.catalog.installation? name = some i)
    (h : update access name (i.observed name) desired w = (.error f, u)) :
    (u.server = w.server ∧ ∀ schema version, ¬Halfway name schema version w u) ∨
      ∃ schema version d, MovedOnly w.server.catalog name i desired schema version d ∧
        Halfway name schema version w u ∧ Answered access w d u := by
  obtain ⟨d, hcall, hanswered⟩ := answered (.update name (i.observed name) desired) (g := Answer.updated)
    (a := update access name (i.observed name) desired) rfl hw
  have hrun : u = ((Call.update name (i.observed name) desired).run access w).2 := by
    have hworld := Act.map_world Answer.updated (update access name (i.observed name) desired) w
    rw [h] at hworld
    exact hworld.symm
  rw [h] at hcall hanswered
  obtain ⟨rfl, hsent⟩ | ⟨schema, version, hmoved⟩ := update_onCatalog_error hname hi hcall
  · refine .inl ⟨hanswered.server, fun schema version hhalfway => ?_⟩
    -- two statements are more than were sent
    have hstatements := Call.statements_of_ready (.update name (i.observed name) desired) hw
    rw [← hrun, hhalfway.sent, List.append_cancel_left_eq] at hstatements
    have hlength := congrArg List.length hstatements
    rw [List.length_map] at hlength
    simp only [List.length_cons, List.length_nil] at hlength
    omega
  · exact .inr ⟨schema, version, d, hmoved, hmoved.halfway hw hrun, hanswered⟩

/-- A failed update has changed nothing, or it has moved the extension and no more. The second is so exactly if
the server moved the extension and did not change its version, and then the update can be resumed. -/
theorem failed_updates_are_resumable {f : Failure} (hw : Ready access w) (hname : '\x00' ∉ name.toList)
    (hi : w.server.catalog.installation? name = some i)
    (h : update access name (i.observed name) desired w = (.error f, u)) :
    (u.server = w.server ∧ ∀ schema version, ¬Halfway name schema version w u) ∨
      ∃ schema version, desired.schema = some schema ∧ desired.version = some version ∧ schema ≠ i.schema ∧
        Halfway name schema version w u ∧
        u.server = { w.server with catalog := w.server.catalog.install name ⟨schema, i.version⟩ } ∧
        Resumable access name i schema w u := by
  obtain hnothing | ⟨schema, version, d, hmoved, hhalfway, hanswered⟩ := update_failed hw hname hi h
  · exact .inl hnothing
  · refine .inr ⟨schema, version, hmoved.declared.1, hmoved.declared.2, hmoved.differs, hhalfway, ?_,
      hmoved.resumable hw hname hanswered⟩
    rw [hanswered.server, hmoved.catalog]

/-- A new server with an extension that is not of the default version. -/
def outdated : World := .ofServer ⟨Catalog.fresh.install "hstore" ⟨"public", "1.7"⟩, 90100, [], []⟩

/-- An update to a version that there is not moves the extension, and is resumed with one that there is. -/
theorem failed_updates_are_resumable_hstore :
    ∃ f u v v', update ⟨.default, none⟩ "hstore" (Installation.observed "hstore" ⟨"public", "1.7"⟩)
          ⟨"hstore", some "app", some "9.9"⟩ outdated = (.error f, u) ∧
      Halfway "hstore" "app" "9.9" outdated u ∧
      read ⟨.default, none⟩ "hstore" u = (.ok (some ⟨.str "hstore", .str "app", .str "1.7"⟩), v) ∧
      update ⟨.default, none⟩ "hstore" ⟨.str "hstore", .str "app", .str "1.7"⟩
          ⟨"hstore", some "app", some "1.8"⟩ v =
        (.ok (.readBack (some ⟨.str "hstore", .str "app", .str "1.8"⟩)), v') := by
  have hready : Ready ⟨.default, none⟩ outdated :=
    ⟨⟨rfl, rfl⟩, gate_of_recent rfl rfl (Int.le_refl _), ⟨rfl, rfl, rfl⟩⟩
  have hfails : (update ⟨.default, none⟩ "hstore" (Installation.observed "hstore" ⟨"public", "1.7"⟩)
      ⟨"hstore", some "app", some "9.9"⟩ outdated).1.isOk = false := by
    decide +kernel
  have hmoves : (update ⟨.default, none⟩ "hstore" (Installation.observed "hstore" ⟨"public", "1.7"⟩)
      ⟨"hstore", some "app", some "9.9"⟩ outdated).2.server.catalog ≠ outdated.server.catalog := by
    decide +kernel
  rcases hupdate : update ⟨.default, none⟩ "hstore" (Installation.observed "hstore" ⟨"public", "1.7"⟩)
      ⟨"hstore", some "app", some "9.9"⟩ outdated with ⟨f | outcome, u⟩
  · rw [hupdate] at hmoves
    obtain ⟨hserver, -⟩ | ⟨schema, version, hschema, hversion, -, hhalfway, -, v, hread, -, hresumed⟩ :=
      failed_updates_are_resumable (i := ⟨"public", "1.7"⟩) hready (by decide) (by decide) hupdate
    · exact absurd (congrArg Server.catalog hserver) hmoves
    · obtain rfl := Option.some.inj hschema
      obtain rfl := Option.some.inj hversion
      obtain ⟨v', w', hagain, -⟩ :=
        hresumed ["1.8", "1.7"] "1.8" (by decide) (by decide) (by decide) (by decide) (by decide)
      exact ⟨f, u, v, v', rfl, hhalfway, hread, hagain⟩
  · rw [hupdate] at hfails
    cases hfails

/-- A server with an extension that has no name. -/
def nameless : World :=
  .ofServer ⟨{ Catalog.fresh with available := [("", ["1.8", "1.7"])], installed := [("", ⟨"public", "1.7"⟩)] },
    90100, [], []⟩

/-- An extension without a name is moved by a failed update, and is then not found by reading. -/
theorem nameless_extension_is_moved_and_not_read :
    ∃ f u v, update ⟨.default, none⟩ "" (Installation.observed "" ⟨"public", "1.7"⟩)
          ⟨"", some "app", some "9.9"⟩ nameless = (.error f, u) ∧
      Halfway "" "app" "9.9" nameless u ∧ u.server.catalog.installation? "" = some ⟨"app", "1.7"⟩ ∧
      read ⟨.default, none⟩ "" u = (.ok none, v) := by
  have hready : Ready ⟨.default, none⟩ nameless :=
    ⟨⟨rfl, rfl⟩, gate_of_recent rfl rfl (Int.le_refl _), ⟨rfl, rfl, rfl⟩⟩
  have hfails : (update ⟨.default, none⟩ "" (Installation.observed "" ⟨"public", "1.7"⟩)
      ⟨"", some "app", some "9.9"⟩ nameless).1.isOk = false := by
    decide +kernel
  have hmoves : (update ⟨.default, none⟩ "" (Installation.observed "" ⟨"public", "1.7"⟩)
      ⟨"", some "app", some "9.9"⟩ nameless).2.server.catalog.installation? "" = some ⟨"app", "1.7"⟩ := by
    decide +kernel
  rcases hupdate : update ⟨.default, none⟩ "" (Installation.observed "" ⟨"public", "1.7"⟩)
      ⟨"", some "app", some "9.9"⟩ nameless with ⟨f | outcome, u⟩
  · rw [hupdate] at hmoves
    obtain ⟨hserver, -⟩ | ⟨schema, version, d, hmoved, hhalfway, hanswered⟩ :=
      update_failed (i := ⟨"public", "1.7"⟩) hready (by decide) (by decide) hupdate
    · rw [hserver] at hmoves
      exact absurd hmoves (by decide)
    · obtain rfl := Option.some.inj hmoved.declared.1
      obtain rfl := Option.some.inj hmoved.declared.2
      obtain ⟨v, hread, -⟩ := read_nameless hanswered.ready
      exact ⟨f, u, v, rfl, hhalfway, hmoves, hread⟩
  · rw [hupdate] at hfails
    cases hfails

end CatalogSteward.Lifecycle
