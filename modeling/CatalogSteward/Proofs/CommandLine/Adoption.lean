import CatalogSteward.Proofs.Audit.Refusals
import CatalogSteward.Proofs.CommandLine.Accounts
import CatalogSteward.Proofs.Lifecycle.Outcomes
import CatalogSteward.Proofs.Settings.Loading
import CatalogSteward.Proofs.Utf8
import CatalogSteward.Proofs.Yaml.Parsing

/-!
# Imported state loads back

An import prints the state of an extension as a document. Whatever the extension is called and whatever its
schema and its version look like, the document is read back as these three texts: the name of the extension
is short enough to be found again as a key, and texts that look like something else are written between
quotes.
-/

namespace CatalogSteward
open Act

/-! ### The document of an extension -/

/-- A text that is read as one extension under its name, and from the value there as a descriptor. -/
def LoadsAs (text name : String) (o : Observed) : Prop :=
  ∃ j, Yaml.read text.toList =
      .ok (.mapping [(.text "extension", .mapping [(.text name, Value.ofJson j)])]) ∧
    Observed.ofJson j = .ok o

/-- The state of an installed extension, under the names that lead to it. -/
def Installation.outline (i : Installation) (name : String) : Yaml.Outline :=
  .branch "extension"
    (.branch name
      (.leaf "name" (.text name) (.leaf "schema" (.text i.schema) (.leaf "version" (.text i.version) .nil))) .nil)
    .nil

theorem Installation.fits_outline (i : Installation) {name : String} (h : name.utf8ByteSize ≤ 63) :
    (i.outline name).Fits 0 := by
  have hkey : Yaml.IsKey name := Yaml.isKey_of_length <|
    (Text.length_le_utf8ByteSize name).trans (h.trans (by decide))
  have hfields : Yaml.IsKey "extension" ∧ Yaml.IsKey "name" ∧ Yaml.IsKey "schema" ∧ Yaml.IsKey "version" := by
    refine ⟨?_, ?_, ?_, ?_⟩ <;> exact Yaml.isKey_of_length (by decide)
  obtain ⟨hextension, hname, hschema, hversion⟩ := hfields
  exact ⟨⟨hextension, by decide⟩, ⟨rfl, ⟨hkey, by decide⟩, ⟨rfl, ⟨hname, by decide⟩, trivial,
    ⟨hschema, by decide⟩, trivial, ⟨hversion, by decide⟩, trivial, trivial⟩, trivial⟩, trivial⟩

theorem Installation.isKept_outline (i : Installation) (name : String) : (i.outline name).IsKept :=
  ⟨List.not_mem_nil, ⟨List.not_mem_nil, ⟨by simp [Yaml.Outline.entries], Yaml.Leaf.isRead_text _,
    by simp [Yaml.Outline.entries], Yaml.Leaf.isRead_text _, List.not_mem_nil, Yaml.Leaf.isRead_text _, trivial⟩,
    trivial⟩, trivial⟩

namespace CommandLine

/-- What is shown of an installed extension loads back as it was observed. -/
theorem stateText_loads (i : Installation) {name : String} (h : name.utf8ByteSize ≤ 63) :
    ∃ text, stateText (i.observed name) = .ok text ∧ LoadsAs text name (i.observed name) :=
  ⟨Yaml.write (i.outline name).tree, rfl, (i.observed name).toJson,
    Yaml.Outline.read_write (i.fits_outline h) rfl (i.isKept_outline name), rfl⟩

end CommandLine

/-! ### What is printed -/

def Happening.document? : Happening → Option String
  | .raw text => some text
  | _ => none

/-- The documents that have been printed so far. -/
def World.documents (w : World) : List String := w.trace.filterMap Happening.document?

/-- An operation that prints no document. -/
abbrev Act.Unprinted {α : Type} (a : Act α) : Prop := Emits (fun h => h.document? = none) a

theorem Act.Emits.documents {α : Type} {a : Act α} (h : Unprinted a) (w : World) :
    (a w).2.documents = w.documents := by
  obtain ⟨added, htrace, hnone⟩ := h w
  rw [World.documents, htrace, List.filterMap_append, List.filterMap_eq_nil_iff.mpr hnone, List.append_nil]
  rfl

/-- A call says lines, and what it exchanges with the server and the locks. -/
theorem Lifecycle.Call.run_unprinted (access : Access) (call : Call) : Unprinted (call.run access) := by
  have hline (toErrors : Bool) (markup : String) : (Happening.line toErrors markup).document? = none := rfl
  have hconnect (parameters : List (String × Json)) : (Happening.connect parameters).document? = none := rfl
  have hdelivered (answer : Answer) : Unprinted (checked (call.deliver answer)) := .checked _
  rw [run_eq, staged]
  refine .bind (.bind (Client.requireExtensions_emits hline hconnect access _) fun _ => .checked _) fun qs => ?_
  dsimp only
  split
  · exact .bind (call.settle_emits hline) hdelivered
  · exact .bind (.locked (call.body_emits hline hconnect (fun _ _ => rfl) access qs) _ _ rfl rfl) hdelivered

namespace CommandLine

variable {α : Type} {op : Act α}

theorem record_unprinted (a : Attempt) (failure : Option Error) : Unprinted (a.record failure) := by
  refine .get_bind fun w => .get_bind fun w => ?_
  split
  · exact .of_trace fun _ => rfl
  · refine .get_bind fun w => .bind (.of_trace fun _ => rfl) fun words => ?_
    cases words with
    | some words => exact .say (fun _ _ => rfl) _ _
    | none => exact .of_trace fun _ => rfl

theorem session_unprinted (h : Unprinted op) : Unprinted (session op) := by
  intro w
  obtain ⟨added, htrace, hnone⟩ := h { w with client := .start }
  rw [session_apply, closed]
  dsimp only
  split
  · refine ⟨added ++ [.disconnect], by rw [htrace, List.append_assoc], ?_⟩
    exact List.forall_mem_append.mpr ⟨hnone, List.forall_mem_singleton.mpr rfl⟩
  · exact ⟨added, htrace, hnone⟩

theorem reportError_unprinted (r : Report) : Unprinted (reportError r) :=
  reportError_of (P := Unprinted) (.of_trace fun _ => rfl) (.say fun _ _ => rfl) (fun _ => .happen rfl)
    (fun ha hb => ha.bind fun _ => hb) r

theorem reported_unprinted (h : Unprinted op) : Unprinted (reported op) := by
  refine .bind (a := Act.outcome op) h fun result => ?_
  split
  · exact .of_trace fun _ => rfl
  · exact .bind (reportError_unprinted _) fun _ => .of_trace fun _ => rfl
  · exact .of_trace fun _ => rfl

/-- An import prints what it has found as a document. -/
theorem adopt_prints (i : Invocation) (name : String) :
    ∃ present : Observed → Act Unit, adopt i name = reported (importing i name) >>= present ∧
      ∀ o text, stateText o = .ok text → present o = Act.happen (.raw text) := by
  refine ⟨_, rfl, fun o text h => ?_⟩
  rw [h]

theorem importing_unprinted (i : Invocation) (name : String) : Unprinted (importing i name) := by
  have haudited : Unprinted (audited i) := by
    refine .of_trace fun w => ?_
    cases haccess : i.access w with
    | error f => rw [audited_error haccess]
    | ok access => rw [audited_apply haccess, trailed]
  have hadopted (access : Access) : Unprinted (Lifecycle.adopt access name) := by
    intro w
    have hworld := Act.map_world (fun o => Lifecycle.Answer.observed (some o)) (Lifecycle.adopt access name) w
    exact hworld ▸ (Lifecycle.Call.adopt name).run_unprinted access w
  refine haudited.bind fun access => (session_unprinted (hadopted access)).bind fun observed => ?_
  exact (record_unprinted _ _).bind fun _ => .of_trace fun _ => rfl

end CommandLine

/-! ### What is imported -/

namespace Lifecycle
open Client

variable {access : Access} {name : String} {i : Installation}

/-- What is adopted is what the catalog says. -/
theorem adopt_eq {w u : World} {o : Observed} (hname : name ≠ "") (hw : w.server.Unscripted)
    (hi : w.server.catalog.installation? name = some i) (h : adopt access name w = (.ok o, u)) :
    o = i.observed name := by
  have hrun : (Call.adopt name).run access w = (.ok (.observed (some o)), u) := bind_ok h _
  obtain ⟨hcatalog, -⟩ := Call.run_ok hw hrun
  rw [Call.onCatalog_adopt hname hi] at hcatalog
  obtain ⟨hanswer, -⟩ := Prod.mk.inj hcatalog
  exact (Option.some.inj (Answer.observed.inj (Except.ok.inj hanswer))).symm

theorem adopt_returns {w : World} {n : Int} (hname : name ≠ "") (hw : w.server.Unscripted)
    (hi : w.server.catalog.installation? name = some i)
    (hversion : w.client.version access w.server.version = .ok n) (hn : Version.supportsExtensions n = true)
    (hlock : (w.locks.lock access.target).admits .shared = true) :
    ∃ u, adopt access name w = (.ok (i.observed name), u) ∧ u.trail = w.trail := by
  have hgate : w.client.verdict access Gateway.resourceName w.server.version = .ok () := by
    rw [verdict, hversion]
    exact if_pos hn
  obtain ⟨u, hrun, hran, -⟩ := (Call.adopt name).run_apply access hw fun _ _ _ => hlock
  rw [hgate, Call.onCatalog_adopt hname hi] at hrun hran
  have htrail : u.trail = w.trail := by
    have hworld := congrArg World.trail hran.talk.world
    exact hworld
  refine ⟨u, ?_, htrail⟩
  rcases hadopt : adopt access name w with ⟨f | o, v⟩
  · rw [Call.run, bind_error hadopt] at hrun
    cases hrun
  · obtain ⟨-, rfl⟩ := Prod.mk.inj ((bind_ok hadopt _).symm.trans hrun)
    rw [adopt_eq hname hw hi hadopt]

end Lifecycle

namespace CommandLine

variable {i : Invocation} {access : Access} {w u : World} {name : String} {installation : Installation}
  {o : Observed}

theorem importing_eq (hname : name ≠ "") (hserver : w.server.Unscripted)
    (hinstalled : w.server.catalog.installation? name = some installation)
    (h : importing i name w = (.ok o, u)) : o = installation.observed name := by
  cases haccess : i.access w with
  | error f =>
      rw [importing, bind_error (audited_error haccess)] at h
      cases h
  | ok access =>
      rw [importing, bind_ok (audited_apply haccess)] at h
      rcases hsession : session (Lifecycle.adopt access name) (trailed access w) with ⟨f | found, v⟩
      · rw [bind_error hsession] at h
        cases h
      · rw [bind_ok hsession] at h
        rw [session_trailed] at hsession
        obtain ⟨hadopt, -⟩ := Prod.mk.inj hsession
        rcases hrecord : Attempt.record ⟨.adopt, name, access.target, found.toJson⟩ none v with ⟨f | _, v'⟩
        · rw [bind_error hrecord] at h
          cases h
        · rw [bind_ok hrecord] at h
          obtain ⟨hfound, -⟩ := Prod.mk.inj h
          rw [← Except.ok.inj hfound]
          exact Lifecycle.adopt_eq (w := opening access w) hname hserver hinstalled (Prod.ext hadopt rfl)

/-- What an import needs besides the extension: a server that is new enough, the lock, and a trail whose path
can be passed on if it is kept. -/
structure Importable (access : Access) (w : World) : Prop where
  version : ∃ n, Client.start.version access w.server.version = .ok n ∧ Version.supportsExtensions n = true
  lock : (w.locks.lock access.target).admits .shared = true
  trail : access.settings.audit.IsOpenable

theorem importing_returns (hname : name ≠ "") (hserver : w.server.Unscripted)
    (hinstalled : w.server.catalog.installation? name = some installation) (haccess : i.access w = .ok access)
    (h : Importable access w) : ∃ u, importing i name w = (.ok (installation.observed name), u) := by
  obtain ⟨n, hversion, hn⟩ := h.version
  obtain ⟨s, hadopt, htrail⟩ := Lifecycle.adopt_returns (w := opening access w) hname hserver hinstalled hversion
    hn h.lock
  have hsound : (closed s).IsSound :=
    World.isSound_of_trail (Access.isAccepted_of_load haccess).audit h.trail htrail
  obtain ⟨d, added, hrecord, -⟩ := Act.record_ok hsound (Attempt.event
    ⟨.adopt, name, access.target, (installation.observed name).toJson⟩ (closed s).now none)
  rw [importing, bind_ok (audited_apply haccess), bind_ok ((session_trailed _ _ w).trans (by rw [hadopt])),
    bind_ok ((record_apply _ _ _).trans hrecord)]
  exact ⟨_, rfl⟩

/-- Whatever an import of an installed extension prints is read back as the extension, under its name, with the
descriptor that the catalog holds. It prints exactly one such document and succeeds, if the server is new enough
and neither the lock nor the path of the trail stands in the way. -/
theorem imported_state_loads_back {args : List String}
    (harguments : Command.ofArguments w.disk args = .ok (.task i (.adopt name)))
    (hne : name ≠ "") (hname : name.utf8ByteSize ≤ 63) (hserver : w.server.Unscripted)
    (hinstalled : w.server.catalog.installation? name = some installation) :
    ∃ printed, (run args w).2.documents = w.documents ++ printed ∧
      (∀ text ∈ printed, LoadsAs text name (installation.observed name)) ∧
      ∀ access, i.access w = .ok access → Importable access w →
        (run args w).1 = .ok () ∧ printed.length = 1 := by
  let v : World := { w with console := i.console }
  obtain ⟨present, hadopt, hpresent⟩ := adopt_prints i name
  have hrun : run args w = (reported (importing i name) >>= present) v := by
    rw [run_task harguments, perform, hadopt]
  have hdocuments : (reported (importing i name) v).2.documents = w.documents :=
    (reported_unprinted (importing_unprinted i name)).documents v
  rcases himporting : importing i name v with ⟨f | o, u⟩
  · obtain ⟨g, u', hreported⟩ := reported_failed himporting
    rw [hreported] at hdocuments
    rw [hrun, bind_error hreported]
    refine ⟨[], hdocuments.trans (List.append_nil _).symm, by simp, fun access haccess himportable => ?_⟩
    have himportable' : Importable access v := ⟨himportable.version, himportable.lock, himportable.trail⟩
    obtain ⟨u'', hreturns⟩ := importing_returns (w := v) hne hserver hinstalled haccess himportable'
    cases himporting.symm.trans hreturns
  · obtain rfl := importing_eq (w := v) hne hserver hinstalled himporting
    obtain ⟨text, htext, hloads⟩ := stateText_loads installation hname
    have hreported := reported_ok himporting
    rw [hreported] at hdocuments
    rw [hrun, bind_ok hreported, hpresent _ _ htext]
    refine ⟨[text], ?_, by simpa using hloads, fun _ _ _ => ⟨rfl, rfl⟩⟩
    change (u.trace ++ [Happening.raw text]).filterMap Happening.document? = _
    rw [List.filterMap_append]
    exact congrArg (· ++ [text]) hdocuments

/-- A server with an extension whose name, schema and version all look like something else. -/
def misleading : World :=
  .ofServer ⟨{ Catalog.fresh with installed := [("yes\n- no: \u00e9", ⟨"<<", "1.10"⟩)] }, 160002, [], []⟩

theorem imported_state_loads_back_misleading :
    ∃ text, (run ["extension", "import", "yes\n- no: \u00e9"] misleading).1 = .ok () ∧
      (run ["extension", "import", "yes\n- no: \u00e9"] misleading).2.documents = [text] ∧
      LoadsAs text "yes\n- no: \u00e9" ⟨.str "yes\n- no: \u00e9", .str "<<", .str "1.10"⟩ := by
  have harguments : Command.ofArguments misleading.disk ["extension", "import", "yes\n- no: \u00e9"] =
      .ok (.task (.ofOptions false 0 false false none) (.adopt "yes\n- no: \u00e9")) := rfl
  have hinstalled : misleading.server.catalog.installation? "yes\n- no: \u00e9" = some ⟨"<<", "1.10"⟩ := rfl
  obtain ⟨printed, hdocuments, hloads, hreturns⟩ := imported_state_loads_back
    harguments (by decide) (by decide) ⟨rfl, rfl⟩ hinstalled
  have haccess : Invocation.access (.ofOptions false 0 false false none) misleading = .ok ⟨.default, none⟩ := rfl
  obtain ⟨hresult, hlength⟩ := hreturns _ haccess ⟨⟨160002, rfl, by decide⟩, rfl, fun _ => by decide +kernel⟩
  obtain ⟨text, rfl⟩ := List.length_eq_one_iff.mp hlength
  exact ⟨text, hresult, hdocuments, hloads text (List.mem_singleton_self text)⟩

end CommandLine

end CatalogSteward
