import CatalogSteward.Proofs.Settings.Validation
import CatalogSteward.Proofs.Yaml.Leaves
import CatalogSteward.Proofs.Yaml.Sections
import CatalogSteward.Settings.File

/-!
# Settings are read back from their file

Accepted settings are written as a document of two sections. The document is read as the values that were
written, each text as a text, and validation gives back the same settings.
-/

namespace CatalogSteward
open Yaml

/-! ### The document -/

def versionFields : Option String → List Field
  | none => []
  | some version => [("expected_version", .text version)]

def Connection.fields (c : Connection) : List Field :=
  [("host", .text c.host), ("port", .int c.port), ("database", .text c.database), ("user", .text c.user),
    ("sslmode", .text c.sslMode), ("connect_timeout", .int c.connectTimeout),
    ("application_name", .text c.applicationName)] ++ versionFields c.expectedVersion

def AuditSettings.fields (a : AuditSettings) : List Field :=
  [("enabled", .bool a.enabled), ("log_path", .text a.logPath.text), ("max_size_mb", .int a.maxSizeMb),
    ("backup_count", .int a.backupCount)]

namespace Settings

def sections (s : Settings) : List Section := [("postgres", s.connection.fields), ("audit", s.audit.fields)]

/-- The value that the file of some settings stands for. -/
def document (s : Settings) : Value := .mapping (s.sections.map Section.value)

theorem sections_ne_nil (s : Settings) : s.sections ≠ [] := List.cons_ne_nil _ _

theorem toYaml_eq (s : Settings) : s.toYaml = Yaml.write (s.sections.map Section.tree) := by
  obtain ⟨⟨host, port, database, user, sslMode, timeout, name, version⟩, audit⟩ := s
  cases version <;> rfl

theorem distinct_sections (s : Settings) : Distinct s.sections where
  sections := by
    change ["postgres", "audit"].Nodup
    decide
  fields := by
    have hconnection : (s.connection.fields.map (·.1)).Nodup := by
      rw [Connection.fields]
      cases s.connection.expectedVersion with
      | none =>
          change
            ["host", "port", "database", "user", "sslmode", "connect_timeout", "application_name"].Nodup
          decide
      | some version =>
          change ["host", "port", "database", "user", "sslmode", "connect_timeout", "application_name",
            "expected_version"].Nodup
          decide
    have haudit : (s.audit.fields.map (·.1)).Nodup := by
      change ["enabled", "log_path", "max_size_mb", "backup_count"].Nodup
      decide
    exact List.forall_mem_cons.mpr ⟨hconnection, List.forall_mem_singleton.mpr haudit⟩

/-- What is read back of a field that is written: its name, as a text, and its value. -/
def IsKept (f : Field) : Prop :=
  (IsKey f.1 ∧ f.2.IsFlowing) ∧ f.2.IsRead

theorem isKept_text {name : String} (h : IsKey name) (s : String) :
    IsKept (name, .text s) := ⟨⟨h, trivial⟩, Leaf.isRead_text s⟩

theorem isKept_bool {name : String} (h : IsKey name) (b : Bool) :
    IsKept (name, .bool b) := ⟨⟨h, Leaf.isFlowing_bool b⟩, Leaf.isRead_bool b⟩

theorem isKept_int {name : String} (h : IsKey name) {n : Int} (hn : 0 ≤ n)
    (hwritable : Decimal.isWritable n = true) : IsKept (name, .int n) := by
  obtain ⟨m, rfl⟩ := Int.eq_ofNat_of_zero_le hn
  exact ⟨⟨h, Leaf.isFlowing_nat m⟩, Leaf.isRead_nat hwritable⟩

theorem isKept_connection {c : Connection} (h : c.IsAccepted)
    (hwritable : Decimal.isWritable c.connectTimeout = true) : ∀ f ∈ c.fields, IsKept f := by
  have hport : 0 ≤ c.port := by have := h.port.1; omega
  have hversion : ∀ f ∈ versionFields c.expectedVersion, IsKept f := by
    cases c.expectedVersion with
    | none => exact List.forall_mem_nil _
    | some version => exact List.forall_mem_singleton.mpr (isKept_text (by decide) version)
  refine List.forall_mem_append.mpr ⟨?_, hversion⟩
  simp only [List.forall_mem_cons]
  exact ⟨isKept_text (by decide) _, isKept_int (by decide) hport (isWritable_of_port h.port),
    isKept_text (by decide) _, isKept_text (by decide) _, isKept_text (by decide) _,
    isKept_int (by decide) h.connectTimeout hwritable, isKept_text (by decide) _, List.forall_mem_nil _⟩

theorem isKept_audit {a : AuditSettings} (h : a.IsAccepted) (hsize : Decimal.isWritable a.maxSizeMb = true)
    (hcount : Decimal.isWritable a.backupCount = true) : ∀ f ∈ a.fields, IsKept f := by
  have hsize' : 0 ≤ a.maxSizeMb := by have := h.maxSizeMb; omega
  have hcount' : 0 ≤ a.backupCount := by have := h.backupCount; omega
  rw [AuditSettings.fields]
  simp only [List.forall_mem_cons]
  exact ⟨isKept_bool (by decide) _, isKept_text (by decide) _, isKept_int (by decide) hsize' hsize,
    isKept_int (by decide) hcount' hcount, List.forall_mem_nil _⟩

theorem isKept_sections {s : Settings} (h : s.IsAccepted) (hs : s.isWritable = true) :
    ∀ t ∈ s.sections, ∀ f ∈ t.2, IsKept f := by
  simp only [isWritable, Bool.and_eq_true] at hs
  obtain ⟨⟨htimeout, hsize⟩, hcount⟩ := hs
  exact List.forall_mem_cons.mpr ⟨isKept_connection h.connection htimeout,
    List.forall_mem_singleton.mpr (isKept_audit h.audit hsize hcount)⟩

theorem isPlain_sections {s : Settings} (h : s.IsAccepted) (hs : s.isWritable = true) :
    ∀ t ∈ s.sections, t.IsPlain := by
  have hkept := isKept_sections h hs
  have hpostgres : IsKey "postgres" := by decide
  have hname : IsKey "audit" := by decide
  simp only [sections, List.forall_mem_cons] at hkept ⊢
  obtain ⟨hconnection, haudit, -⟩ := hkept
  refine ⟨⟨hpostgres, fun f hf => (hconnection f hf).1, ?_⟩, ⟨hname, fun f hf => (haudit f hf).1, ?_⟩,
    List.forall_mem_nil _⟩
  · exact List.cons_ne_nil _ _
  · exact List.cons_ne_nil _ _

/-- The file of accepted settings is read as their document. -/
theorem read_toYaml {s : Settings} (h : s.IsAccepted) (hs : s.isWritable = true) :
    Yaml.read s.toYaml.toList = .ok s.document := by
  rw [toYaml_eq]
  exact read_write s.sections_ne_nil (isPlain_sections h hs) (distinct_sections s)
    fun t ht f hf => (isKept_sections h hs t ht f hf).2

/-! ### Validation of the document -/

theorem get?_textEntry {α : Type} {name : α → String} (value : α → Value) {xs : List α}
    (h : (xs.map name).Nodup) {x : α} (hx : x ∈ xs) :
    Value.get? (xs.map (textEntry name value)) (name x) = some (value x) := by
  induction xs with
  | nil => cases hx
  | cons y ys ih =>
      rw [List.map_cons, List.nodup_cons] at h
      rw [Value.get?, List.map_cons, List.find?_cons, textEntry, sameKey_text]
      rcases List.mem_cons.mp hx with rfl | hys
      · rw [beq_self_eq_true]
        rfl
      · have hne : name y ≠ name x := fun heq => h.1 (heq ▸ List.mem_map_of_mem hys)
        rw [beq_false_of_ne hne]
        exact ih h.2 hys

theorem get?_textEntry_none {α : Type} {name : α → String} (value : α → Value) {xs : List α} {s : String}
    (h : s ∉ xs.map name) : Value.get? (xs.map (textEntry name value)) s = none := by
  induction xs with
  | nil => rfl
  | cons y ys ih =>
      rw [List.map_cons, List.mem_cons, not_or] at h
      rw [Value.get?, List.map_cons, List.find?_cons, textEntry, sameKey_text, beq_false_of_ne (Ne.symm h.1)]
      exact ih h.2

section
variable {α : Type} {fs : List Field} {name : String} {default a : α} {convert : Value → Except Defect α}

theorem isGiven_field (hfs : (fs.map (·.1)).Nodup) {l : Leaf} (hmem : (name, l) ∈ fs)
    (hconvert : convert l.value = .ok a) : IsGiven (Section.values fs) name default convert a := by
  have hget : Value.get? (Section.values fs) name = some l.value :=
    get?_textEntry (fun f : Field => f.2.value) hfs hmem
  rw [IsGiven, hget]
  exact hconvert

theorem isGiven_absent (h : name ∉ fs.map (·.1)) : IsGiven (Section.values fs) name default convert default := by
  have hget : Value.get? (Section.values fs) name = none :=
    get?_textEntry_none (fun f : Field => f.2.value) h
  rw [IsGiven, hget]

end

/-- The version is the one field that may be absent. -/
theorem isGiven_version {c : Connection} (h : c.IsAccepted) (hfs : (c.fields.map (·.1)).Nodup) :
    IsGiven (Section.values c.fields) "expected_version" none
      (fun v => (readOptionalText v).map (Option.map Text.strip)) c.expectedVersion := by
  have haccepted := h.expectedVersion
  cases hversion : c.expectedVersion with
  | none =>
      refine isGiven_absent ?_
      rw [Connection.fields, hversion]
      change "expected_version" ∉
        ["host", "port", "database", "user", "sslmode", "connect_timeout", "application_name"]
      decide
  | some version =>
      refine isGiven_field hfs (l := .text version) ?_ ?_
      · rw [Connection.fields, hversion]
        exact List.mem_append_right _ List.mem_cons_self
      · exact congrArg (fun s => Except.ok (some s)) (haccepted version hversion).1.symm

theorem isReadFrom_fields {c : Connection} (h : c.IsAccepted) (hfs : (c.fields.map (·.1)).Nodup) :
    c.IsReadFrom (Section.values c.fields) where
  host := isGiven_field hfs (l := .text c.host) (by simp [Connection.fields]) rfl
  port := isGiven_field hfs (l := .int c.port) (by simp [Connection.fields]) rfl
  database := isGiven_field hfs (l := .text c.database) (by simp [Connection.fields]) rfl
  user := isGiven_field hfs (l := .text c.user) (by simp [Connection.fields]) rfl
  sslMode := isGiven_field hfs (l := .text c.sslMode) (by simp [Connection.fields]) rfl
  connectTimeout := isGiven_field hfs (l := .int c.connectTimeout) (by simp [Connection.fields]) rfl
  applicationName := isGiven_field hfs (l := .text c.applicationName) (by simp [Connection.fields]) rfl
  expectedVersion := isGiven_version h hfs

theorem isReadFrom_auditFields {a : AuditSettings} (h : a.IsAccepted) (hfs : (a.fields.map (·.1)).Nodup) :
    a.IsReadFrom (Section.values a.fields) where
  enabled := isGiven_field hfs (l := .bool a.enabled) (by simp [AuditSettings.fields]) rfl
  logPath := by
    refine isGiven_field hfs (l := .text a.logPath.text) (by simp [AuditSettings.fields]) ?_
    exact congrArg Except.ok (Path.ofText_text h.logPath)
  maxSizeMb := isGiven_field hfs (l := .int a.maxSizeMb) (by simp [AuditSettings.fields]) rfl
  backupCount := isGiven_field hfs (l := .int a.backupCount) (by simp [AuditSettings.fields]) rfl

/-- The document of accepted settings is accepted, as the settings. -/
theorem ofValue_document {s : Settings} (h : s.IsAccepted) : ofValue s.document = .ok s := by
  obtain ⟨hconnection, haudit⟩ := List.forall_mem_cons.mp (distinct_sections s).fields
  have haudit := List.forall_mem_singleton.mp haudit
  exact (decides_readSettings _).conclude.mpr ⟨h, ⟨_, rfl, isReadFrom_fields h.connection hconnection⟩,
    _, rfl, isReadFrom_auditFields h.audit haudit⟩

/-- Settings that were validated survive being written and read: their file is read as a document that
holds every text as a text and leaves out what is absent, and validating the document, or loading the file,
gives back the same settings. -/
theorem survives_toYaml {v : Value} {s : Settings} (h : ofValue v = .ok s) (hs : s.isWritable = true) :
    Yaml.read s.toYaml.toList = .ok s.document ∧ ofValue s.document = .ok s ∧
      ∀ path, ofText path s.toYaml = .ok s := by
  have haccepted := isAccepted_of_ofValue h
  have hread := read_toYaml haccepted hs
  have hgives := ofValue_document haccepted
  refine ⟨hread, hgives, fun path => ?_⟩
  rw [ofText, hread]
  exact congrArg (Except.mapError _) hgives

/-- A document whose texts look like a truth value, a number, a date and a merge key. -/
def misleadingDocument : Value :=
  .mapping [(.text "postgres", .mapping
    [(.text "host", .text "yes"), (.text "database", .text "1_000"), (.text "user", .text "2024-01-01"),
      (.text "application_name", .text "<<: null # é\n "), (.text "expected_version", .text " 16.2 ")])]

def misleading : Settings where
  connection :=
    { Connection.default with
      host := "yes"
      database := "1_000"
      user := "2024-01-01"
      applicationName := "<<: null # é\n "
      expectedVersion := some "16.2" }
  audit := .default

theorem survives_toYaml_misleading :
    ofValue misleadingDocument = .ok misleading ∧ misleading.isWritable = true ∧
      Yaml.read misleading.toYaml.toList = .ok misleading.document ∧
      ofValue misleading.document = .ok misleading ∧
      ∀ path, ofText path misleading.toYaml = .ok misleading := by
  have h : ofValue misleadingDocument = .ok misleading := rfl
  have hs : misleading.isWritable = true := by
    simp only [isWritable, Bool.and_eq_true]
    exact ⟨⟨isWritable_of_port (by decide), isWritable_of_port (by decide)⟩, isWritable_of_port (by decide)⟩
  exact ⟨h, hs, survives_toYaml h hs⟩

end Settings

end CatalogSteward
