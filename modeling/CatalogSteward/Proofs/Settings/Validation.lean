import CatalogSteward.Proofs.Path
import CatalogSteward.Proofs.Rules
import CatalogSteward.Proofs.Version
import CatalogSteward.Settings.Reader

/-!
# What validation accepts

Problems are only ever added while settings are read, so a mapping is accepted exactly if every value that
it gives is converted and passes the rule of its field. The rules change nothing, apart from the blanks
around an expected version, and what is not given has its default.
-/

namespace CatalogSteward.Settings

variable {α β : Type} {P Q : α → Prop}

/-! ### Checks without problems -/

/-- A check that ends without problems exactly if it started without them, with the results that are
told. -/
def Decides (P : α → Prop) (c : Check α) : Prop :=
  ∀ ps a, c.run ps = .ok (a, []) ↔ ps = [] ∧ P a

namespace Decides

theorem congr {c : Check α} (hc : Decides P c) (h : ∀ a, P a ↔ Q a) : Decides Q c :=
  fun ps a => (hc ps a).trans (and_congr_right' (h a))

theorem pure (a : α) : Decides (· = a) (pure a) := by
  intro ps b
  constructor
  · intro h
    obtain ⟨rfl, rfl⟩ := Prod.mk.inj (Except.ok.inj h)
    exact ⟨rfl, rfl⟩
  · rintro ⟨rfl, rfl⟩
    rfl

theorem bind {R : α → β → Prop} {c : Check α} {f : α → Check β} (hc : Decides P c)
    (hf : ∀ a, Decides (R a) (f a)) : Decides (fun b => ∃ a, P a ∧ R a b) (c >>= f) := by
  intro ps b
  rw [StateT.run_bind]
  constructor
  · intro h
    cases hfirst : c.run ps with
    | error e =>
        rw [hfirst] at h
        cases h
    | ok r =>
        obtain ⟨a, ps'⟩ := r
        rw [hfirst] at h
        obtain ⟨rfl, hb⟩ := (hf a ps' b).mp h
        obtain ⟨rfl, ha⟩ := (hc ps a).mp hfirst
        exact ⟨rfl, a, ha, hb⟩
  · rintro ⟨rfl, a, ha, hb⟩
    rw [(hc [] a).mpr ⟨rfl, ha⟩]
    exact (hf a [] b).mpr ⟨rfl, hb⟩

/-- A problem that is noted stays. -/
theorem note (p : Problem) (a : α) : Decides (fun _ => False) (do Settings.note p; return a) := by
  intro ps b
  constructor
  · intro h
    have h : Except.ok (a, ps ++ [p]) = (Except.ok (b, []) : Except Error _) := h
    have hnil := (Prod.mk.inj (Except.ok.inj h)).2
    exact absurd hnil (by simp)
  · rintro ⟨-, hfalse⟩
    exact hfalse.elim

theorem conclude {c : Check α} (hc : Decides P c) {a : α} : conclude c = .ok a ↔ P a := by
  have ha := hc [] a
  rw [Settings.conclude]
  cases hrun : c.run [] with
  | error e =>
      rw [hrun] at ha
      exact ⟨fun h => (by cases h), fun h => nomatch ha.mpr ⟨rfl, h⟩⟩
  | ok r =>
      obtain ⟨b, ps⟩ := r
      rw [hrun] at ha
      cases ps with
      | nil => exact ⟨fun h => (ha.mp (by rw [Except.ok.inj h])).2, fun h => by cases ha.mpr ⟨rfl, h⟩; rfl⟩
      | cons p ps => exact ⟨fun h => (by cases h), fun h => nomatch ha.mpr ⟨rfl, h⟩⟩

end Decides

/-! ### Fields and groups -/

/-- What stands under a name is converted to the given value; if nothing does, it is the default. -/
def IsGiven (entries : List (Value × Value)) (name : String) (default : α) (convert : Value → Except Defect α)
    (a : α) : Prop :=
  match Value.get? entries name with
  | none => a = default
  | some v => convert v = .ok a

/-- The entries of the group under a name. An absent group has none, and a mapping that is its own group
has its own. -/
def groupIn (entries : List (Value × Value)) (name : String) : Option (List (Value × Value)) :=
  match Value.get? entries name with
  | none => some []
  | some (.mapping part) => some part
  | some (.enclosing true) => some entries
  | some _ => none

section
variable {entries : List (Value × Value)} {place : List String} {name : String} {default : α}

/-- A field whose check lets through the values that have a property, and converts no further than told. -/
theorem decides_field {read convert : Value → Except Defect α}
    {check : α → Except Error (Except Defect α)} (hdefault : P default)
    (hcheck : ∀ v b, (∃ a, read v = .ok a ∧ check a = .ok (.ok b)) ↔ P b ∧ convert v = .ok b) :
    Decides (fun b => P b ∧ IsGiven entries name default convert b)
      (field entries (place ++ [name]) default read check) := by
  have hname : ((place ++ [name]).getLast?.getD "") = name := by
    rw [List.getLast?_append]
    rfl
  rw [field, hname]
  simp only [IsGiven]
  cases Value.get? entries name with
  | none => exact (Decides.pure default).congr fun b => ⟨by rintro rfl; exact ⟨hdefault, rfl⟩, And.right⟩
  | some v =>
      refine Decides.congr (P := fun b => ∃ a, read v = .ok a ∧ check a = .ok (.ok b)) ?_ (hcheck v)
      dsimp only
      cases read v with
      | error d =>
          refine (Decides.note _ _).congr fun b => ⟨False.elim, ?_⟩
          rintro ⟨_, h, -⟩
          cases h
      | ok a =>
          have hread (b : α) : check a = .ok (.ok b) ↔
              ∃ a', Except.ok (ε := Defect) a = .ok a' ∧ check a' = .ok (.ok b) :=
            ⟨fun hb => ⟨a, rfl, hb⟩, by rintro ⟨_, ⟨⟩, hb⟩; exact hb⟩
          refine Decides.congr (P := fun b => check a = .ok (.ok b)) ?_ hread
          dsimp only
          cases check a with
          | error e => exact fun ps b => ⟨fun h => (by cases h), fun h => (by cases h.2)⟩
          | ok r =>
              cases r with
              | error d =>
                  refine (Decides.note _ _).congr fun b => ⟨False.elim, ?_⟩
                  rintro ⟨⟩
              | ok c =>
                  refine (Decides.pure c).congr fun b => ⟨?_, ?_⟩
                  · rintro rfl
                    rfl
                  · rintro ⟨⟩
                    rfl

/-- A check that lets a value through as it is leaves its conversion alone. -/
theorem passes {read : Value → Except Defect α} {check : α → Except Error (Except Defect α)}
    (h : ∀ a b, check a = .ok (.ok b) ↔ P a ∧ b = a) (v : Value) (b : α) :
    (∃ a, read v = .ok a ∧ check a = .ok (.ok b)) ↔ P b ∧ read v = .ok b := by
  constructor
  · rintro ⟨a, hread, hcheck⟩
    obtain ⟨ha, rfl⟩ := (h a b).mp hcheck
    exact ⟨ha, hread⟩
  · rintro ⟨hb, hread⟩
    exact ⟨b, hread, (h b b).mpr ⟨hb, rfl⟩⟩

theorem decides_group {model : String} {read : List (Value × Value) → Check α}
    {R : List (Value × Value) → α → Prop} (hread : ∀ entries, Decides (R entries) (read entries))
    (v : Value) :
    Decides (fun a => ∃ entries, v = .mapping entries ∧ R entries a)
      (group place model default v read) := by
  rw [group.eq_def]
  split
  case h_1 part =>
    refine (hread part).congr fun a => ⟨fun h => ⟨part, rfl, h⟩, ?_⟩
    rintro ⟨_, ⟨⟩, h⟩
    exact h
  case h_2 v hv => exact (Decides.note _ _).congr fun a => ⟨False.elim, fun ⟨part, h, _⟩ => hv part h⟩

theorem decides_subgroup {model : String} {read : List String → List (Value × Value) → Check α}
    {R : List (Value × Value) → α → Prop} (hdefault : ∀ a, R [] a ↔ a = default)
    (hread : ∀ place entries, Decides (R entries) (read place entries)) :
    Decides (fun a => ∃ part, groupIn entries name = some part ∧ R part a)
      (subgroup entries name model default read) := by
  rw [subgroup.eq_def, groupIn]
  cases Value.get? entries name with
  | none => exact (Decides.pure default).congr fun a => (hdefault a).symm.trans (by simp)
  | some v =>
      cases v with
      | mapping part => exact (decides_group (hread _) (.mapping part)).congr fun a => by simp
      | enclosing isMapping =>
          cases isMapping with
          | true => exact (hread _ entries).congr fun a => by simp
          | false => exact (decides_group (hread _) (.enclosing false)).congr fun a => by simp
      | _ => exact (decides_group (hread _) _).congr fun a => by simp

end

end CatalogSteward.Settings

namespace CatalogSteward
open Settings

/-! ### Accepted settings -/

/-- How to connect, with every value in order: an expected version is one to three groups of digits with
points between them and no blanks around them. -/
structure Connection.IsAccepted (c : Connection) : Prop where
  port : 1 ≤ c.port ∧ c.port ≤ 65535
  database : Rules.Acceptable c.database
  user : Rules.Acceptable c.user
  sslMode : c.sslMode ∈ sslModes
  connectTimeout : 0 ≤ c.connectTimeout
  expectedVersion : ∀ version ∈ c.expectedVersion, version = Text.strip version ∧ Version.IsGrouped version

structure AuditSettings.IsAccepted (a : AuditSettings) : Prop where
  logPath : a.logPath.IsClean
  maxSizeMb : 1 ≤ a.maxSizeMb
  backupCount : 1 ≤ a.backupCount

structure Settings.IsAccepted (s : Settings) : Prop where
  connection : s.connection.IsAccepted
  audit : s.audit.IsAccepted

theorem Connection.isAccepted_default : Connection.default.IsAccepted where
  port := by decide
  database := ⟨by decide, by decide, by decide⟩
  user := ⟨by decide, by decide, by decide⟩
  sslMode := by decide
  connectTimeout := by decide
  expectedVersion := by simp [Connection.default]

theorem AuditSettings.isAccepted_default : AuditSettings.default.IsAccepted where
  logPath := Path.isClean_ofText _
  maxSizeMb := by decide
  backupCount := by decide

/-! ### Given values -/

/-- How to connect, as the entries of a mapping tell it. -/
structure Connection.IsReadFrom (c : Connection) (entries : List (Value × Value)) : Prop where
  host : IsGiven entries "host" default.host readText c.host
  port : IsGiven entries "port" default.port readInteger c.port
  database : IsGiven entries "database" default.database readText c.database
  user : IsGiven entries "user" default.user readText c.user
  sslMode : IsGiven entries "sslmode" default.sslMode readText c.sslMode
  connectTimeout : IsGiven entries "connect_timeout" default.connectTimeout readInteger c.connectTimeout
  applicationName : IsGiven entries "application_name" default.applicationName readText c.applicationName
  expectedVersion : IsGiven entries "expected_version" default.expectedVersion
    (fun v => (readOptionalText v).map (Option.map Text.strip)) c.expectedVersion

structure AuditSettings.IsReadFrom (a : AuditSettings) (entries : List (Value × Value)) : Prop where
  enabled : IsGiven entries "enabled" default.enabled readBoolean a.enabled
  logPath : IsGiven entries "log_path" default.logPath readPath a.logPath
  maxSizeMb : IsGiven entries "max_size_mb" default.maxSizeMb readInteger a.maxSizeMb
  backupCount : IsGiven entries "backup_count" default.backupCount readInteger a.backupCount

/-- Settings as the groups of a mapping tell them. -/
def Settings.IsReadFrom (s : Settings) (entries : List (Value × Value)) : Prop :=
  (∃ part, groupIn entries "postgres" = some part ∧ s.connection.IsReadFrom part) ∧
    ∃ part, groupIn entries "audit" = some part ∧ s.audit.IsReadFrom part

attribute [ext] Connection AuditSettings

theorem Connection.isReadFrom_nil {c : Connection} : c.IsReadFrom [] ↔ c = default := by
  constructor
  · rintro ⟨hhost, hport, hdatabase, huser, hmode, htimeout, hname, hversion⟩
    exact Connection.ext hhost hport hdatabase huser hmode htimeout hname hversion
  · rintro rfl
    exact ⟨rfl, rfl, rfl, rfl, rfl, rfl, rfl, rfl⟩

theorem AuditSettings.isReadFrom_nil {a : AuditSettings} : a.IsReadFrom [] ↔ a = default := by
  constructor
  · rintro ⟨henabled, hpath, hsize, hcount⟩
    exact AuditSettings.ext henabled hpath hsize hcount
  · rintro rfl
    exact ⟨rfl, rfl, rfl, rfl⟩

namespace Settings

/-! ### Rules -/

theorem isWritable_of_port {n : Int} (h : 1 ≤ n ∧ n ≤ 65535) : Decimal.isWritable n = true := by
  rw [Decimal.isWritable, decide_eq_true_eq]
  obtain ⟨k, hk⟩ : ∃ k, Decimal.digitLimit = 5 + k := ⟨4295, rfl⟩
  have hlimit : 10 ^ 5 ≤ Decimal.powerOfTen (5 + k) :=
    Nat.pow_le_pow_right (by decide) (Nat.le_add_right 5 k)
  rw [hk]
  omega

theorem rule_eq_ok_iff {check : α → Except Error α} {a b : α} :
    rule check a = .ok (.ok b) ↔ check a = .ok b := by
  rw [rule]
  cases check a with
  | error e => exact ⟨fun h => (by cases h), fun h => (by cases h)⟩
  | ok c => exact ⟨fun h => congrArg Except.ok (Except.ok.inj (Except.ok.inj h)), fun h => by cases h; rfl⟩

theorem free_eq_ok_iff (a b : α) : free a = .ok (.ok b) ↔ True ∧ b = a :=
  ⟨fun h => ⟨trivial, (Except.ok.inj (Except.ok.inj h)).symm⟩, fun h => by rw [h.2]; rfl⟩

theorem portRule_eq_ok_iff (n m : Int) : portRule n = .ok (.ok m) ↔ (1 ≤ n ∧ n ≤ 65535) ∧ m = n := by
  rw [portRule]
  split_ifs with hwritable
  · rw [rule_eq_ok_iff, Rules.checkPort]
    split_ifs with hport
    · exact ⟨fun h => ⟨hport, (Except.ok.inj h).symm⟩, fun h => by rw [h.2]⟩
    · exact ⟨fun h => (by cases h), fun h => absurd h.1 hport⟩
  · exact ⟨fun h => (by cases h), fun h => absurd (isWritable_of_port h.1) hwritable⟩

theorem nameRule_eq_ok_iff (kind s t : String) :
    rule (Rules.checkName kind) s = .ok (.ok t) ↔ Rules.Acceptable s ∧ t = s := by
  rw [rule_eq_ok_iff, Rules.checkName_eq_ok_iff, and_comm]

theorem sslModeRule_eq_ok_iff (s t : String) :
    rule Rules.checkSslMode s = .ok (.ok t) ↔ s ∈ sslModes ∧ t = s := by
  rw [rule_eq_ok_iff, Rules.checkSslMode, ← List.contains_iff_mem]
  split_ifs with hmode
  · exact ⟨fun h => ⟨hmode, (Except.ok.inj h).symm⟩, fun h => by rw [h.2]⟩
  · exact ⟨fun h => (by cases h), fun h => absurd h.1 hmode⟩

theorem atLeast_eq_ok_iff (least : Int) (complaint : String) (n m : Int) :
    atLeast least complaint n = .ok (.ok m) ↔ least ≤ n ∧ m = n := by
  rw [atLeast]
  split_ifs with hleast
  · exact ⟨fun h => ⟨hleast, (Except.ok.inj (Except.ok.inj h)).symm⟩, fun h => by rw [h.2]⟩
  · exact ⟨fun h => (by cases h), fun h => absurd h.1 hleast⟩

/-- The rule for versions is the one that changes its value: it drops the blanks around it. -/
theorem versionRule_eq_ok_iff (v : Value) (w : Option String) :
    (∃ given, readOptionalText v = .ok given ∧ versionRule given = .ok (.ok w)) ↔
      (∀ version ∈ w, version = Text.strip version ∧ Version.IsGrouped version) ∧
        (readOptionalText v).map (Option.map Text.strip) = .ok w := by
  cases readOptionalText v with
  | error d => exact ⟨fun ⟨_, h, _⟩ => (by cases h), fun h => (by cases h.2)⟩
  | ok given =>
      cases given with
      | none =>
          constructor
          · rintro ⟨_, ⟨⟩, h⟩
            obtain rfl := Except.ok.inj (Except.ok.inj h)
            exact ⟨by simp, rfl⟩
          · rintro ⟨-, h⟩
            obtain rfl := Except.ok.inj h
            exact ⟨none, rfl, rfl⟩
      | some text =>
          constructor
          · rintro ⟨_, ⟨⟩, h⟩
            rw [versionRule] at h
            cases hcheck : Rules.checkVersion text with
            | error e =>
                rw [hcheck] at h
                cases h
            | ok version =>
                rw [hcheck] at h
                obtain rfl := Except.ok.inj (Except.ok.inj h)
                obtain ⟨rfl, hgrouped⟩ := Version.checkVersion_eq_ok_iff.mp hcheck
                refine ⟨fun _ hversion => ?_, rfl⟩
                exact Option.some.inj hversion ▸ ⟨(Version.strip_strip text).symm, hgrouped⟩
          · rintro ⟨hgrouped, h⟩
            obtain rfl := Except.ok.inj h
            have hcheck := Version.checkVersion_eq_ok_iff.mpr ⟨rfl, (hgrouped _ rfl).2⟩
            exact ⟨some text, rfl, by rw [versionRule, hcheck]; rfl⟩

/-! ### Reading -/

theorem decides_readConnection (place : List String) (entries : List (Value × Value)) :
    Decides (fun c : Connection => c.IsAccepted ∧ c.IsReadFrom entries) (readConnection place entries) := by
  have hdefault := Connection.isAccepted_default
  rw [readConnection]
  refine Decides.congr
    (Decides.bind (decides_field (P := fun _ => True) trivial (passes free_eq_ok_iff)) fun host =>
      Decides.bind (decides_field hdefault.port (passes portRule_eq_ok_iff)) fun port =>
      Decides.bind (decides_field hdefault.database (passes (nameRule_eq_ok_iff _))) fun database =>
      Decides.bind (decides_field hdefault.user (passes (nameRule_eq_ok_iff _))) fun user =>
      Decides.bind (decides_field hdefault.sslMode (passes sslModeRule_eq_ok_iff)) fun sslMode =>
      Decides.bind (decides_field hdefault.connectTimeout (passes (atLeast_eq_ok_iff _ _))) fun timeout =>
      Decides.bind (decides_field (P := fun _ => True) trivial (passes free_eq_ok_iff)) fun applicationName =>
      Decides.bind (decides_field hdefault.expectedVersion versionRule_eq_ok_iff) fun version => .pure _)
    fun c => ?_
  constructor
  · rintro ⟨_, ⟨-, hhost⟩, _, ⟨hport, hport'⟩, _, ⟨hdatabase, hdatabase'⟩, _, ⟨huser, huser'⟩,
      _, ⟨hmode, hmode'⟩, _, ⟨htimeout, htimeout'⟩, _, ⟨-, hname⟩, _, ⟨hversion, hversion'⟩, rfl⟩
    exact ⟨⟨hport, hdatabase, huser, hmode, htimeout, hversion⟩,
      ⟨hhost, hport', hdatabase', huser', hmode', htimeout', hname, hversion'⟩⟩
  · rintro ⟨ha, hr⟩
    exact ⟨_, ⟨trivial, hr.host⟩, _, ⟨ha.port, hr.port⟩, _, ⟨ha.database, hr.database⟩,
      _, ⟨ha.user, hr.user⟩, _, ⟨ha.sslMode, hr.sslMode⟩, _, ⟨ha.connectTimeout, hr.connectTimeout⟩,
      _, ⟨trivial, hr.applicationName⟩, _, ⟨ha.expectedVersion, hr.expectedVersion⟩, rfl⟩

theorem decides_readAudit (place : List String) (entries : List (Value × Value)) :
    Decides (fun a : AuditSettings => a.IsAccepted ∧ a.IsReadFrom entries) (readAudit place entries) := by
  have hdefault := AuditSettings.isAccepted_default
  have hpath (v : Value) (b : Path) :
      (∃ a, readPath v = .ok a ∧ free a = .ok (.ok b)) ↔ b.IsClean ∧ readPath v = .ok b := by
    rw [passes free_eq_ok_iff v b, true_and]
    refine ⟨fun h => ⟨?_, h⟩, And.right⟩
    cases v with
    | text s => exact Except.ok.inj h ▸ Path.isClean_ofText s
    | _ => cases h
  rw [readAudit]
  refine Decides.congr
    (Decides.bind (decides_field (P := fun _ => True) trivial (passes free_eq_ok_iff)) fun enabled =>
      Decides.bind (decides_field hdefault.logPath hpath) fun logPath =>
      Decides.bind (decides_field hdefault.maxSizeMb (passes (atLeast_eq_ok_iff _ _))) fun maxSizeMb =>
      Decides.bind (decides_field hdefault.backupCount (passes (atLeast_eq_ok_iff _ _))) fun backupCount =>
      .pure _)
    fun a => ?_
  constructor
  · rintro ⟨_, ⟨-, henabled⟩, _, ⟨hclean, hpath⟩, _, ⟨hsize, hsize'⟩, _, ⟨hcount, hcount'⟩, rfl⟩
    exact ⟨⟨hclean, hsize, hcount⟩, ⟨henabled, hpath, hsize', hcount'⟩⟩
  · rintro ⟨ha, hr⟩
    exact ⟨_, ⟨trivial, hr.enabled⟩, _, ⟨ha.logPath, hr.logPath⟩, _, ⟨ha.maxSizeMb, hr.maxSizeMb⟩,
      _, ⟨ha.backupCount, hr.backupCount⟩, rfl⟩

theorem decides_readSettings (entries : List (Value × Value)) :
    Decides (fun s : Settings => s.IsAccepted ∧ s.IsReadFrom entries) (readSettings entries) := by
  have hconnection (c : Connection) : c.IsAccepted ∧ c.IsReadFrom [] ↔ c = .default := by
    rw [Connection.isReadFrom_nil]
    exact ⟨And.right, fun h => ⟨h ▸ Connection.isAccepted_default, h⟩⟩
  have haudit (a : AuditSettings) : a.IsAccepted ∧ a.IsReadFrom [] ↔ a = .default := by
    rw [AuditSettings.isReadFrom_nil]
    exact ⟨And.right, fun h => ⟨h ▸ AuditSettings.isAccepted_default, h⟩⟩
  rw [readSettings]
  refine Decides.congr
    (Decides.bind (decides_subgroup hconnection decides_readConnection) fun connection =>
      Decides.bind (decides_subgroup haudit decides_readAudit) fun audit => .pure _)
    fun s => ?_
  constructor
  · rintro ⟨_, ⟨part, hpart, hc, hread⟩, _, ⟨part', hpart', ha, hread'⟩, rfl⟩
    exact ⟨⟨hc, ha⟩, ⟨part, hpart, hread⟩, part', hpart', hread'⟩
  · rintro ⟨⟨hc, ha⟩, ⟨part, hpart, hread⟩, part', hpart', hread'⟩
    exact ⟨_, ⟨part, hpart, hc, hread⟩, _, ⟨part', hpart', ha, hread'⟩, rfl⟩

/-- Settings that were read obey every rule. -/
theorem isAccepted_of_ofValue {v : Value} {s : Settings} (h : ofValue v = .ok s) : s.IsAccepted := by
  obtain ⟨_, -, haccepted, -⟩ := (decides_group decides_readSettings v).conclude.mp h
  exact haccepted

/-- Settings are accepted exactly if they come from a mapping, each value as it is given, or its default,
and obey every rule: nothing is clamped, dropped or replaced. -/
theorem accepted_settings_are_as_given {v : Value} {s : Settings} :
    ofValue v = .ok s ↔ s.IsAccepted ∧ ∃ entries, v = .mapping entries ∧ s.IsReadFrom entries := by
  rw [ofValue, (decides_group decides_readSettings v).conclude]
  constructor
  · rintro ⟨entries, rfl, haccepted, hread⟩
    exact ⟨haccepted, entries, rfl, hread⟩
  · rintro ⟨haccepted, entries, rfl, hread⟩
    exact ⟨entries, rfl, haccepted, hread⟩

end Settings

end CatalogSteward
