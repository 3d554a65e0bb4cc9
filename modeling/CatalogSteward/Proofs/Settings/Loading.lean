import CatalogSteward.Proofs.Disk
import CatalogSteward.Proofs.Settings.Validation
import CatalogSteward.Proofs.Yaml.Unvalued
import CatalogSteward.Settings.Access

/-!
# Loading a configuration file

Whatever a file holds, loading it leads to the settings that it gives, if these obey every rule, or to an
error about the configuration, which names the file and has its reason. The exceptions are a path that cannot
be passed on, bytes that are no text, and documents without a value: for these loading ends in a fault.
-/

namespace CatalogSteward

/-- An error about the configuration in a file, which it names. -/
structure Error.Concerns (e : Error) (path : Path) : Prop where
  kind : e.report.kind = .configuration
  message : ∃ words, e.message = words ++ path.text

theorem Error.Concerns.exitCode {e : Error} {path : Path} (h : e.Concerns path) : e.exitCode = 2 := by
  rw [Error.exitCode, h.kind]
  rfl

/-- A question about a disk leaves it as it is. -/
theorem DiskAct.ask_eq {α : Type} (question : Disk → Except Disk.Fault α) (d : Disk) :
    ask question d = ((question d).mapError fun f => .fault (.disk f), d) := by
  rw [ask, run_get_bind]
  cases question d <;> rfl

theorem DiskAct.ofAction_eq {α : Type} (a : Disk.Action α) (d : Disk) :
    ofAction a d = ((a d).1.mapError fun f => .fault (.disk f), (a d).2) := by
  change (((a d).1.mapError fun f => Failure.fault (.disk f)), (a d).2) = _
  rfl

namespace Settings

variable {path : Path} {d : Disk}

/-- A file that holds a text. -/
def Holds (path : Path) (d : Disk) (text : String) : Prop :=
  ∃ bytes, d.read path = .ok bytes ∧ Text.readText? bytes = some text

/-- The entries of a document; an empty document has none. -/
def entriesIn : Value → Option (List (Value × Value))
  | .null => some []
  | .mapping entries => some entries
  | _ => none

/-- Why there are no settings in a file. -/
inductive Refused (path : Path) (d : Disk) : Error → Prop
  | missing {p : Path} {target : Option Path} (h : d.read path = .error (.refused .missing p target)) :
      Refused path d (.configMissing path)
  | unreadable {problem : Disk.Problem} {p : Path} {target : Option Path} (hproblem : problem ≠ .missing)
      (h : d.read path = .error (.refused problem p target)) :
      Refused path d (.configUnreadable path [(Disk.Fault.refused problem p target).message])
  | malformed {text : String} (htext : Holds path d text) (h : Yaml.read text.toList = .error .malformed) :
      Refused path d (.configMalformed path)
  | notMapping {text : String} {v : Value} (htext : Holds path d text) (hv : Yaml.read text.toList = .ok v)
      (h : entriesIn v = none) : Refused path d (.configNotMapping path v.typeName)
  | invalid {text : String} {v : Value} {entries : List (Value × Value)} {details : List String}
      (htext : Holds path d text) (hv : Yaml.read text.toList = .ok v) (hentries : entriesIn v = some entries)
      (h : ∀ s : Settings, s.IsAccepted → ¬s.IsReadFrom entries) : Refused path d (.configInvalid path details)

theorem Refused.concerns {e : Error} (h : Refused path d e) : e.Concerns path := by
  cases h <;> exact ⟨rfl, _, rfl⟩

/-- How loading a file of a disk ends. -/
inductive Loaded (path : Path) (d : Disk) : Except Failure Settings → Prop
  | settings {text : String} {v : Value} {entries : List (Value × Value)} {s : Settings}
      (htext : Holds path d text) (hv : Yaml.read text.toList = .ok v) (hentries : entriesIn v = some entries)
      (haccepted : s.IsAccepted) (hread : s.IsReadFrom entries) : Loaded path d (.ok s)
  | refused {e : Error} (h : Refused path d e) : Loaded path d (.error (.error e))
  | unpassable (h : path.hasNul = true) : Loaded path d (.error (.fault (.disk .nulInPath)))
  | undecodable {bytes : List UInt8} (hread : d.read path = .ok bytes) (h : Text.readText? bytes = none) :
      Loaded path d (.error (.fault .unreadableText))
  | unvalued {text : String} {g : Yaml.Fault} (htext : Holds path d text) (h : Yaml.IsUnvalued text.toList g) :
      Loaded path d (.error (.fault (.document g)))

theorem hasNul_of_read (h : d.read path = .error .nulInPath) : path.hasNul = true := by
  unfold Disk.read at h
  split at h
  · assumption
  · split at h <;> cases h

/-- Settings are loaded from a mapping if there are any that obey every rule. -/
theorem loaded_entries {text : String} {v : Value} {entries : List (Value × Value)} (htext : Holds path d text)
    (hv : Yaml.read text.toList = .ok v) (hentries : entriesIn v = some entries) :
    Loaded path d ((conclude (readSettings entries)).mapError fun r => .error (.configInvalid path r.lines)) := by
  have hdecides (s : Settings) := (decides_readSettings entries).conclude (a := s)
  cases hread : conclude (readSettings entries) with
  | ok s =>
      obtain ⟨haccepted, hfrom⟩ := (hdecides s).mp hread
      exact .settings htext hv hentries haccepted hfrom
  | error r =>
      refine .refused (.invalid htext hv hentries fun s haccepted hfrom => ?_)
      cases hread.symm.trans ((hdecides s).mpr ⟨haccepted, hfrom⟩)

theorem loaded_text {text : String} (htext : Holds path d text) : Loaded path d (ofText path text) := by
  have hfails := Yaml.read_fails text.toList
  unfold ofText
  split
  · next hread => exact .refused (.malformed htext hread)
  · next g hread => exact .unvalued htext (hfails _ hread g rfl)
  · next v hread =>
      cases v with
      | null => exact loaded_entries htext hread rfl
      | mapping entries => exact loaded_entries htext hread rfl
      | _ => exact .refused (.notMapping htext hread rfl)

theorem load_loaded (path : Path) (d : Disk) : Loaded path d (load path d).1 := by
  rw [load, run_get_bind]
  cases hread : d.read path with
  | error f =>
      cases f with
      | nulInPath => exact .unpassable (hasNul_of_read hread)
      | refused problem p target =>
          cases problem with
          | missing => exact .refused (.missing hread)
          | _ => exact .refused (.unreadable (by nofun) hread)
  | ok bytes =>
      dsimp only
      cases htext : Text.readText? bytes with
      | none => exact .undecodable hread htext
      | some text => exact loaded_text ⟨bytes, hread, htext⟩

theorem isAccepted_of_load {s : Settings} (h : (load path d).1 = .ok s) : s.IsAccepted := by
  have hloaded := load_loaded path d
  rw [h] at hloaded
  cases hloaded with
  | settings _ _ _ haccepted _ => exact haccepted

theorem isAccepted_default : Settings.default.IsAccepted :=
  ⟨Connection.isAccepted_default, AuditSettings.isAccepted_default⟩

theorem isAccepted_of_loadOrDefault {s : Settings} (h : (loadOrDefault path d).1 = .ok s) : s.IsAccepted := by
  have hasked := DiskAct.ask_eq (Disk.pathExists path) d
  cases hthere : Disk.pathExists path d with
  | error f =>
      rw [hthere] at hasked
      rw [loadOrDefault, run_bind_error hasked] at h
      cases h
  | ok isThere =>
      rw [hthere] at hasked
      rw [loadOrDefault, run_bind hasked] at h
      cases isThere with
      | true => exact isAccepted_of_load h
      | false => exact Except.ok.inj h ▸ isAccepted_default

end Settings

/-- Whatever is found of a configuration obeys every rule. -/
theorem Access.isAccepted_of_load {path : Path} {environment : List (String × String)} {d : Disk} {access : Access}
    (h : (load path environment d).1 = .ok access) : access.settings.IsAccepted := by
  rcases hsettings : Settings.loadOrDefault path d with ⟨f | s, e⟩
  · rw [load, run_bind_error hsettings] at h
    cases h
  · rw [load, run_bind hsettings] at h
    rcases hpassword : readPassword environment e with ⟨f | password, e'⟩
    · rw [run_bind_error hpassword] at h
      cases h
    · rw [run_bind hpassword] at h
      obtain rfl := Except.ok.inj h
      exact Settings.isAccepted_of_loadOrDefault (congrArg Prod.fst hsettings)

end CatalogSteward
