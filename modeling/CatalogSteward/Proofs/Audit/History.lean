import CatalogSteward.Proofs.Audit.Rotation
import CatalogSteward.Proofs.Json.RoundTrip

/-!
# The history of a trail

The history of a trail is what its files hold, from the oldest backup to the log. Every event that is
recorded adds one line at its end, and the line is read back as the event. Nothing else happens to the
history but that a rotation takes away what the oldest backup held; and no other file is touched.
-/

namespace CatalogSteward

/-! ### Lines -/

namespace Redaction
open Json

mutual

theorem isKept_redact : ∀ j : Json, j.IsKept → (redact j).IsKept
  | .object fields, h => fieldsAreKept_redact fields h
  | .list items, h => areKept_redact items h
  | .null, _ | .bool _, _ | .int _, _ | .str _, _ => trivial
  | .real _, h => h

theorem areKept_redact : ∀ js : List Json, AreKept js → AreKept (redactItems js)
  | [], _ => trivial
  | j :: js, h => ⟨isKept_redact j h.1, areKept_redact js h.2⟩

theorem fieldsAreKept_redact : ∀ fs : List (String × Json), FieldsAreKept fs → FieldsAreKept (redactFields fs)
  | [], _ => trivial
  | (k, j) :: fs, h => by
      refine ⟨?_, fieldsAreKept_redact fs h.2⟩
      split
      · exact trivial
      · exact isKept_redact j h.1

end

end Redaction

namespace AuditEvent

variable {e : AuditEvent}

end AuditEvent

/-! ### The history -/

namespace Trail
open Disk

/-- The bytes of the file under a path, none if there is no file. -/
def content (d : Disk) (p : Path) : List UInt8 :=
  match Disk.read p d with
  | .ok bytes => bytes
  | .error _ => []

/-- What the backups up to the given one and the log hold, from the oldest on. -/
def historyOf (path : Path) : Nat → Disk → List UInt8
  | 0, d => content d path
  | n + 1, d => content d (backup path (n + 1)) ++ historyOf path n d

/-- The number of the backups. -/
def count (t : Trail) : Nat := t.backupCount.toNat

def history (t : Trail) (d : Disk) : List UInt8 := historyOf t.path t.count d

/-- A trail that is kept: in a directory that is there, the log and its backups are regular files or
missing, and the log is not one of its own backups. -/
structure Fits (t : Trail) (d : Disk) : Prop where
  enabled : t.enabled = true
  backups : 1 ≤ t.backupCount
  named : Disk.IsNamed t.path
  apart : ∀ n, 0 < n → n ≤ t.count → backup t.path n ≠ t.path
  home : d.isDirectory t.path.parent = .ok true
  files : ∀ i ≤ t.count, d.IsFileOrMissing (slot t.path i)

/-- A line is added at the end of the history. If the log would grow beyond its limit, what the oldest
backup held is taken away from the front. No other file is touched. -/
structure Adds (t : Trail) (line : List UInt8) (d e : Disk) : Prop where
  stays : ((content d t.path ++ line).length : Int) ≤ t.maxSizeBytes → t.history e = t.history d ++ line
  rotates : t.maxSizeBytes < ((content d t.path ++ line).length : Int) →
    content d (slot t.path t.count) ++ t.history e = t.history d ++ line
  bounded : ((content e t.path).length : Int) ≤ max 0 t.maxSizeBytes
  others : ∀ names, (∀ i ≤ t.count, d.locate (slot t.path i) ≠ .ok names) → e.lookup names = d.lookup names

variable {t : Trail} {path : Path} {count : Nat} {place : Nat → List String} {d e : Disk}

/-! ### The files of the history -/

theorem content_eq {p : Path} {names : List String} (h : d.Reaches p names) : content d p = d.held names := by
  unfold content held
  rcases h.cases with hnone | ⟨bytes, mode, hfile⟩
  · rw [Disk.read, h.nul, h.entry_eq, hnone, if_neg Bool.false_ne_true]
  · rw [h.read hfile, hfile]

theorem held_congr {names other : List String} (h : e.lookup names = d.lookup other) :
    e.held names = d.held other := by
  unfold held
  rw [h]

theorem Kept.content_slot (h : Kept path count place d) {i : Nat} (hi : i ≤ count) :
    content d (slot path i) = d.held (place i) :=
  content_eq (h.reaches i hi)

theorem Fits.kept (h : t.Fits d) : ∃ place, Kept t.path t.count place d := by
  obtain ⟨names, hhome⟩ := isHome_of_isDirectory h.home
  refine ⟨fun i => names ++ [(slot t.path i).name], ⟨names, hhome⟩, ?_, ?_⟩
  · intro i hi
    have hparent : d.IsHome (slot t.path i).parent names := slot_parent t.path i ▸ hhome
    exact hparent.reaches (isNamed_slot h.named i) (h.files i hi)
  · intro i hi j hj heq
    have hname : (slot t.path i).name = (slot t.path j).name := by simpa using heq
    exact slot_name_injective h.named h.apart hi hj hname

theorem Fits.of_kept (h : t.Fits d) (hkept : Kept t.path t.count place e) : t.Fits e := by
  obtain ⟨names, hhome⟩ := hkept.home
  exact ⟨h.enabled, h.backups, h.named, h.apart, hhome.isDirectory,
    fun i hi => (hkept.reaches i hi).isFileOrMissing⟩

/-- What is added to the log is added to the history. -/
theorem historyOf_append {n : Nat} {line : List UInt8} (hlog : content e path = content d path ++ line)
    (hrest : ∀ i, 0 < i → i ≤ n → content e (slot path i) = content d (slot path i)) :
    historyOf path n e = historyOf path n d ++ line := by
  induction n with
  | zero => exact hlog
  | succ n ih =>
      have hbackup : content e (backup path (n + 1)) = content d (backup path (n + 1)) :=
        hrest (n + 1) (Nat.succ_pos n) (Nat.le_refl _)
      rw [historyOf, historyOf, hbackup, ih fun i hpos hi => hrest i hpos (Nat.le_succ_of_le hi), List.append_assoc]

/-- When every file has moved one place on, the history is that of all but the oldest. -/
theorem historyOf_moved {n : Nat} (hlog : content e path = [])
    (hmoved : ∀ i ≤ n, content e (slot path (i + 1)) = content d (slot path i)) :
    historyOf path (n + 1) e = historyOf path n d := by
  induction n with
  | zero =>
      change content e (slot path 1) ++ content e path = content d path
      rw [hmoved 0 (Nat.le_refl _), hlog, List.append_nil]
      rfl
  | succ n ih =>
      rw [historyOf, ih fun i hi => hmoved i (Nat.le_succ_of_le hi)]
      change content e (slot path (n + 1 + 1)) ++ historyOf path n d = _
      rw [hmoved (n + 1) (Nat.le_refl _)]
      rfl

/-! ### One line -/

theorem mentioning_congr {a b : Disk.Action Unit} (h : a d = b e) (words : String) :
    mentioning words a d = mentioning words b e := by
  have hrun : a.run d = b.run e := h
  rw [mentioning, mentioning, run_get_bind, run_get_bind, hrun]
  rcases b.run e with ⟨fault | _, _⟩ <;> rfl

/-- What an operation does to the disk, it does also if its failure is only mentioned. -/
theorem mentioning_disk (words : String) (a : Disk.Action Unit) (d : Disk) :
    (mentioning words a d).2 = (a d).2 := by
  change _ = (a.run d).2
  rw [mentioning, run_get_bind]
  rcases a.run d with ⟨f | _, e⟩
  · cases f <;> rfl
  · rfl

theorem mentioning_apply {a : Disk.Action Unit} (h : a d = (.ok (), e)) (words : String) :
    mentioning words a d = (.ok none, e) := by
  have hrun : a.run d = (.ok (), e) := h
  rw [mentioning, run_get_bind, hrun]
  rfl

/-- The line goes to the end of the log, which is made if it is missing. -/
theorem append_apply {home names : List String} (hhome : d.IsHome path.parent home) (hreach : d.Reaches path names)
    (line : String) : ∃ e mode, Trail.append path line d = (.ok (), e) ∧
      e.lookup = Function.update d.lookup names (some (.file (d.held names ++ Text.encodeUtf8 line) mode)) := by
  obtain ⟨e, mode, hupdate, he⟩ := hreach.update fileMode fun old => old ++ Text.encodeUtf8 line
  exact ⟨e, mode, (run_bind hhome.makeDirectories _).trans hupdate, he⟩

theorem Kept.append (h : Kept path count place d) (line : String) :
    ∃ e, Trail.append path line d = (.ok (), e) ∧ Kept path count place e ∧ Elsewhere count place d e ∧
      (∃ mode, e.lookup (place 0) = some (.file (d.held (place 0) ++ Text.encodeUtf8 line) mode)) ∧
      ∀ i, 0 < i → i ≤ count → e.lookup (place i) = d.lookup (place i) := by
  obtain ⟨names, hhome⟩ := h.home
  obtain ⟨e, mode, happend, he⟩ := append_apply hhome (h.reaches 0 (Nat.zero_le _)) line
  obtain ⟨hkept, helse⟩ := h.update (Nat.zero_le _) (fun hfile => by cases hfile) he
  refine ⟨e, happend, hkept, helse, ⟨mode, ?_⟩, ?_⟩
  · rw [he, Function.update_self]
  · intro i hpos hi
    rw [he, h.lookup_update (Nat.zero_le _) _ hi, if_neg (by omega)]

theorem size_apply {bytes : List UInt8} (h : Disk.read path d = .ok bytes) :
    Trail.size path d = (.ok bytes.length, d) := by
  unfold Trail.size
  rw [run_get_bind, h]
  rfl

/-- Whether the log is too large decides whether it is rotated. -/
theorem rotateIfLarge_apply (hbackups : 1 ≤ t.backupCount) {bytes : List UInt8}
    (hread : Disk.read t.path d = .ok bytes) :
    t.rotateIfLarge d = mentioning "Audit log rotation failed: "
      (if t.maxSizeBytes < bytes.length then Trail.rotate t.path t.count else pure ()) d := by
  have hlarge : (do return decide (t.maxSizeBytes < (← size t.path)) : Disk.Action Bool) d =
      (.ok (decide (t.maxSizeBytes < bytes.length)), d) := run_bind (size_apply hread) _
  have hguard (c : Prop) [Decidable c] : ¬(t.backupCount < 1 ∧ c) := fun h => by omega
  unfold rotateIfLarge
  rw [run_get_bind, if_neg (hguard _)]
  apply mentioning_congr
  rw [run_bind hlarge]
  by_cases hexceeds : t.maxSizeBytes < bytes.length
  · rw [decide_eq_true hexceeds, if_pos hexceeds]
    rfl
  · rw [decide_eq_false hexceeds, if_neg hexceeds]
    rfl

theorem Kept.others (h : Kept path count place d) (helse : Elsewhere count place d e) (names : List String)
    (hnames : ∀ i ≤ count, d.locate (slot path i) ≠ .ok names) : e.lookup names = d.lookup names := by
  apply helse
  rintro i hi rfl
  exact hnames i hi (h.reaches i hi).located

/-- A line is added to a trail that is kept, and the trail is kept on. -/
theorem Fits.addLine (h : t.Fits d) (line : String) :
    ∃ e, t.addLine line d = (.ok none, e) ∧ t.Adds (Text.encodeUtf8 line) d e ∧ t.Fits e := by
  obtain ⟨place, hkept⟩ := h.kept
  obtain ⟨f, happend, hkeptLog, helseLog, ⟨mode, hlog⟩, hrest⟩ := hkept.append line
  have hbefore : content d t.path = d.held (place 0) := hkept.content_slot (Nat.zero_le _)
  have hread : Disk.read t.path f = .ok (content d t.path ++ Text.encodeUtf8 line) :=
    hbefore ▸ (hkeptLog.reaches 0 (Nat.zero_le _)).read hlog
  have hcontent : content f t.path = content d t.path ++ Text.encodeUtf8 line := by
    rw [content, hread]
  have hhistory : ∀ n ≤ t.count, historyOf t.path n f = historyOf t.path n d ++ Text.encodeUtf8 line := by
    intro n hn
    apply historyOf_append hcontent
    intro i hpos hi
    rw [hkeptLog.content_slot (by omega), hkept.content_slot (by omega)]
    exact held_congr (hrest i hpos (by omega))
  have hadd (e : Disk) (hrotate : (if t.maxSizeBytes < (content d t.path ++ Text.encodeUtf8 line).length then
      Trail.rotate t.path t.count else pure ()) f = (.ok (), e)) : t.addLine line d = (.ok none, e) := by
    unfold Trail.addLine
    rw [run_bind (mentioning_apply happend _)]
    exact (rotateIfLarge_apply h.backups hread).trans (mentioning_apply hrotate _)
  by_cases hexceeds : t.maxSizeBytes < ((content d t.path ++ Text.encodeUtf8 line).length : Int)
  · -- The log has grown beyond its limit, and every file moves one place on.
    obtain ⟨c, hc⟩ : ∃ c, t.count = c + 1 :=
      ⟨t.count - 1, by have := h.backups; unfold Trail.count; omega⟩
    rw [hc] at hkeptLog hkept helseLog
    obtain ⟨e, hrotate, hkeptNew, helseNew, hempty, hmoved⟩ := hkeptLog.rotate (by rw [hlog]; rfl)
    have hnew : content e t.path = [] := (hkeptNew.content_slot (Nat.zero_le _)).trans hempty
    have hcarried : historyOf t.path (c + 1) e = historyOf t.path c f := by
      apply historyOf_moved hnew
      intro i hi
      rw [hkeptNew.content_slot (by omega), hkeptLog.content_slot (by omega)]
      exact held_congr (hmoved i hi)
    refine ⟨e, hadd e (by rw [if_pos hexceeds, hc]; exact hrotate), ⟨?_, ?_, ?_, ?_⟩,
      h.of_kept (hc.symm ▸ hkeptNew)⟩
    · exact fun hle => absurd hexceeds (not_lt.mpr hle)
    · intro _
      rw [history, history, hc, hcarried, hhistory c (by omega), historyOf, List.append_assoc]
      rfl
    · rw [hnew]
      exact le_max_left 0 _
    · rw [hc]
      exact hkept.others (helseLog.trans helseNew)
  · -- The log stays within its limit.
    refine ⟨f, hadd f (by rw [if_neg hexceeds]; rfl), ⟨fun _ => hhistory _ (Nat.le_refl _), ?_, ?_, ?_⟩,
      h.of_kept hkeptLog⟩
    · exact fun hlt => absurd hlt hexceeds
    · rw [hcontent]
      omega
    · exact hkept.others helseLog

/-! ### Runs -/

/-- Something to record: the correlations that are open, who acts, and the event. -/
structure Logged where
  correlations : List String
  actor : Actor
  event : AuditEvent

/-- The trail while something is recorded. -/
def during (t : Trail) (l : Logged) : Trail := { t with correlations := l.correlations }

/-- The event as it is recorded. -/
def stamped (t : Trail) (l : Logged) : AuditEvent := (t.during l).stamp l.event

def log (t : Trail) (l : Logged) : DiskAct (Option String) := (t.during l).record l.actor l.event

/-- The disk after a sequence of records. -/
def after (t : Trail) (d : Disk) (ls : List Logged) : Disk := ls.foldl (fun d l => (t.log l d).2) d

theorem Fits.log (h : t.Fits d) (l : Logged) :
    ∃ e, t.log l d = (.ok none, e) ∧
      t.Adds (Text.encodeUtf8 ((t.stamped l).text l.actor ++ "\n")) d e ∧ t.Fits e := by
  have hduring : (t.during l).Fits d := ⟨h.enabled, h.backups, h.named, h.apart, h.home, h.files⟩
  obtain ⟨e, hline, hadds, hfits⟩ := hduring.addLine ((t.stamped l).text l.actor ++ "\n")
  refine ⟨e, ?_, ⟨hadds.stays, hadds.rotates, hadds.bounded, hadds.others⟩,
    ⟨hfits.enabled, hfits.backups, hfits.named, hfits.apart, hfits.home, hfits.files⟩⟩
  unfold Trail.log record
  rw [if_pos hduring.enabled]
  exact hline

theorem Fits.after (h : t.Fits d) (ls : List Logged) : t.Fits (t.after d ls) := by
  induction ls generalizing d with
  | nil => exact h
  | cons l ls ih =>
      obtain ⟨e, hlog, -, hfits⟩ := h.log l
      have hnext : t.after d (l :: ls) = t.after e ls := by
        rw [Trail.after, List.foldl_cons, hlog]
        rfl
      rw [hnext]
      exact ih hfits

theorem encodeUtf8_line (s : String) : Text.encodeUtf8 (s ++ "\n") ≠ [] := by
  rw [Text.encodeUtf8, String.toList_append, List.flatMap_append]
  exact List.append_ne_nil_of_right_ne_nil _ (by decide)

/-- As long as there is room for one more backup, a record is left in the history. -/
theorem Fits.log_ne (h : t.Fits d) (hfree : content d (slot t.path t.count) = []) (l : Logged) :
    (t.log l d).2 ≠ d := by
  obtain ⟨e, hlog, hadds, -⟩ := h.log l
  generalize (t.stamped l).text l.actor = record at hadds
  have hhistory : t.history e = t.history d ++ Text.encodeUtf8 (record ++ "\n") := by
    by_cases hroom : ((content d t.path ++ Text.encodeUtf8 (record ++ "\n")).length : Int) ≤ t.maxSizeBytes
    · exact hadds.stays hroom
    · have hrotates := hadds.rotates (lt_of_not_ge hroom)
      rwa [hfree, List.nil_append] at hrotates
  rw [hlog]
  rintro rfl
  exact encodeUtf8_line record (List.append_right_eq_self.mp hhistory.symm)

end Trail

end CatalogSteward
