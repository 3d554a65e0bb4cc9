import CatalogSteward.Proofs.Act
import CatalogSteward.Proofs.Audit.Rotation
import CatalogSteward.Proofs.Except
import CatalogSteward.Proofs.Settings.Validation

/-!
# What goes wrong with a trail is only mentioned

Whatever stands in the way on the disk, an operation on a path that can be passed to the operating system
fails, if it fails, because it was refused, and a refusal fails no record. So a trail that keeps a backup
under such a path can be written to from everywhere: what comes of it is a line on the console at most.
-/

namespace CatalogSteward

/-! ### Operations -/

namespace Disk

/-- An operation that fails, if it fails, because the operating system refuses it. -/
def Refusable {α : Type} (a : Action α) : Prop := ∀ d, OnlyFails (· ≠ .nulInPath) (a d).1

variable {α β : Type} {p q : Path}

namespace Refusable

variable {a : Action α}

theorem pure (x : α) : Refusable (pure x) := fun _ => .ok x

theorem throw {f : Fault} (h : f ≠ .nulInPath) : Refusable (throw f : Action α) := fun _ => .error h

theorem refuse (problem : Problem) (p : Path) : Refusable (refuse problem p : Action α) := throw Fault.noConfusion

theorem modify (f : Disk → Disk) : Refusable (modify f : Action Unit) := fun _ => .ok _

theorem set (d : Disk) : Refusable (set d : Action Unit) := fun _ => .ok _

theorem bind (ha : Refusable a) {f : α → Action β} (hf : ∀ x, Refusable (f x)) : Refusable (a >>= f) := by
  intro d
  have hfails := ha d
  rcases hrun : a d with ⟨g | x, e⟩ <;> rw [hrun] at hfails
  · rw [run_bind_error hrun]
    exact .error (hfails g rfl)
  · rw [run_bind hrun]
    exact hf x e

theorem get_bind {f : Disk → Action β} (hf : ∀ d, Refusable (f d)) : Refusable (get >>= f) := fun d => hf d d

theorem tryCatch (ha : Refusable a) {handle : Fault → Action α} (h : ∀ f ≠ .nulInPath, Refusable (handle f)) :
    Refusable (tryCatch a handle) := by
  intro d
  have hfails := ha d
  rcases hrun : a d with ⟨g | x, e⟩ <;> rw [hrun] at hfails
  · rw [run_tryCatch hrun]
    exact h g (hfails g rfl) e
  · rw [run_tryCatch_ok hrun]
    exact .ok x

end Refusable

theorem locating_refusable (h : p.hasNul = false) : Refusable (locating p) := by
  unfold locating
  rw [h]
  refine .get_bind fun d => ?_
  split
  · exact .pure _
  · exact .refuse _ _

theorem update_refusable (h : p.hasNul = false) (mode : Nat) (f : List UInt8 → List UInt8) :
    Refusable (update p mode f) := by
  refine (locating_refusable h).bind fun names => .get_bind fun d => ?_
  split
  · exact .refuse _ _
  · exact .modify _
  · exact .modify _

theorem touch_refusable (h : p.hasNul = false) (mode : Nat) : Refusable (touch p mode) := by
  refine .get_bind fun d => ?_
  split
  · rw [h]
    exact .pure ()
  · exact update_refusable h mode id

theorem makeDirectory_refusable (h : p.hasNul = false) : Refusable (makeDirectory p) := by
  refine (locating_refusable h).bind fun names => .get_bind fun d => ?_
  split
  · exact .refuse _ _
  · exact .modify _

theorem isDirectory_refusable (d : Disk) : OnlyFails (· ≠ .nulInPath) (d.isDirectory p) := by
  unfold isDirectory
  split
  · exact .ok _
  · split <;> first | exact .ok _ | exact .error Fault.noConfusion

theorem ensureDirectory_refusable (h : p.hasNul = false) : Refusable (ensureDirectory p) := by
  refine (makeDirectory_refusable h).tryCatch fun f hf => .get_bind fun d => ?_
  split
  · exact .throw hf
  · exact .pure ()
  · next hproblem => exact .throw (isDirectory_refusable d _ hproblem)
  · exact .throw hf

theorem ensureDirectories_refusable (h : p.hasNul = false) (levels : Nat) :
    Refusable (ensureDirectories levels p) := by
  induction levels generalizing p with
  | zero => exact ensureDirectory_refusable h
  | succ levels ih =>
      refine (ensureDirectory_refusable h).tryCatch fun f hf => ?_
      split
      · split
        · exact .throw hf
        · exact (ih (Path.hasNul_parent h)).bind fun _ => ensureDirectory_refusable h
      · exact .throw hf

theorem removeFile_refusable (h : p.hasNul = false) : Refusable (removeFile p) := by
  unfold removeFile
  rw [h]
  refine .get_bind fun d => ?_
  split
  · exact .pure ()
  · exact .refuse _ _
  · refine .get_bind fun d => ?_
    split
    · exact .pure ()
    · exact .refuse _ _
    · exact .modify _

theorem rename_refusable (hp : p.hasNul = false) (hq : q.hasNul = false) :
    Refusable (rename p q) := by
  unfold rename
  rw [hp, hq]
  refine .get_bind fun d => ?_
  have hfail (problem : Problem) : Refusable (throw (.refused problem p (some q)) : Action Unit) :=
    .throw Fault.noConfusion
  dsimp only
  split
  · exact hfail _
  · exact hfail _
  · split
    · exact hfail _
    · exact hfail _
    · exact hfail _
    · split
      · exact .pure ()
      · split
        · exact hfail _
        · exact .set _
    · split
      · exact .pure ()
      · exact .set _
    · exact .set _

theorem pathExists_refusable (p : Path) (d : Disk) : OnlyFails (· ≠ .nulInPath) (pathExists p d) := by
  unfold pathExists
  split
  · exact .ok _
  · split <;> first | exact .ok _ | exact .error Fault.noConfusion

theorem read_refusable (h : p.hasNul = false) (d : Disk) : OnlyFails (· ≠ .nulInPath) (read p d) := by
  unfold read
  rw [h]
  rcases d.entry p with _ | _ | _
  · exact .error Fault.noConfusion
  · exact .ok _
  · exact .error Fault.noConfusion

end Disk

/-! ### Trails -/

/-- Settings of a trail that is not kept, or under a path that can be passed to the operating system. -/
def AuditSettings.IsOpenable (s : AuditSettings) : Prop := s.enabled = true → s.logPath.hasNul = false

namespace Trail
open Disk

variable {path : Path} {t : Trail}

theorem backup_hasNul (h : path.hasNul = false) (n : Nat) : (backup path n).hasNul = false := by
  have hparts : (backup path n).parts = path.parts.dropLast ++ [(backup path n).name] := by
    rw [backup_name]
    rfl
  have hname : '\x00' ∉ path.name.toList := by
    unfold Path.name
    cases hlast : path.parts.getLast? with
    | none => exact List.not_mem_nil
    | some part => exact Path.hasNul_eq_false.mp h part (List.mem_of_getLast? hlast)
  rw [Path.hasNul_eq_false, hparts]
  refine List.forall_mem_append.mpr ⟨Path.hasNul_eq_false.mp (Path.hasNul_parent h), ?_⟩
  refine List.forall_mem_singleton.mpr ?_
  rw [backup_name, String.toList_append, String.toList_append, String.toList_ofList, List.mem_append]
  rintro (hstem | hsuffix)
  · exact hname (mem_stem hstem)
  · have hdigits : '\x00' ∈ Decimal.natChars n := by simpa [Decimal.natText] using hsuffix
    exact absurd (Decimal.isDigit_natChars n _ hdigits) (by decide)

theorem append_refusable (h : path.hasNul = false) (line : String) : Refusable (Trail.append path line) :=
  (ensureDirectories_refusable (Path.hasNul_parent h) _).bind fun _ => update_refusable h _ _

theorem shift_refusable (h : path.hasNul = false) (n : Nat) : Refusable (shift path n) := by
  induction n with
  | zero => exact .pure ()
  | succ n ih =>
      refine .get_bind fun d => ?_
      split
      · exact (rename_refusable (backup_hasNul h _) (backup_hasNul h _)).bind fun _ => ih
      · exact ih
      · next hproblem => exact (Refusable.throw (pathExists_refusable _ d _ hproblem)).bind fun _ => ih

theorem rotate_refusable (h : path.hasNul = false) (count : Nat) : Refusable (rotate path count) := by
  refine (removeFile_refusable (backup_hasNul h _)).bind fun _ => ?_
  refine (shift_refusable h _).bind fun _ => ?_
  exact (rename_refusable h (backup_hasNul h _)).bind fun _ => touch_refusable h _

theorem size_refusable (h : path.hasNul = false) : Refusable (size path) := by
  refine .get_bind fun d => ?_
  split
  · exact .pure _
  · next hproblem => exact .throw (read_refusable h d _ hproblem)

/-- A refusal is no failure, but at most something to mention. -/
theorem mentioning_ok {a : Disk.Action Unit} (h : Refusable a) (words : String) (d : Disk) :
    ∃ mention e, mentioning words a d = (.ok mention, e) := by
  have hfails : OnlyFails (· ≠ .nulInPath) (a.run d).1 := h d
  rw [mentioning, run_get_bind]
  rcases hrun : a.run d with ⟨f | _, e⟩
  · rw [hrun] at hfails
    cases f with
    | refused problem p target => exact ⟨_, _, rfl⟩
    | nulInPath => exact absurd rfl (hfails _ rfl)
  · exact ⟨_, _, rfl⟩

/-- A trail that is not kept at all, or under a path that can be passed to the operating system and with a
backup at least. -/
def IsSound (t : Trail) : Prop := t.enabled = true → t.path.hasNul = false ∧ 1 ≤ t.backupCount

theorem isSound_ofSettings {s : AuditSettings} (h : s.IsAccepted) (hopenable : s.IsOpenable) (ticket : Nat) :
    (ofSettings s ticket).IsSound :=
  fun henabled => ⟨hopenable henabled, h.backupCount⟩

theorem rotateIfLarge_ok (hpath : t.path.hasNul = false) (hbackups : 1 ≤ t.backupCount) (d : Disk) :
    ∃ mention e, t.rotateIfLarge d = (.ok mention, e) := by
  have hguard (c : Prop) [Decidable c] : ¬(t.backupCount < 1 ∧ c) := fun h => by omega
  unfold rotateIfLarge
  rw [run_get_bind, if_neg (hguard _)]
  refine mentioning_ok (Refusable.bind ?_ fun isLarge => ?_) _ d
  · exact (size_refusable hpath).bind fun _ => .pure _
  · split
    · exact rotate_refusable hpath _
    · exact .pure ()

/-- No failure to write or to rotate fails a record. -/
theorem record_ok (h : t.IsSound) (actor : Actor) (event : AuditEvent) (d : Disk) :
    ∃ mention e, t.record actor event d = (.ok mention, e) := by
  unfold record
  split
  · next henabled =>
      obtain ⟨hpath, hbackups⟩ := h henabled
      obtain ⟨mention, e, hmention⟩ := mentioning_ok (append_refusable hpath _) _ d
      unfold addLine
      rw [run_bind hmention]
      cases mention with
      | some words => exact ⟨_, _, rfl⟩
      | none => exact rotateIfLarge_ok hpath hbackups e
  · exact ⟨none, d, rfl⟩

/-- Under any other path each record fails, once the directories above it are there. -/
theorem record_hasNul {d e : Disk} (henabled : t.enabled = true) (hpath : t.path.hasNul = true)
    (hparent : Disk.makeDirectories t.path.parent d = (.ok (), e)) (actor : Actor) (event : AuditEvent) :
    t.record actor event d = (.error (.fault (.disk .nulInPath)), e) := by
  have happend (line : String) : (Trail.append t.path line).run d = (.error .nulInPath, e) := by
    have hlocating : locating t.path e = (.error .nulInPath, e) := by
      unfold locating
      rw [hpath]
      rfl
    exact (run_bind hparent _).trans (run_bind_error hlocating _)
  have hmentioned (words line : String) :
      mentioning words (Trail.append t.path line) d = (.error (.fault (.disk .nulInPath)), e) := by
    rw [mentioning, run_get_bind, happend]
    rfl
  unfold record addLine
  rw [if_pos henabled, run_bind_error (hmentioned _ _)]

end Trail

/-- The trail, if there is one, fails no record. -/
def World.IsSound (w : World) : Prop := ∀ t ∈ w.trail, t.IsSound

/-- The trail that accepted settings ask for is sound, whatever correlations are open. -/
theorem World.isSound_of_trail {w : World} {s : AuditSettings} (h : s.IsAccepted) (hopenable : s.IsOpenable)
    {ticket : Nat} {ids : List String}
    (htrail : w.trail = some { Trail.ofSettings s ticket with correlations := ids }) : w.IsSound := by
  intro t ht
  obtain rfl := Option.some.inj (htrail.symm.trans ht)
  exact Trail.isSound_ofSettings h hopenable ticket

/-- A record in a sound trail changes the disk, and tells what there is to mention. -/
theorem Act.record_ok {w : World} (h : w.IsSound) (event : AuditEvent) :
    ∃ d added, Act.record event w = (.ok (), { w with disk := d, trace := w.trace ++ added }) ∧
      ∀ x ∈ added, ∃ toErrors markup, x = .line toErrors markup := by
  obtain ⟨disk, _, actor, _, _, _, console, _, _, _, trail, trace⟩ := w
  rw [record, get_bind]
  cases trail with
  | none => exact ⟨disk, [], by rw [List.append_nil]; rfl, by simp⟩
  | some t =>
      obtain ⟨mention, d, hrecord⟩ := Trail.record_ok (h t rfl) actor event disk
      dsimp only
      rw [get_bind, bind_apply, onDisk_apply, hrecord]
      cases mention with
      | none => exact ⟨d, [], by rw [List.append_nil]; rfl, by simp⟩
      | some words =>
          dsimp only
          rw [say_apply, World.said]
          split
          · exact ⟨d, _, rfl, by simp⟩
          · exact ⟨d, [], by rw [List.append_nil], by simp⟩

theorem Act.record_error {w : World} {t : Trail} (htrail : w.trail = some t) {event : AuditEvent} {f : Failure}
    {d : Disk} (h : t.record w.actor event w.disk = (.error f, d)) :
    Act.record event w = (.error f, { w with disk := d }) := by
  have hfailed : onDisk (t.record w.actor event) w = (.error f, { w with disk := d }) := by
    rw [onDisk_apply, h]
  rw [record, get_bind, htrail]
  dsimp only
  rw [get_bind, bind_error hfailed, htrail]

end CatalogSteward
