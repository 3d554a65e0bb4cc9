import CatalogSteward.Proofs.Audit.History
import CatalogSteward.Proofs.Audit.Refusals
import CatalogSteward.Proofs.Disk.Attempts

/-!
# What a rotation leaves of the log

A rotation may fail at any of its steps, and the log may be one of its own backups, so that it has moved
when its turn comes. In each case the log or a backup holds afterwards what the log held before, with one
exception: a log that is its own last backup is what the rotation removes first.
-/

namespace CatalogSteward

namespace Trail
open Disk

variable {t : Trail} {path : Path} {count m n : Nat} {bytes : List UInt8} {d e : Disk}

/-! ### The places of a trail -/

/-- Each file of a trail, if its path leads anywhere, is a regular file or missing, and different paths lead
to different places. -/
structure Placed (path : Path) (count : Nat) (d : Disk) : Prop where
  reach : ∀ i ≤ count, d.MayReach (slot path i)
  apart : ∀ i ≤ count, ∀ j ≤ count, slot path i ≠ slot path j → d.Apart (slot path i) (slot path j)

theorem Placed.keep (h : Placed path count d) (hsame : SameDirectories d e) : Placed path count e :=
  ⟨fun i hi => (h.reach i hi).keep hsame, fun i hi j hj hne => (h.apart i hi j hj hne).keep hsame⟩

theorem slot_of_pos (h : 0 < n) : slot path n = backup path n := by
  cases n with
  | zero => exact absurd h (Nat.lt_irrefl 0)
  | succ k => rfl

theorem backup_ne (h : m ≠ n) : backup path m ≠ backup path n :=
  fun heq => h (backup_name_injective (congrArg Path.name heq))

/-- In a directory the files of a trail are told apart by their names. -/
theorem placed {home : List String} (hhome : d.IsHome path.parent home) (hnamed : IsNamed path)
    (hnul : path.hasNul = false) (hfree : ∀ i ≤ count, d.entry (slot path i) ≠ .ok .directory) :
    Placed path count d := by
  have hplace {i : Nat} {names : List String} (hlocate : d.locate (slot path i) = .ok names) :
      names = home ++ [(slot path i).name] := by
    have hslot : d.IsHome (slot path i).parent home := slot_parent path i ▸ hhome
    rcases hslot.locate (isNamed_slot hnamed i) with hok | hlong
    · exact Except.ok.inj (hlocate.symm.trans hok)
    · rw [hlong] at hlocate
      cases hlocate
  constructor
  · intro i hi names hlocate
    refine ⟨?_, hlocate, ?_, fun hdirectory => hfree i hi ?_⟩
    · cases i with
      | zero => exact hnul
      | succ n => exact backup_hasNul hnul (n + 1)
    · rw [hplace hlocate]
      exact (isNamed_slot hnamed i).not_isGiven home
    · rw [entry_of_locate hlocate, hdirectory]
  · intro i _ j _ hne names hlocate hother
    have hnames := (hplace hlocate).symm.trans (hplace hother)
    have hname : (slot path i).name = (slot path j).name := by simpa using hnames
    have hparent : (slot path i).parent = (slot path j).parent := by rw [slot_parent, slot_parent]
    exact hne (eq_of_name (isNamed_slot hnamed i) (isNamed_slot hnamed j) hparent hname)

/-! ### One rotation -/

/-- The log or one of its backups holds the given bytes. -/
def Survives (path : Path) (count : Nat) (bytes : List UInt8) (d : Disk) : Prop :=
  ∃ i ≤ count, Disk.read (slot path i) d = .ok bytes

/-- What the log held, when the backups up to `n` are still to be moved: it is in the log, and the log is
none of the backups that had their turn; or it is in one of these, and that one is not the log. -/
inductive Carried (path : Path) (count : Nat) (bytes : List UInt8) (n : Nat) (d : Disk) : Prop
  | log (hapart : ∀ m, n < m → m ≤ count → backup path m ≠ path) (hread : Disk.read path d = .ok bytes)
  | moved (m : Nat) (hmoved : n + 1 < m) (hm : m ≤ count) (hne : backup path m ≠ path)
      (hread : Disk.read (backup path m) d = .ok bytes)

theorem survives_backup (hpos : 0 < m) (hm : m ≤ count) (hread : Disk.read (backup path m) d = .ok bytes) :
    Survives path count bytes d :=
  ⟨m, hm, slot_of_pos hpos ▸ hread⟩

theorem Carried.survives (h : Carried path count bytes n d) : Survives path count bytes d := by
  cases h with
  | log _ hread => exact ⟨0, Nat.zero_le _, hread⟩
  | moved m hmoved hm _ hread => exact survives_backup (by omega) hm hread

/-- A disk while a rotation is under way. -/
structure Underway (path : Path) (count : Nat) (bytes : List UInt8) (n : Nat) (d : Disk) : Prop where
  placed : Placed path count d
  carried : Carried path count bytes n d

namespace Placed

theorem reach_backup (h : Placed path count d) (hpos : 0 < m) (hm : m ≤ count) : d.MayReach (backup path m) :=
  slot_of_pos hpos ▸ h.reach m hm

theorem apart_log (h : Placed path count d) (hpos : 0 < m) (hm : m ≤ count) (hne : backup path m ≠ path) :
    d.Apart path (backup path m) := by
  have hslot := h.apart 0 (Nat.zero_le _) m hm
  rw [slot_of_pos hpos] at hslot
  exact hslot hne.symm

theorem apart_backup (h : Placed path count d) (hpos : 0 < m) (hm : m ≤ count) (hn : 0 < n) (hn' : n ≤ count)
    (hne : m ≠ n) : d.Apart (backup path m) (backup path n) := by
  have hslot := h.apart m hm n hn'
  rw [slot_of_pos hpos, slot_of_pos hn] at hslot
  exact hslot (backup_ne hne)

end Placed

namespace Underway

/-- One backup is moved to the next place, or the attempt fails. -/
theorem move (h : Underway path count bytes (n + 1) d) (hn : n + 2 ≤ count) :
    Ensures d (Disk.rename (backup path (n + 1)) (backup path (n + 2)))
      (Underway path count bytes n) (Survives path count bytes) := by
  obtain ⟨hplaced, hcarried⟩ := h
  obtain ⟨hspares, hmoves⟩ :=
    (hplaced.reach_backup (Nat.succ_pos n) (by omega)).rename (hplaced.reach_backup (Nat.succ_pos _) hn)
  have hkept := hplaced.keep hspares.directories
  cases hcarried with
  | log hapart hread =>
      have hnext : backup path (n + 2) ≠ path := hapart (n + 2) (by omega) hn
      by_cases hlog : backup path (n + 1) = path
      · -- It is the log's turn, as one of its own backups.
        refine ((hmoves bytes (hlog.symm ▸ hread)).and_always hkept).imp (fun e he => ⟨he.1, ?_⟩) fun e he => ?_
        · exact .moved (n + 2) (by omega) hn hnext he.2
        · exact survives_backup (Nat.succ_pos n) (by omega) he
      · have hstill := hspares.files path bytes
          (List.forall_mem_cons.mpr ⟨hplaced.apart_log (Nat.succ_pos n) (by omega) hlog,
            List.forall_mem_singleton.mpr (hplaced.apart_log (Nat.succ_pos _) hn hnext)⟩) hread
        have hlast : ∀ m, n < m → m ≤ count → backup path m ≠ path := by
          intro m hlt hm
          rcases Nat.eq_or_lt_of_le hlt with rfl | hlt
          · exact hlog
          · exact hapart m hlt hm
        exact .of_always ⟨hkept, .log hlast hstill⟩ ⟨0, Nat.zero_le _, hstill⟩
  | moved m hmoved hm hne hread =>
      have hstill := hspares.files (backup path m) bytes
        (List.forall_mem_cons.mpr ⟨hplaced.apart_backup (by omega) hm (Nat.succ_pos n) (by omega) (by omega),
          List.forall_mem_singleton.mpr (hplaced.apart_backup (by omega) hm (Nat.succ_pos _) hn (by omega))⟩) hread
      exact .of_always ⟨hkept, .moved m (by omega) hm hne hstill⟩ (survives_backup (by omega) hm hstill)

/-- A backup that is missing is not the log, so the log need not move with it. -/
theorem skip (h : Underway path count bytes (n + 1) d)
    (hmissing : Disk.pathExists (backup path (n + 1)) d = .ok false) : Underway path count bytes n d := by
  refine ⟨h.placed, ?_⟩
  cases h.carried with
  | log hapart hread =>
      refine .log (fun m hlt hm => ?_) hread
      rcases Nat.eq_or_lt_of_le hlt with rfl | hlt
      · intro hlog
        obtain ⟨hnul, names, mode, hlocate, hfile⟩ := read_eq_ok_iff.mp hread
        rw [hlog, Disk.pathExists, hnul, if_neg Bool.false_ne_true, entry_of_locate hlocate, hfile] at hmissing
        cases hmissing
      · exact hapart m hlt hm
  | moved m hmoved hm hne hread => exact .moved m (by omega) hm hne hread

theorem shift (h : Underway path count bytes n d) (hn : n + 1 ≤ count) :
    Ensures d (Trail.shift path n) (Underway path count bytes 0) (Survives path count bytes) := by
  induction n generalizing d with
  | zero => exact .pure h
  | succ n ih =>
      have hrest (e : Disk) (he : Underway path count bytes n e) := ih he (by omega)
      refine .get_bind ?_
      split
      · exact (h.move hn).bind hrest
      · next hmissing => exact hrest d (h.skip hmissing)
      · exact (Ensures.throw h.carried.survives).bind hrest

/-- The log becomes the first backup, or the attempt fails. -/
theorem start (h : Underway path count bytes 0 d) (hcount : 0 < count) :
    Ensures d (Disk.rename path (backup path 1))
      (fun e => Placed path count e ∧ Survives path count bytes e) (Survives path count bytes) := by
  obtain ⟨hplaced, hcarried⟩ := h
  have hlog : d.MayReach path := hplaced.reach 0 (Nat.zero_le _)
  obtain ⟨hspares, hmoves⟩ := hlog.rename (hplaced.reach_backup Nat.one_pos hcount)
  have hkept := hplaced.keep hspares.directories
  cases hcarried with
  | log _ hread =>
      refine ((hmoves bytes hread).and_always hkept).imp (fun e he => ⟨he.1, ?_⟩) fun e he => ?_
      · exact survives_backup Nat.one_pos hcount he.2
      · exact ⟨0, Nat.zero_le _, he⟩
  | moved m hmoved hm hne hread =>
      have hstill := hspares.files (backup path m) bytes
        (List.forall_mem_cons.mpr ⟨(hplaced.apart_log (by omega) hm hne).symm,
          List.forall_mem_singleton.mpr (hplaced.apart_backup (by omega) hm Nat.one_pos hcount (by omega))⟩) hread
      have hsurvives := survives_backup (by omega) hm hstill
      exact .of_always ⟨hkept, hsurvives⟩ hsurvives

end Underway

/-- Unless the log is its own last backup, a rotation keeps what it held. -/
theorem Placed.rotate {c : Nat} (h : Placed path (c + 1) d) (hapart : backup path (c + 1) ≠ path)
    (hread : Disk.read path d = .ok bytes) : Survives path (c + 1) bytes (Trail.rotate path (c + 1) d).2 := by
  have hremove : Ensures d (Disk.removeFile (backup path (c + 1)))
      (Underway path (c + 1) bytes c) (Survives path (c + 1) bytes) := by
    have hspares := (h.reach_backup (Nat.succ_pos c) (Nat.le_refl _)).removeFile
    have hstill := hspares.files path bytes
      (List.forall_mem_singleton.mpr (h.apart_log (Nat.succ_pos c) (Nat.le_refl _) hapart)) hread
    have hlast : ∀ m, c < m → m ≤ c + 1 → backup path m ≠ path := by
      intro m hlt hm
      rwa [Nat.le_antisymm hm hlt]
    exact .of_always ⟨h.keep hspares.directories, .log hlast hstill⟩ ⟨0, Nat.zero_le _, hstill⟩
  have htouch (e : Disk) (he : Placed path (c + 1) e ∧ Survives path (c + 1) bytes e) :
      Ensures e (Disk.touch path fileMode) (Survives path (c + 1) bytes) (Survives path (c + 1) bytes) := by
    obtain ⟨hplaced, i, hi, hfile⟩ := he
    have hlog : e.MayReach path := hplaced.reach 0 (Nat.zero_le _)
    have hstill := (hlog.touch fileMode).files (slot path i) bytes (fun _ hp => by cases hp) hfile
    exact .of_always ⟨i, hi, hstill⟩ ⟨i, hi, hstill⟩
  have hrotate : Ensures d (Trail.rotate path (c + 1)) (Survives path (c + 1) bytes) (Survives path (c + 1) bytes) :=
    hremove.bind fun _ hd₁ => (hd₁.shift (Nat.le_refl _)).bind fun _ hd₂ =>
      (hd₂.start (Nat.succ_pos c)).bind htouch
  exact hrotate.always

/-! ### Rotations of a large log -/

theorem mentioning_refused {a : Disk.Action Unit} {problem : Problem} {p : Path} {target : Option Path}
    (h : a d = (.error (.refused problem p target), e)) (words : String) :
    mentioning words a d = (.ok (some (words ++ (Fault.refused problem p target).message)), e) := by
  have hrun : a.run d = (.error (.refused problem p target), e) := h
  rw [mentioning, run_get_bind, hrun]
  rfl

theorem Placed.rotateIfLarge (h : Placed t.path t.count d) (hbackups : 1 ≤ t.backupCount)
    (hapart : backup t.path t.count ≠ t.path) (hread : Disk.read t.path d = .ok bytes) :
    Survives t.path t.count bytes (t.rotateIfLarge d).2 := by
  rw [rotateIfLarge_apply hbackups hread, mentioning_disk]
  split
  · obtain ⟨c, hc⟩ : ∃ c, t.count = c + 1 := ⟨t.count - 1, by unfold count; omega⟩
    rw [hc] at h hapart ⊢
    exact h.rotate hapart hread
  · exact ⟨0, Nat.zero_le _, hread⟩

/-- The line goes to the end of the log, and whatever comes of the rotation after it, both are kept. -/
theorem Placed.addLine (h : Placed t.path t.count d) {home : List String} (hhome : d.IsHome t.path.parent home)
    (hbackups : 1 ≤ t.backupCount) (hapart : backup t.path t.count ≠ t.path)
    (hread : Disk.read t.path d = .ok bytes) (line : String) :
    Survives t.path t.count (bytes ++ Text.encodeUtf8 line) (t.addLine line d).2 := by
  obtain ⟨-, names, mode, hlocate, hfile⟩ := read_eq_ok_iff.mp hread
  have hreach : d.Reaches t.path names := h.reach 0 (Nat.zero_le _) names hlocate
  have hheld : d.held names = bytes := by rw [held, hfile]
  obtain ⟨e, kept, happend, he⟩ := append_apply hhome hreach line
  have hsame := hreach.sameDirectories (fun hdirectory => by cases hdirectory) he
  have hline : Disk.read t.path e = .ok (bytes ++ Text.encodeUtf8 line) := by
    refine read_eq_ok_iff.mpr ⟨hreach.nul, names, kept, locate_eq_ok hsame hlocate, ?_⟩
    rw [he, Function.update_self, hheld]
  unfold Trail.addLine
  rw [run_bind (mentioning_apply happend _)]
  exact (h.keep hsame).rotateIfLarge hbackups hapart hline

/-- Whether or not the rotation of a large log fails, the log or one of its backups holds afterwards what
the log held before, if only the log is not its own last backup. The same is true of a log and the line
that is added to it. -/
theorem rotation_keeps_the_log {s : AuditSettings} {d : Disk} {bytes : List UInt8} (hs : s.IsAccepted)
    (htree : d.IsTree) (hlog : Disk.read s.logPath d = .ok bytes)
    (hbackups : ∀ n, 0 < n → n ≤ s.backupCount.toNat → d.entry (backup s.logPath n) ≠ .ok .directory)
    (hapart : backup s.logPath s.backupCount.toNat ≠ s.logPath) {t : Trail} {ticket : Nat} {ids : List String}
    (htrail : t = { Trail.ofSettings s ticket with correlations := ids }) :
    (∃ mention e, t.rotateIfLarge d = (.ok mention, e) ∧ Survives s.logPath s.backupCount.toNat bytes e) ∧
      ∀ actor event, ∃ mention e, t.record actor event d = (.ok mention, e) ∧
        Survives s.logPath s.backupCount.toNat
          (if s.enabled then bytes ++ Text.encodeUtf8 ((t.stamp event).text actor ++ "\n") else bytes) e := by
  have hpath : t.path = s.logPath := by rw [htrail]; rfl
  have hcount : t.count = s.backupCount.toNat := by rw [htrail]; rfl
  have hkeeps : 1 ≤ t.backupCount := by rw [htrail]; exact hs.backupCount
  have hnamed : IsNamed s.logPath := htree.isNamed hs.logPath hlog
  obtain ⟨home, hhome⟩ := hnamed.isHome_parent hlog
  obtain ⟨hnul, names, mode, hlocate, hfile⟩ := read_eq_ok_iff.mp hlog
  have hplaced : Placed s.logPath s.backupCount.toNat d := by
    refine placed hhome hnamed hnul fun i hi => ?_
    cases i with
    | zero =>
        rw [slot, entry_of_locate hlocate, hfile]
        exact fun hdirectory => by cases hdirectory
    | succ n => exact hbackups (n + 1) (Nat.succ_pos n) hi
  rw [← hcount, ← hpath] at hplaced hapart ⊢
  rw [← hpath] at hhome hlog hnul
  constructor
  · obtain ⟨mention, e, hrotate⟩ := rotateIfLarge_ok hnul hkeeps d
    have hkept := hplaced.rotateIfLarge hkeeps hapart hlog
    rw [hrotate] at hkept
    exact ⟨mention, e, hrotate, hkept⟩
  · intro actor event
    obtain ⟨mention, e, hrecord⟩ := record_ok (fun _ => ⟨hnul, hkeeps⟩) actor event d
    refine ⟨mention, e, hrecord, ?_⟩
    have henabled : t.enabled = s.enabled := by rw [htrail]; rfl
    unfold record at hrecord
    rw [← henabled]
    split at hrecord
    · next hon =>
        have hkept := hplaced.addLine hhome hkeeps hapart hlog ((t.stamp event).text actor ++ "\n")
        rw [hrecord] at hkept
        rwa [if_pos hon]
    · next hoff =>
        obtain rfl : d = e := congrArg Prod.snd hrecord
        rw [if_neg hoff]
        exact ⟨0, Nat.zero_le _, hlog⟩

/-- A log that is named like the first of its backups. -/
def numbered (backupCount : Int) : AuditSettings where
  enabled := true
  logPath := .ofText "audit.1"
  maxSizeMb := 1
  backupCount := backupCount

/-- Just more than the limit. -/
def numberedLog : List UInt8 := List.replicate (1024 * 1024 + 1) 0x61

def numberedDisk : Disk where
  entries := [(["audit.1"], .file numberedLog fileMode), (["audit.2"], .file [0x32] fileMode)]

/-- With two backups the log is the first of them, and moves to the place of the second. -/
theorem rotation_keeps_the_log_moved :
    (numbered 2).IsAccepted ∧ numberedDisk.IsTree ∧
      Disk.read (numbered 2).logPath numberedDisk = .ok numberedLog ∧
      (∀ n, 0 < n → n ≤ 2 → numberedDisk.entry (backup (numbered 2).logPath n) ≠ .ok .directory) ∧
      backup (numbered 2).logPath 2 ≠ (numbered 2).logPath ∧
      ∃ mention e, (Trail.ofSettings (numbered 2) 1).rotateIfLarge numberedDisk = (.ok mention, e) ∧
        Survives (numbered 2).logPath 2 numberedLog e := by
  have hs : (numbered 2).IsAccepted := ⟨Path.isClean_ofText _, by decide, by decide⟩
  have htree : numberedDisk.IsTree := by decide +kernel
  have hlog : Disk.read (numbered 2).logPath numberedDisk = .ok numberedLog := by rfl
  have hbackups : ∀ n, 0 < n → n ≤ 2 → numberedDisk.entry (backup (numbered 2).logPath n) ≠ .ok .directory := by
    intro n hpos hn
    have hfirst : backup (numbered 2).logPath 1 = ⟨0, ["audit.1"]⟩ := by decide +kernel
    have hsecond : backup (numbered 2).logPath 2 = ⟨0, ["audit.2"]⟩ := by decide +kernel
    obtain rfl | rfl : n = 1 ∨ n = 2 := by omega
    · rw [hfirst]
      exact fun hdirectory => by cases hdirectory
    · rw [hsecond]
      exact fun hdirectory => by cases hdirectory
  have hapart : backup (numbered 2).logPath 2 ≠ (numbered 2).logPath := by decide +kernel
  exact ⟨hs, htree, hlog, hbackups, hapart, (rotation_keeps_the_log hs htree hlog hbackups hapart rfl).1⟩

/-! ### The exception -/

/-- A log that is its own last backup is rotated as if it had not been there. -/
theorem rotate_own_backup {names : List String} (hself : backup path count = path) (hreach : d.Reaches path names)
    (hlog : (d.lookup names).isSome = true) : Trail.rotate path count d = Trail.rotate path count (d.erase names) := by
  obtain ⟨content, mode, hfile⟩ : ∃ content mode, d.lookup names = some (.file content mode) := by
    rcases hreach.cases with hnone | hfile
    · rw [hnone] at hlog
      cases hlog
    · exact hfile
  have hremove : Disk.removeFile path d = (.ok (), d.erase names) := by
    unfold Disk.removeFile
    rw [hreach.nul, if_neg Bool.false_ne_true]
    dsimp only
    rw [run_get_bind, hreach.located]
    dsimp only
    rw [run_get_bind, hfile]
    rfl
  have hagain : Disk.removeFile path (d.erase names) = (.ok (), d.erase names) := by
    have hsame := hreach.sameDirectories (fun hnone => by cases hnone) hreach.lookup_erase
    unfold Disk.removeFile
    rw [hreach.nul, if_neg Bool.false_ne_true]
    dsimp only
    rw [run_get_bind, locate_eq_ok hsame hreach.located]
    dsimp only
    rw [run_get_bind, lookup_erase_self hreach.stored]
    rfl
  unfold Trail.rotate
  rw [hself, run_bind hremove, run_bind hagain]

/-- With one backup the log is that backup. The rotation removes it, then it misses it, and nothing is left
of what it held. -/
theorem own_backup_is_lost :
    (numbered 1).IsAccepted ∧ numberedDisk.IsTree ∧
      Disk.read (numbered 1).logPath numberedDisk = .ok numberedLog ∧
      (∀ i ≤ 1, numberedDisk.IsFileOrMissing (slot (numbered 1).logPath i)) ∧
      (∃ e, (Trail.ofSettings (numbered 1) 1).rotateIfLarge numberedDisk =
        (.ok (some "Audit log rotation failed: [Errno 2] No such file or directory: 'audit.1' -> 'audit.1'"), e) ∧
        ¬Survives (numbered 1).logPath 1 numberedLog e) := by
  have hs : (numbered 1).IsAccepted := ⟨Path.isClean_ofText _, by decide, by decide⟩
  have htree : numberedDisk.IsTree := by decide +kernel
  have hlog : Disk.read (numbered 1).logPath numberedDisk = .ok numberedLog := by rfl
  have hself : backup (numbered 1).logPath 1 = (numbered 1).logPath := by decide +kernel
  have hreach : numberedDisk.Reaches (numbered 1).logPath ["audit.1"] :=
    ⟨by rfl, by rfl, by decide +kernel, fun hdirectory => by cases hdirectory⟩
  have hfiles : ∀ i ≤ 1, numberedDisk.IsFileOrMissing (slot (numbered 1).logPath i) := by
    intro i hi
    have hslot : slot (numbered 1).logPath i = (numbered 1).logPath := by
      obtain rfl | rfl : i = 0 ∨ i = 1 := by omega
      · rfl
      · exact hself
    rw [hslot]
    exact hreach.isFileOrMissing
  refine ⟨hs, htree, hlog, hfiles, (numberedDisk.erase ["audit.1"]), ?_, ?_⟩
  · have hlarge : (Trail.ofSettings (numbered 1) 1).maxSizeBytes < numberedLog.length := by
      rw [numberedLog, List.length_replicate]
      decide
    rw [rotateIfLarge_apply (by decide) hlog, if_pos hlarge]
    have hrotate : Trail.rotate (numbered 1).logPath 1 numberedDisk =
        (.error (.refused .missing ⟨0, ["audit.1"]⟩ (some ⟨0, ["audit.1"]⟩)), numberedDisk.erase ["audit.1"]) := by
      rw [rotate_own_backup hself hreach rfl, Trail.rotate, hself]
      rfl
    have hmessage : "Audit log rotation failed: " ++
        (Fault.refused .missing ⟨0, ["audit.1"]⟩ (some ⟨0, ["audit.1"]⟩)).message =
        "Audit log rotation failed: [Errno 2] No such file or directory: 'audit.1' -> 'audit.1'" := by decide +kernel
    rw [← hmessage]
    exact mentioning_refused hrotate _
  · rintro ⟨i, hi, hread⟩
    have hslot : slot (numbered 1).logPath i = (numbered 1).logPath := by
      obtain rfl | rfl : i = 0 ∨ i = 1 := by omega
      · rfl
      · exact hself
    rw [hslot] at hread
    cases hread

end Trail

end CatalogSteward
