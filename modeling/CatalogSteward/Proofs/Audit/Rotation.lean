import CatalogSteward.Audit.Trail
import CatalogSteward.Proofs.Decimal
import CatalogSteward.Proofs.Disk

/-!
# Rotation

The files of a trail are the log and its backups. They lie in one directory under names that differ, and
each is a regular file or missing. Then a rotation carries every file one place on, through whatever gaps
there are: the backups are moved from the oldest on, so each of them finds its new place free.
-/

namespace CatalogSteward.Trail
open Disk

/-- The files of a trail: the log, and after it the backups from the youngest on. -/
def slot (path : Path) : Nat → Path
  | 0 => path
  | n + 1 => backup path (n + 1)

/-! ### Names -/

section

variable {path : Path}

theorem backup_parent (path : Path) (n : Nat) : (backup path n).parent = path.parent := by
  simp [backup, Path.withSuffix, Path.parent]

theorem backup_name (path : Path) (n : Nat) :
    (backup path n).name = String.ofList (Path.stem path.name.toList) ++ ("." ++ Decimal.natText n) := by
  simp [backup, Path.withSuffix, Path.name]

theorem natText_injective {m n : Nat} (h : Decimal.natText m = Decimal.natText n) : m = n := by
  rw [← Decimal.valueFrom_natChars m, ← Decimal.valueFrom_natChars n, String.ofList_injective h]

theorem backup_name_injective {m n : Nat} (h : (backup path m).name = (backup path n).name) : m = n := by
  rw [backup_name, backup_name] at h
  have hlist := congrArg String.toList h
  simp only [String.toList_append, List.append_cancel_left_eq] at hlist
  exact natText_injective (String.toList_injective hlist)

theorem mem_stem {cs : List Char} {c : Char} (h : c ∈ Path.stem cs) : c ∈ cs := by
  unfold Path.stem at h
  dsimp only at h
  split at h
  · exact h
  · exact List.mem_of_mem_take h

/-- Backups have names of their own too. -/
theorem isNamed_backup (h : IsNamed path) (n : Nat) : IsNamed (backup path n) := by
  obtain ⟨c, cs, hcs, -⟩ := Decimal.natChars_head n
  have hdigit : Decimal.IsDigit c := Decimal.isDigit_natChars n c (hcs ▸ List.mem_cons_self)
  have hchars : (backup path n).name.toList = Path.stem path.name.toList ++ '.' :: Decimal.natChars n := by
    rw [backup_name]
    simp [Decimal.natText]
  have hmem : c ∈ (backup path n).name.toList := by
    rw [hchars, hcs]
    simp
  have hne {word : String} (hword : (word.toList.any fun d => Decimal.IsDigit d) = false) :
      (backup path n).name ≠ word := by
    rintro rfl
    exact Bool.false_ne_true (hword.symm.trans (List.any_eq_true.mpr ⟨c, hmem, decide_eq_true hdigit⟩))
  have hpart : Path.IsPart (backup path n).name := by
    refine ⟨hne (by decide), hne (by decide), ?_⟩
    rw [hchars, List.mem_append, List.mem_cons]
    rintro (hstem | hpoint | hdigits)
    · exact (h.parts path.name h.name_mem).2.2 (mem_stem hstem)
    · exact absurd hpoint (by decide)
    · exact absurd (Decimal.isDigit_natChars n _ hdigits) (by decide)
  have hparts : (backup path n).parts = path.parts.dropLast ++ [(backup path n).name] := by
    rw [backup_name]
    rfl
  refine ⟨⟨h.slashes, ?_⟩, ?_, hne (by decide)⟩
  · intro part hmem
    rw [hparts, List.mem_append, List.mem_singleton] at hmem
    rcases hmem with hmem | rfl
    · exact h.parts part ((List.dropLast_subset _ hmem))
    · exact hpart
  · rw [hparts]
    simp

theorem slot_parent (path : Path) (i : Nat) : (slot path i).parent = path.parent := by
  cases i with
  | zero => rfl
  | succ n => exact backup_parent path (n + 1)

theorem isNamed_slot (h : IsNamed path) (i : Nat) : IsNamed (slot path i) := by
  cases i with
  | zero => exact h
  | succ n => exact isNamed_backup h (n + 1)

/-- Paths with their own name are told apart by it within a directory. -/
theorem eq_of_name {p q : Path} (hp : IsNamed p) (hq : IsNamed q) (hparent : p.parent = q.parent)
    (hname : p.name = q.name) : p = q := by
  have hparts : p.parts = q.parts := by rw [hp.parts_eq, hq.parts_eq, hparent, hname]
  have hslashes : p.parent.slashes = q.parent.slashes := by rw [hparent]
  change p.slashes = q.slashes at hslashes
  cases p
  cases q
  cases hparts
  cases hslashes
  rfl

theorem slot_name_injective {count : Nat} (h : IsNamed path) (hapart : ∀ i, 0 < i → i ≤ count → backup path i ≠ path)
    {i j : Nat} (hi : i ≤ count) (hj : j ≤ count) (hname : (slot path i).name = (slot path j).name) : i = j := by
  have hlog {n : Nat} (hn : n + 1 ≤ count) : (backup path (n + 1)).name ≠ path.name := fun heq =>
    hapart (n + 1) (Nat.succ_pos n) hn (eq_of_name (isNamed_backup h _) h (backup_parent path _) heq)
  cases i with
  | zero =>
      cases j with
      | zero => rfl
      | succ n => exact absurd hname.symm (hlog hj)
  | succ m =>
      cases j with
      | zero => exact absurd hname (hlog hi)
      | succ n => exact backup_name_injective hname

end

/-! ### The files of a trail -/

/-- The files of a trail lie in one directory, each at a place of its own. -/
structure Kept (path : Path) (count : Nat) (place : Nat → List String) (d : Disk) : Prop where
  home : ∃ names, d.IsHome path.parent names
  reaches : ∀ i ≤ count, d.Reaches (slot path i) (place i)
  distinct : ∀ i ≤ count, ∀ j ≤ count, place i = place j → i = j

/-- Nothing changes but at the places of the trail. -/
def Elsewhere (count : Nat) (place : Nat → List String) (d e : Disk) : Prop :=
  ∀ names, (∀ i ≤ count, names ≠ place i) → e.lookup names = d.lookup names

variable {path : Path} {count : Nat} {place : Nat → List String} {d e f : Disk}

theorem Elsewhere.trans (h : Elsewhere count place d e) (k : Elsewhere count place e f) :
    Elsewhere count place d f :=
  fun names hnames => (k names hnames).trans (h names hnames)

namespace Kept

/-- Files come and go at the places of the trail, and it stays where it is. -/
theorem keep (h : Kept path count place d) (helse : Elsewhere count place d e)
    (hfree : ∀ i ≤ count, e.lookup (place i) ≠ some .directory) : Kept path count place e := by
  have hsame : SameDirectories d e := by
    intro names
    by_cases hplace : ∃ i ≤ count, names = place i
    · obtain ⟨i, hi, rfl⟩ := hplace
      exact ⟨fun hd => absurd hd (h.reaches i hi).free, fun he => absurd he (hfree i hi)⟩
    · rw [helse names fun i hi heq => hplace ⟨i, hi, heq⟩]
  constructor
  · obtain ⟨names, hhome⟩ := h.home
    exact ⟨names, hhome.nul, locate_eq_ok hsame hhome.located, (hsame names).mp hhome.directory⟩
  · intro i hi
    have hreach := h.reaches i hi
    exact ⟨hreach.nul, locate_eq_ok hsame hreach.located, hreach.stored, hfree i hi⟩
  · exact h.distinct

theorem place_ne (h : Kept path count place d) {i j : Nat} (hi : i ≤ count) (hj : j ≤ count) (hne : i ≠ j) :
    place i ≠ place j :=
  fun heq => hne (h.distinct i hi j hj heq)

/-- What a disk with one changed place holds at the places of the trail. -/
theorem lookup_update (h : Kept path count place d) {i : Nat} (hi : i ≤ count) (entry : Option Entry)
    {lookup : List String → Option Entry} {j : Nat} (hj : j ≤ count) :
    Function.update lookup (place i) entry (place j) = if j = i then entry else lookup (place j) := by
  split
  · next heq => rw [heq, Function.update_self]
  · next hne => exact Function.update_of_ne (h.place_ne hj hi hne) _ _

theorem update (h : Kept path count place d) {i : Nat} (hi : i ≤ count) {entry : Option Entry}
    (hentry : entry ≠ some .directory) (he : e.lookup = Function.update d.lookup (place i) entry) :
    Kept path count place e ∧ Elsewhere count place d e := by
  have helse : Elsewhere count place d e := by
    intro names hnames
    rw [he, Function.update_of_ne (hnames i hi)]
  refine ⟨h.keep helse ?_, helse⟩
  intro j hj
  rw [he, h.lookup_update hi entry hj]
  split
  · exact hentry
  · exact (h.reaches j hj).free

/-- One file is moved to the next place, if it is there, and leaves its own place free. -/
theorem move (h : Kept path count place d) {i j : Nat} (hi : i ≤ count) (hj : j ≤ count) (hne : i ≠ j)
    (hfile : (d.lookup (place i)).isSome = true) :
    ∃ e, Disk.rename (slot path i) (slot path j) d = (.ok (), e) ∧ Kept path count place e ∧
      Elsewhere count place d e ∧ ∀ k ≤ count, e.lookup (place k) =
        if k = j then d.lookup (place i) else if k = i then none else d.lookup (place k) := by
  obtain ⟨e, hrename, he⟩ := (h.reaches i hi).rename (h.reaches j hj) (h.place_ne hi hj hne) hfile
  have hlookup : ∀ k ≤ count, e.lookup (place k) =
      if k = j then d.lookup (place i) else if k = i then none else d.lookup (place k) := by
    intro k hk
    rw [he, h.lookup_update hj _ hk, h.lookup_update hi _ hk]
  have helse : Elsewhere count place d e := by
    intro names hnames
    rw [he, Function.update_of_ne (hnames j hj), Function.update_of_ne (hnames i hi)]
  refine ⟨e, hrename, h.keep helse ?_, helse, hlookup⟩
  intro k hk
  rw [hlookup k hk]
  split
  · exact (h.reaches i hi).free
  · split
    · exact fun hnone => by cases hnone
    · exact (h.reaches k hk).free

/-- The backups up to the given one are moved one place on, if the place after the last of them is free.
The first place is free then. -/
theorem shift {n : Nat} (h : Kept path count place d) (hn : n + 1 ≤ count)
    (hfree : d.lookup (place (n + 1)) = none) :
    ∃ e, Trail.shift path n d = (.ok (), e) ∧ Kept path count place e ∧ Elsewhere count place d e ∧
      ∀ k ≤ count, e.lookup (place k) =
        if k = 1 then none
        else if 1 < k ∧ k ≤ n + 1 then d.lookup (place (k - 1)) else d.lookup (place k) := by
  induction n generalizing d with
  | zero =>
      refine ⟨d, rfl, h, fun _ _ => rfl, ?_⟩
      intro k hk
      split
      · next hone => rw [hone, hfree]
      · rw [if_neg (by omega)]
  | succ n ih =>
      have hstep : ∃ e, Trail.shift path (n + 1) d = Trail.shift path n e ∧ Kept path count place e ∧
          Elsewhere count place d e ∧ ∀ k ≤ count, e.lookup (place k) =
            if k = n + 2 then d.lookup (place (n + 1)) else if k = n + 1 then none else d.lookup (place k) := by
        rw [Trail.shift, run_get_bind]
        have hexists : Disk.pathExists (backup path (n + 1)) d = .ok (d.lookup (place (n + 1))).isSome :=
          (h.reaches (n + 1) (by omega)).pathExists
        rw [hexists]
        cases hentry : (d.lookup (place (n + 1))).isSome with
        | true =>
            obtain ⟨e, hrename, hkept, helse, hlookup⟩ := h.move (by omega) hn (by omega) hentry
            exact ⟨e, run_bind hrename _, hkept, helse, hlookup⟩
        | false =>
            have hnone : d.lookup (place (n + 1)) = none := Option.isSome_eq_false_iff.mp hentry |> Option.isNone_iff_eq_none.mp
            refine ⟨d, rfl, h, fun _ _ => rfl, ?_⟩
            intro k hk
            split
            · next hk => rw [hk, hfree, hnone]
            · split
              · next hk => rw [hk, hnone]
              · rfl
      obtain ⟨e, hshift, hkept, helse, hlookup⟩ := hstep
      have hfreed : e.lookup (place (n + 1)) = none := by
        rw [hlookup (n + 1) (by omega), if_neg (by omega), if_pos rfl]
      obtain ⟨f, hrest, hkeptRest, helseRest, hlookupRest⟩ := ih hkept (by omega) hfreed
      refine ⟨f, hshift.trans hrest, hkeptRest, helse.trans helseRest, ?_⟩
      intro k hk
      rw [hlookupRest k hk]
      split
      · rfl
      · by_cases hmoved : 1 < k ∧ k ≤ n + 1
        · rw [if_pos hmoved, if_pos (by omega), hlookup (k - 1) (by omega), if_neg (by omega), if_neg (by omega)]
        · rw [if_neg hmoved, hlookup k hk]
          by_cases hlast : k = n + 2
          · rw [if_pos hlast, if_pos (by omega), hlast]
            rfl
          · rw [if_neg hlast, if_neg (by omega), if_neg (by omega)]

/-- A rotation moves every file one place on, drops the oldest, and starts the log anew. -/
theorem rotate {c : Nat} (h : Kept path (c + 1) place d) (hlog : (d.lookup (place 0)).isSome = true) :
    ∃ e, Trail.rotate path (c + 1) d = (.ok (), e) ∧ Kept path (c + 1) place e ∧
      Elsewhere (c + 1) place d e ∧ e.held (place 0) = [] ∧
      ∀ i ≤ c, e.lookup (place (i + 1)) = d.lookup (place i) := by
  -- The oldest backup goes.
  obtain ⟨d₁, hremove, hd₁⟩ := (h.reaches (c + 1) (Nat.le_refl _)).removeFile
  obtain ⟨hkept₁, helse₁⟩ := h.update (Nat.le_refl _) (fun hnone => by cases hnone) hd₁
  have hlookup₁ (k : Nat) (hk : k ≤ c + 1) :
      d₁.lookup (place k) = if k = c + 1 then none else d.lookup (place k) := by
    rw [hd₁, h.lookup_update (Nat.le_refl _) none hk]
  -- The others move on.
  obtain ⟨d₂, hshift, hkept₂, helse₂, hlookup₂⟩ :=
    hkept₁.shift (Nat.le_refl _) (by rw [hlookup₁ _ (Nat.le_refl _), if_pos rfl])
  -- The log becomes the first backup.
  have hlog₂ : d₂.lookup (place 0) = d.lookup (place 0) := by
    rw [hlookup₂ 0 (Nat.zero_le _), if_neg (by omega), if_neg (by omega), hlookup₁ 0 (Nat.zero_le _),
      if_neg (by omega)]
  obtain ⟨d₃, hrename, hkept₃, helse₃, hlookup₃⟩ :=
    hkept₂.move (Nat.zero_le _) (Nat.succ_le_succ (Nat.zero_le c)) (by omega) (hlog₂ ▸ hlog)
  -- A new log is made.
  have hfree₃ : d₃.lookup (place 0) = none := by
    rw [hlookup₃ 0 (Nat.zero_le _), if_neg (by omega), if_pos rfl]
  obtain ⟨e, mode, htouch, he⟩ := (hkept₃.reaches 0 (Nat.zero_le _)).touch hfree₃ fileMode
  obtain ⟨hkept, helse⟩ := hkept₃.update (Nat.zero_le _) (fun hfile => by cases hfile) he
  refine ⟨e, ?_, hkept, ((helse₁.trans helse₂).trans helse₃).trans helse, ?_, ?_⟩
  · unfold Trail.rotate
    rw [show backup path (c + 1) = slot path (c + 1) from rfl, run_bind hremove, Nat.add_sub_cancel,
      run_bind hshift]
    exact (run_bind hrename _).trans htouch
  · rw [held, he, Function.update_self]
  · intro i hi
    rw [he, hkept₃.lookup_update (Nat.zero_le _) _ (by omega), if_neg (by omega), hlookup₃ (i + 1) (by omega)]
    cases i with
    | zero => rw [if_pos rfl, hlog₂]
    | succ n =>
        rw [if_neg (by omega), if_neg (by omega), hlookup₂ _ (by omega), if_neg (by omega), if_pos (by omega),
          hlookup₁ _ (by omega), if_neg (by omega)]
        rfl

end Kept

end CatalogSteward.Trail
