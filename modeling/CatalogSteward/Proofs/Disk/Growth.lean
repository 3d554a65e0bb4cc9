import CatalogSteward.Proofs.Disk.Attempts
import Mathlib.Data.List.Infix

/-!
# Directories are only added

Making the directories above a file takes nothing away and changes nothing: whatever was there is there
afterwards, and what is new is a directory, also when it fails on the way. In a tree, along a path without
parent parts, it succeeds exactly if no file stands in the way.
-/

namespace CatalogSteward

namespace Disk

variable {d e f : Disk} {p : Path} {names : List String}

/-- Whatever is there stays, and what is new is a directory. -/
def Grows (d e : Disk) : Prop :=
  ∀ names, e.lookup names = d.lookup names ∨ (d.lookup names = none ∧ e.lookup names = some .directory)

namespace Grows

theorem refl (d : Disk) : Grows d d := fun _ => .inl rfl

theorem trans (h : Grows d e) (k : Grows e f) : Grows d f := by
  intro names
  rcases h names with hsame | ⟨hnone, hnew⟩
  · rw [← hsame]
    exact k names
  · rcases k names with hkept | ⟨hgone, -⟩
    · exact .inr ⟨hnone, hkept.trans hnew⟩
    · cases hnew.symm.trans hgone

theorem lookup_eq_some (h : Grows d e) {entry : Entry} (hentry : d.lookup names = some entry) :
    e.lookup names = some entry := by
  rcases h names with hsame | ⟨hnone, -⟩
  · rw [hsame, hentry]
  · cases hnone.symm.trans hentry

theorem of_store (hnone : d.lookup names = none) : Grows d (d.store names .directory) := by
  intro other
  rw [lookup_store]
  by_cases hother : other = names
  · rw [hother, Function.update_self]
    exact .inr ⟨hnone, rfl⟩
  · rw [Function.update_of_ne hother]
    exact .inl rfl

end Grows

/-! ### Making directories -/

theorem Ensures.tryCatch {Q R S : Disk → Prop} {a : Action Unit} {handle : Fault → Action Unit}
    (ha : Ensures d a Q R) (h : ∀ fault e, R e → Ensures e (handle fault) Q S) :
    Ensures d (tryCatch a handle) Q S := by
  obtain ⟨hok, herror⟩ := ha
  unfold Ensures
  rcases hrun : a d with ⟨fault | _, e⟩ <;> rw [hrun] at hok herror
  · rw [run_tryCatch hrun]
    exact h fault e (herror fault rfl)
  · rw [run_tryCatch_ok hrun]
    exact ⟨fun _ => hok rfl, fun _ hfault => by cases hfault⟩

/-- Where a path leads is found without a change, or it is not found. -/
theorem locating_cases (p : Path) (d : Disk) :
    (∃ fault, locating p d = (.error fault, d)) ∨
      ∃ names, p.hasNul = false ∧ d.locate p = .ok names ∧ locating p d = (.ok names, d) := by
  cases hlocate : d.locate p with
  | error problem => exact .inl (locating_error hlocate)
  | ok names =>
      cases hnul : p.hasNul with
      | true =>
          unfold locating
          rw [hnul]
          exact .inl ⟨_, rfl⟩
      | false => exact .inr ⟨names, rfl, rfl, locating_eq_ok hnul hlocate⟩

theorem makeDirectory_grows (p : Path) (d : Disk) : Ensures d (makeDirectory p) (Grows d) (· = d) := by
  unfold makeDirectory Ensures
  rcases locating_cases p d with ⟨fault, hlocating⟩ | ⟨names, -, -, hlocating⟩
  · rw [run_bind_error hlocating]
    exact ⟨fun hdone => (by cases hdone), fun _ _ => rfl⟩
  · rw [run_bind hlocating, run_get_bind]
    cases hentry : d.lookup names with
    | some entry => exact ⟨fun hdone => (by cases hdone), fun _ _ => rfl⟩
    | none => exact ⟨fun _ => .of_store hentry, fun _ hfault => by cases hfault⟩

theorem ensureDirectory_grows (p : Path) (d : Disk) : Ensures d (ensureDirectory p) (Grows d) (· = d) := by
  refine (makeDirectory_grows p d).tryCatch ?_
  rintro fault _ rfl
  refine .get_bind ?_
  split
  · exact .throw rfl
  · exact .pure (.refl _)
  · exact .throw rfl
  · exact .throw rfl

theorem ensureDirectories_grows (levels : Nat) (p : Path) (d : Disk) :
    Ensures d (ensureDirectories levels p) (Grows d) (Grows d) := by
  have hone (p : Path) (e : Disk) (he : Grows d e) : Ensures e (ensureDirectory p) (Grows d) (Grows d) :=
    (ensureDirectory_grows p e).imp (fun _ hgrows => he.trans hgrows) (fun _ hsame => hsame ▸ he)
  induction levels generalizing p with
  | zero => exact hone p d (.refl d)
  | succ levels ih =>
      refine (ensureDirectory_grows p d).tryCatch ?_
      rintro fault _ rfl
      split
      · split
        · exact .throw (.refl _)
        · exact (ih p.parent).bind fun e he => hone p e he
      · exact .throw (.refl _)

theorem makeDirectories_grows (p : Path) (d : Disk) : Ensures d (makeDirectories p) (Grows d) (Grows d) :=
  ensureDirectories_grows _ p d

/-! ### Down a tree -/

end Disk

/-- Where a path starts: in the working directory, or at the top. -/
def Path.start (p : Path) : List String := if p.slashes = 0 then [] else ["/"]

theorem Path.isGiven_start (p : Path) : Disk.IsGiven p.start := by
  unfold start
  split
  · exact .inl rfl
  · exact .inr rfl

/-- The place that a path without parent parts leads to. -/
def Path.place (p : Path) : List String := p.start ++ p.parts

namespace Disk

variable {d e : Disk} {p : Path}

/-- A path without parent parts that is nowhere too long. -/
structure LeadsDown (p : Path) : Prop extends Path.IsClean p where
  nul : p.hasNul = false
  down : ∀ part ∈ p.parts, part ≠ ".." ∧ part.utf8ByteSize ≤ partLimit
  short : p.text.utf8ByteSize ≤ pathLimit

instance (p : Path) : Decidable (LeadsDown p) :=
  decidable_of_iff
    ((p.slashes ≤ 2 ∧ ∀ part ∈ p.parts, part ≠ "" ∧ part ≠ "." ∧ '/' ∉ part.toList) ∧ p.hasNul = false ∧
      (∀ part ∈ p.parts, part ≠ ".." ∧ part.utf8ByteSize ≤ partLimit) ∧ p.text.utf8ByteSize ≤ pathLimit)
    ⟨fun ⟨⟨hslashes, hparts⟩, hnul, hdown, hshort⟩ => ⟨⟨hslashes, hparts⟩, hnul, hdown, hshort⟩,
      fun h => ⟨⟨h.slashes, h.parts⟩, h.nul, h.down, h.short⟩⟩

/-- Where a path leads and on its way there are directories, or nothing. -/
def Unblocked (d : Disk) (p : Path) : Prop :=
  ∀ front, front <+: p.parts → d.lookup (p.start ++ front) = none ∨ d.lookup (p.start ++ front) = some .directory

instance (d : Disk) (p : Path) : Decidable (d.Unblocked p) :=
  decidable_of_iff
    (∀ front ∈ p.parts.inits, d.lookup (p.start ++ front) = none ∨ d.lookup (p.start ++ front) = some .directory)
    (forall_congr' fun _ => by rw [List.mem_inits])

namespace LeadsDown

theorem isNamed (h : LeadsDown p) (hne : p.parts ≠ []) : IsNamed p := by
  refine ⟨h.toIsClean, hne, ?_⟩
  rw [Path.name, List.getLast?_eq_some_getLast hne]
  exact (h.down _ (List.getLast_mem hne)).1

theorem parent (h : LeadsDown p) (hne : p.parts ≠ []) : LeadsDown p.parent where
  slashes := h.slashes
  parts part hpart := h.parts part (List.dropLast_subset _ hpart)
  nul := Path.hasNul_parent h.nul
  down part hpart := h.down part (List.dropLast_subset _ hpart)
  short := (h.isNamed hne).utf8ByteSize_parent h.short

theorem place_eq (h : LeadsDown p) (hne : p.parts ≠ []) : p.place = p.parent.place ++ [p.name] := by
  rw [Path.place, (h.isNamed hne).parts_eq, ← List.append_assoc]
  rfl

theorem not_isGiven (h : LeadsDown p) (hne : p.parts ≠ []) : ¬IsGiven p.place :=
  h.place_eq hne ▸ (h.isNamed hne).not_isGiven _

theorem above_place (h : LeadsDown p) (hne : p.parts ≠ []) : above p.place = p.parent.place := by
  obtain ⟨hup, hroot⟩ := not_or.mp (h.not_isGiven hne)
  rw [above, if_neg hroot, if_neg hup, h.place_eq hne, List.dropLast_concat]

theorem locate_eq (h : LeadsDown p) (d : Disk) : d.locate p = d.follow p.start p.parts :=
  if_neg (Nat.not_lt.mpr h.short)

theorem follow_name (h : LeadsDown p) (hne : p.parts ≠ []) (hhome : d.lookup names = some .directory) :
    d.follow names [p.name] = .ok (names ++ [p.name]) := by
  have hname := h.down p.name (h.isNamed hne).name_mem
  rw [follow, hhome]
  dsimp only
  rw [if_neg hname.1, if_neg (Nat.not_lt.mpr hname.2)]
  rfl

theorem locate_split (h : LeadsDown p) (hne : p.parts ≠ []) (d : Disk) :
    d.locate p = (d.locate p.parent).bind fun found => d.follow found [p.name] := by
  rw [h.locate_eq, (h.parent hne).locate_eq]
  calc d.follow p.start p.parts
      = d.follow p.start (p.parent.parts ++ [p.name]) := by rw [← (h.isNamed hne).parts_eq]
    _ = (d.follow p.start p.parent.parts).bind fun found => d.follow found [p.name] := follow_append ..

/-- In a tree, what leads to the place of a directory leads there. -/
theorem isHome (h : LeadsDown p) (hd : d.IsTree) (hplace : d.lookup p.place = some .directory) :
    d.IsHome p p.place := by
  refine ⟨h.nul, ?_, hplace⟩
  induction hn : p.parts.length generalizing p with
  | zero =>
      have hempty := List.eq_nil_of_length_eq_zero hn
      rw [h.locate_eq, Path.place, hempty, List.append_nil]
      rfl
  | succ n ih =>
      have hne : p.parts ≠ [] := fun hempty => by rw [hempty] at hn; cases hn
      have habove : d.lookup p.parent.place = some .directory := by
        rw [← h.above_place hne]
        exact hd.lookup_above (by rw [hplace]; exact Option.some_ne_none _)
      have hlength : p.parent.parts.length = n := by rw [Path.parent, List.length_dropLast, hn]; rfl
      rw [h.locate_split hne, ih (h.parent hne) habove hlength, h.place_eq hne]
      exact h.follow_name hne habove

theorem locate_eq_ok (h : LeadsDown p) (hne : p.parts ≠ []) (hd : d.IsTree)
    (hparent : d.lookup p.parent.place = some .directory) : d.locate p = .ok p.place := by
  rw [h.locate_split hne, ((h.parent hne).isHome hd hparent).located, h.place_eq hne]
  exact h.follow_name hne hparent

end LeadsDown

theorem Unblocked.parent (h : d.Unblocked p) : d.Unblocked p.parent :=
  fun front hfront => h front (hfront.trans (List.dropLast_prefix _))

theorem Unblocked.place_cases (h : d.Unblocked p) :
    d.lookup p.place = none ∨ d.lookup p.place = some .directory :=
  h _ (List.prefix_refl _)

/-- A path whose directory is missing leads nowhere, if no file stands in the way. -/
theorem LeadsDown.locate_missing (h : LeadsDown p) (hne : p.parts ≠ []) (hd : d.IsTree)
    (hfree : d.Unblocked p.parent) (hparent : d.lookup p.parent.place ≠ some .directory) :
    d.locate p = .error .missing := by
  induction hn : p.parts.length generalizing p with
  | zero => exact absurd (List.eq_nil_of_length_eq_zero hn) hne
  | succ n ih =>
      have hnone := hfree.place_cases.resolve_right hparent
      have hdown := h.parent hne
      have hstarted : p.parent.parts ≠ [] := by
        intro hempty
        refine hparent (hd.lookup_given ?_)
        rw [Path.place, hempty, List.append_nil]
        exact p.parent.isGiven_start
      rw [h.locate_split hne]
      by_cases hgrand : d.lookup p.parent.parent.place = some .directory
      · rw [hdown.locate_eq_ok hstarted hd hgrand]
        change d.follow p.parent.place [p.name] = _
        rw [follow, hnone]
      · have hlength : p.parent.parts.length = n := by rw [Path.parent, List.length_dropLast, hn]; rfl
        rw [ih hdown hstarted hfree.parent hgrand hlength]
        rfl

/-! ### Making the way -/

theorem IsTree.store_directory (hd : d.IsTree) (hgiven : ¬IsGiven names) (hnone : d.lookup names = none)
    (habove : d.lookup (above names) = some .directory) : (d.store names .directory).IsTree := by
  have hgrows := Grows.of_store hnone
  intro x hx
  have hcases : x.1 = names ∨ x ∈ d.entries := by
    unfold store at hx
    split at hx
    · obtain ⟨y, hy, rfl⟩ := List.mem_map.mp hx
      split
      · exact .inl rfl
      · exact .inr hy
    · rcases List.mem_append.mp hx with hold | hnew
      · exact .inr hold
      · exact .inl (by rw [List.mem_singleton.mp hnew])
  rcases hcases with rfl | hold
  · exact ⟨hgiven, hgrows.lookup_eq_some habove⟩
  · exact ⟨(hd x hold).1, hgrows.lookup_eq_some (hd x hold).2⟩

/-- There is a directory where a path leads, and nothing has come below it. -/
structure Opened (d e : Disk) (p : Path) : Prop where
  tree : e.IsTree
  home : e.IsHome p p.place
  grows : Grows d e
  below : ∀ names, p.place.length < names.length → e.lookup names = d.lookup names

theorem Opened.refl (hd : d.IsTree) (hhome : d.IsHome p p.place) : Opened d d p :=
  ⟨hd, hhome, .refl d, fun _ _ => rfl⟩

/-- A directory is made in a directory that is there. -/
theorem LeadsDown.ensureDirectory (h : LeadsDown p) (hne : p.parts ≠ []) (hd : d.IsTree)
    (hparent : d.lookup p.parent.place = some .directory)
    (hplace : d.lookup p.place = none ∨ d.lookup p.place = some .directory) :
    ∃ e, Disk.ensureDirectory p d = (.ok (), e) ∧ Opened d e p := by
  rcases hplace with hnone | hthere
  · have hlocated := h.locate_eq_ok hne hd hparent
    have hmade : makeDirectory p d = (.ok (), d.store p.place .directory) := by
      unfold makeDirectory
      rw [run_bind (locating_eq_ok h.nul hlocated), run_get_bind, hnone]
      rfl
    have htree : (d.store p.place .directory).IsTree :=
      hd.store_directory (h.not_isGiven hne) hnone (by rw [h.above_place hne, hparent])
    have hbelow (names : List String) (hlonger : p.place.length < names.length) :
        (d.store p.place .directory).lookup names = d.lookup names :=
      lookup_store_of_ne (fun hsame => by rw [hsame] at hlonger; exact Nat.lt_irrefl _ hlonger) _ _
    exact ⟨_, run_tryCatch_ok hmade _, htree, h.isHome htree (lookup_store_self _ _ _), .of_store hnone, hbelow⟩
  · exact ⟨d, (h.isHome hd hthere).ensureDirectory, .refl hd (h.isHome hd hthere)⟩

theorem ensureDirectory_missing (hnul : p.hasNul = false) (hlocate : d.locate p = .error .missing) :
    ensureDirectory p d = (.error (.refused .missing p none), d) := by
  have hlocating : locating p d = (.error (.refused .missing p none), d) := by
    unfold locating
    rw [hnul, if_neg Bool.false_ne_true]
    dsimp only
    rw [run_get_bind, hlocate]
    rfl
  have hfailed : makeDirectory p d = (.error (.refused .missing p none), d) := run_bind_error hlocating _
  unfold ensureDirectory
  rw [run_tryCatch hfailed, run_get_bind]
  rfl

/-- If no file stands in the way, all directories of a path are made. -/
theorem LeadsDown.makeDirectories (h : LeadsDown p) (hd : d.IsTree) (hfree : d.Unblocked p) :
    ∃ e, Disk.makeDirectories p d = (.ok (), e) ∧ Opened d e p := by
  unfold Disk.makeDirectories
  induction hn : p.parts.length generalizing p with
  | zero =>
      have hempty := List.eq_nil_of_length_eq_zero hn
      have hstart : IsGiven p.place := by
        rw [Path.place, hempty, List.append_nil]
        exact p.isGiven_start
      have hhome := h.isHome hd (hd.lookup_given hstart)
      exact ⟨d, hhome.ensureDirectory, .refl hd hhome⟩
  | succ n ih =>
      have hne : p.parts ≠ [] := fun hempty => by rw [hempty] at hn; cases hn
      have hlength : p.parent.parts.length = n := by rw [Path.parent, List.length_dropLast, hn]; rfl
      unfold ensureDirectories
      by_cases hparent : d.lookup p.parent.place = some .directory
      · obtain ⟨e, hmade, hopened⟩ := h.ensureDirectory hne hd hparent hfree.place_cases
        exact ⟨e, run_tryCatch_ok hmade _, hopened⟩
      · -- nothing is where the path leads, since there is no directory above
        have hnone : d.lookup p.place = none := by
          refine hfree.place_cases.resolve_right fun hthere => hparent ?_
          rw [← h.above_place hne]
          exact hd.lookup_above (by rw [hthere]; exact Option.some_ne_none _)
        have hmissing := ensureDirectory_missing h.nul (h.locate_missing hne hd hfree.parent hparent)
        obtain ⟨e, habove, hopened⟩ := ih (h.parent hne) hfree.parent hlength
        have hplace : e.lookup p.place = none ∨ e.lookup p.place = some .directory := by
          rcases hopened.grows p.place with hsame | ⟨-, hnew⟩
          · exact .inl (hsame.trans hnone)
          · exact .inr hnew
        obtain ⟨f, hmade, hlast⟩ := h.ensureDirectory hne hopened.tree hopened.home.directory hplace
        refine ⟨f, ?_, hlast.tree, hlast.home, hopened.grows.trans hlast.grows, fun names hlonger => ?_⟩
        · rw [run_tryCatch hmissing]
          dsimp only
          rw [if_neg hne, run_bind habove]
          exact hmade
        · have hshorter : p.parent.place.length < names.length := by
            rw [h.place_eq hne, List.length_append] at hlonger
            exact Nat.lt_of_le_of_lt (Nat.le_add_right _ _) hlonger
          exact (hlast.below names hlonger).trans (hopened.below names hshorter)

end Disk

end CatalogSteward
