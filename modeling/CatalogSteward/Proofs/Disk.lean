import CatalogSteward.Disk
import CatalogSteward.Proofs.Path
import Mathlib.Logic.Function.Basic

/-!
# Operations on disks

Where a path leads depends on the directories of a disk alone. So as long as no directory comes or goes,
files can be added, emptied and moved without another path leading elsewhere. Each operation on a path that
leads to a file, or to a place that is free, is evaluated here.
-/

namespace CatalogSteward

variable {σ ε α β : Type}

theorem run_bind {a : ExceptT ε (StateM σ) α} {x : α} {s t : σ} (h : a s = (.ok x, t))
    (f : α → ExceptT ε (StateM σ) β) : (a >>= f) s = f x t := by
  change ExceptT.bindCont f (a s).1 (a s).2 = _
  rw [h]
  rfl

theorem run_bind_error {a : ExceptT ε (StateM σ) α} {e : ε} {s t : σ} (h : a s = (.error e, t))
    (f : α → ExceptT ε (StateM σ) β) : (a >>= f) s = (.error e, t) := by
  change ExceptT.bindCont f (a s).1 (a s).2 = _
  rw [h]
  rfl

theorem run_tryCatch {a : ExceptT ε (StateM σ) α} {e : ε} {s t : σ} (h : a s = (.error e, t))
    (handle : ε → ExceptT ε (StateM σ) α) : (tryCatch a handle) s = handle e t := by
  change ExceptT.tryCatch a handle s = _
  unfold ExceptT.tryCatch ExceptT.mk
  change (match (a s).1 with
    | .ok x => (pure (.ok x) : StateM σ (Except ε α))
    | .error e => handle e) (a s).2 = _
  rw [h]

theorem run_tryCatch_ok {a : ExceptT ε (StateM σ) α} {x : α} {s t : σ} (h : a s = (.ok x, t))
    (handle : ε → ExceptT ε (StateM σ) α) : (tryCatch a handle) s = (.ok x, t) := by
  change ExceptT.tryCatch a handle s = _
  unfold ExceptT.tryCatch ExceptT.mk
  change (match (a s).1 with
    | .ok x => (pure (.ok x) : StateM σ (Except ε α))
    | .error e => handle e) (a s).2 = _
  rw [h]
  rfl

theorem run_get_bind (f : σ → ExceptT ε (StateM σ) β) (s : σ) :
    ((get : ExceptT ε (StateM σ) σ) >>= f) s = f s s := rfl

namespace Disk

/-! ### Entries -/

theorem lookup_eq {d e : Disk} {names : List String}
    (h : d.entries.find? (fun x => x.1 == names) = e.entries.find? (fun x => x.1 == names)) :
    d.lookup names = e.lookup names := by
  unfold lookup
  rw [h]

theorem lookup_of_find? {d : Disk} {names : List String} {x : List String × Entry}
    (h : d.entries.find? (fun x => x.1 == names) = some x) : d.lookup names = some x.2 := by
  unfold lookup
  rw [h]

theorem find?_replaced {entries : List (List String × Entry)} {names : List String} (e : Entry)
    (h : entries.any (fun x => x.1 == names) = true) :
    (entries.map fun x => if x.1 == names then (names, e) else x).find? (fun x => x.1 == names) =
      some (names, e) := by
  induction entries with
  | nil => cases h
  | cons x xs ih =>
      rw [List.map_cons, List.find?_cons]
      cases hx : x.1 == names with
      | true => simp
      | false =>
          rw [if_neg Bool.false_ne_true, hx]
          exact ih (by simpa [hx] using h)

theorem lookup_store_self (d : Disk) (names : List String) (e : Entry) :
    (d.store names e).lookup names = some e := by
  unfold store
  split
  · next hstored => exact @lookup_of_find? _ _ (names, e) (find?_replaced e hstored)
  · next hnew =>
      have hnone : d.entries.find? (fun x => x.1 == names) = none := by
        rw [List.find?_eq_none]
        intro x hx hmatch
        exact hnew (List.any_eq_true.mpr ⟨x, hx, hmatch⟩)
      apply @lookup_of_find? _ _ (names, e)
      simp [List.find?_append, hnone]

theorem lookup_store_of_ne {names other : List String} (h : other ≠ names) (d : Disk) (e : Entry) :
    (d.store names e).lookup other = d.lookup other := by
  have hne : (names == other) = false := by simpa using h.symm
  unfold store
  split
  · apply lookup_eq
    dsimp only
    induction d.entries with
    | nil => rfl
    | cons x xs ih =>
        rw [List.map_cons, List.find?_cons, List.find?_cons, ih]
        by_cases hx : x.1 == names
        · have heq : x.1 = names := by simpa using hx
          simp [heq, hne]
        · simp [hx]
  · apply lookup_eq
    simp [List.find?_append, hne]

theorem lookup_store (d : Disk) (names : List String) (e : Entry) :
    (d.store names e).lookup = Function.update d.lookup names (some e) := by
  funext other
  by_cases hother : other = names
  · rw [hother, lookup_store_self, Function.update_self]
  · rw [lookup_store_of_ne hother, Function.update_of_ne hother]

/-- The names of what is there without being stored. -/
def IsGiven (names : List String) : Prop := names.all (· == "..") = true ∨ names = ["/"]

theorem lookup_erase_self {names : List String} (h : ¬IsGiven names) (d : Disk) :
    (d.erase names).lookup names = none := by
  have hnone : (d.erase names).entries.find? (fun x => x.1 == names) = none := by
    rw [List.find?_eq_none]
    intro x hx hmatch
    have hkept := (List.mem_filter.mp hx).2
    rw [bne, hmatch] at hkept
    cases hkept
  unfold lookup
  rw [hnone]
  exact if_neg h

theorem lookup_erase_of_ne {names other : List String} (h : other ≠ names) (d : Disk) :
    (d.erase names).lookup other = d.lookup other := by
  apply lookup_eq
  unfold erase
  rw [List.find?_filter]
  congr 1
  funext x
  by_cases hx : x.1 = other
  · simp [hx, h]
  · simp [hx]

/-! ### Directories -/

/-- Two disks have the same directories. -/
def SameDirectories (d e : Disk) : Prop :=
  ∀ names, d.lookup names = some .directory ↔ e.lookup names = some .directory

theorem follow_eq_ok {d e : Disk} (h : SameDirectories d e) {names found : List String} {parts : List String}
    (hd : d.follow names parts = .ok found) : e.follow names parts = .ok found := by
  induction parts generalizing names with
  | nil => exact hd
  | cons part parts ih =>
      rw [follow] at hd ⊢
      cases hentry : d.lookup names with
      | none => rw [hentry] at hd; cases hd
      | some entry =>
          cases entry with
          | file content mode => rw [hentry] at hd; cases hd
          | directory =>
              rw [hentry] at hd
              rw [(h names).mp hentry]
              dsimp only at hd ⊢
              split
              · next hup =>
                  rw [if_pos hup] at hd
                  exact ih hd
              · next hdown =>
                  rw [if_neg hdown] at hd
                  split
                  · next hlong => rw [if_pos hlong] at hd; cases hd
                  · next hshort =>
                      rw [if_neg hshort] at hd
                      exact ih hd

theorem locate_eq_ok {d e : Disk} (h : SameDirectories d e) {p : Path} {found : List String}
    (hd : d.locate p = .ok found) : e.locate p = .ok found := by
  unfold locate at *
  split
  · next hlong => rw [if_pos hlong] at hd; cases hd
  · next hshort =>
      rw [if_neg hshort] at hd
      exact follow_eq_ok h hd

theorem follow_append (d : Disk) (names : List String) (parts more : List String) :
    d.follow names (parts ++ more) = (d.follow names parts).bind fun found => d.follow found more := by
  induction parts generalizing names with
  | nil => rfl
  | cons part parts ih =>
      rw [List.cons_append, follow, follow]
      cases d.lookup names with
      | none => rfl
      | some entry =>
          cases entry with
          | file content mode => rfl
          | directory =>
              dsimp only
              split
              · exact ih _
              · split
                · rfl
                · exact ih _

theorem entry_of_locate {d : Disk} {p : Path} {names : List String} (h : d.locate p = .ok names) :
    d.entry p = match d.lookup names with
      | some entry => .ok entry
      | none => .error .missing := by
  unfold entry
  generalize d.locate p = found at h
  subst h
  rfl

theorem locating_eq_ok {d : Disk} {p : Path} {names : List String} (hnul : p.hasNul = false)
    (hlocate : d.locate p = .ok names) : locating p d = (.ok names, d) := by
  unfold locating
  rw [hnul, if_neg Bool.false_ne_true]
  dsimp only
  rw [run_get_bind, hlocate]
  rfl

/-- A path leads to a directory. -/
structure IsHome (d : Disk) (p : Path) (names : List String) : Prop where
  nul : p.hasNul = false
  located : d.locate p = .ok names
  directory : d.lookup names = some .directory

theorem isHome_of_isDirectory {d : Disk} {p : Path} (h : d.isDirectory p = .ok true) :
    ∃ names, d.IsHome p names := by
  unfold isDirectory at h
  split at h
  · cases h
  · next hnul =>
      have hentry : d.entry p = .ok .directory := by
        split at h
        · assumption
        all_goals cases h
      cases hlocated : d.locate p with
      | error problem =>
          unfold entry at hentry
          rw [hlocated] at hentry
          cases hentry
      | ok names =>
          rw [entry_of_locate hlocated] at hentry
          refine ⟨names, by simpa using hnul, hlocated, ?_⟩
          cases hlookup : d.lookup names with
          | none => rw [hlookup] at hentry; cases hentry
          | some entry =>
              rw [hlookup] at hentry
              rw [Except.ok.inj hentry]

namespace IsHome

variable {d : Disk} {p : Path} {names : List String}

theorem isDirectory (h : IsHome d p names) : d.isDirectory p = .ok true := by
  unfold Disk.isDirectory
  rw [h.nul, entry_of_locate h.located, h.directory, if_neg Bool.false_ne_true]

theorem makeDirectory (h : IsHome d p names) :
    Disk.makeDirectory p d = (.error (.refused .alreadyExists p none), d) := by
  unfold Disk.makeDirectory
  rw [run_bind (locating_eq_ok h.nul h.located), run_get_bind, h.directory]
  rfl

theorem ensureDirectory (h : IsHome d p names) : Disk.ensureDirectory p d = (.ok (), d) := by
  unfold Disk.ensureDirectory
  rw [run_tryCatch h.makeDirectory, run_get_bind, h.isDirectory]
  rfl

/-- A directory that is there is not made again. -/
theorem makeDirectories (h : IsHome d p names) : Disk.makeDirectories p d = (.ok (), d) := by
  unfold Disk.makeDirectories
  cases p.parts.length with
  | zero => exact h.ensureDirectory
  | succ levels =>
      unfold ensureDirectories
      exact run_tryCatch_ok h.ensureDirectory _

end IsHome

/-! ### Places of files -/

/-- A path leads to a file, or to a free place where a file can be made. -/
structure Reaches (d : Disk) (p : Path) (names : List String) : Prop where
  nul : p.hasNul = false
  located : d.locate p = .ok names
  stored : ¬IsGiven names
  free : d.lookup names ≠ some .directory

/-- The bytes of the file at a place; a free place holds none. -/
def held (d : Disk) (names : List String) : List UInt8 :=
  match d.lookup names with
  | some (.file content _) => content
  | _ => []

namespace Reaches

variable {d : Disk} {p : Path} {names : List String}

theorem cases (h : Reaches d p names) :
    d.lookup names = none ∨ ∃ content mode, d.lookup names = some (.file content mode) := by
  have hfree := h.free
  cases hentry : d.lookup names with
  | none => exact .inl rfl
  | some entry =>
      cases entry with
      | file content mode => exact .inr ⟨content, mode, rfl⟩
      | directory => exact absurd hentry hfree

theorem entry_eq (h : Reaches d p names) :
    d.entry p = match d.lookup names with
      | some entry => .ok entry
      | none => .error .missing :=
  entry_of_locate h.located

theorem pathExists (h : Reaches d p names) : Disk.pathExists p d = .ok (d.lookup names).isSome := by
  unfold Disk.pathExists
  rw [h.nul, h.entry_eq, if_neg Bool.false_ne_true]
  cases d.lookup names <;> rfl

theorem read (h : Reaches d p names) {content : List UInt8} {mode : Nat}
    (hfile : d.lookup names = some (.file content mode)) : Disk.read p d = .ok content := by
  unfold Disk.read
  rw [h.nul, h.entry_eq, hfile, if_neg Bool.false_ne_true]

theorem locating (h : Reaches d p names) : Disk.locating p d = (.ok names, d) := locating_eq_ok h.nul h.located

theorem update (h : Reaches d p names) (mode : Nat) (f : List UInt8 → List UInt8) :
    ∃ e kept, Disk.update p mode f d = (.ok (), e) ∧
      e.lookup = Function.update d.lookup names (some (.file (f (d.held names)) kept)) := by
  unfold Disk.update
  rw [run_bind h.locating, run_get_bind]
  rcases h.cases with hentry | ⟨content, kept, hentry⟩
  · rw [hentry, held, hentry]
    exact ⟨_, mode, rfl, lookup_store d _ _⟩
  · rw [hentry, held, hentry]
    exact ⟨_, kept, rfl, lookup_store d _ _⟩

theorem lookup_erase (h : Reaches d p names) : (d.erase names).lookup = Function.update d.lookup names none := by
  funext other
  by_cases hother : other = names
  · rw [hother, lookup_erase_self h.stored, Function.update_self]
  · rw [lookup_erase_of_ne hother, Function.update_of_ne hother]

theorem removeFile (h : Reaches d p names) :
    ∃ e, Disk.removeFile p d = (.ok (), e) ∧ e.lookup = Function.update d.lookup names none := by
  unfold Disk.removeFile
  rw [h.nul, if_neg Bool.false_ne_true]
  dsimp only
  rw [run_get_bind, h.located]
  dsimp only
  rw [run_get_bind]
  rcases h.cases with hentry | ⟨content, kept, hentry⟩
  · rw [hentry]
    refine ⟨d, rfl, ?_⟩
    rw [← hentry, Function.update_eq_self]
  · rw [hentry]
    exact ⟨d.erase names, rfl, h.lookup_erase⟩

/-- A file is moved to another place, and what was there is gone. -/
theorem rename (h : Reaches d p names) {q : Path} {goal : List String} (hq : Reaches d q goal)
    (hne : names ≠ goal) (hfile : (d.lookup names).isSome = true) :
    ∃ e, Disk.rename p q d = (.ok (), e) ∧
      e.lookup = Function.update (Function.update d.lookup names none) goal (d.lookup names) := by
  have hnul : ¬(p.hasNul = true ∨ q.hasNul = true) := by simp [h.nul, hq.nul]
  unfold Disk.rename
  dsimp only
  rw [if_neg hnul, run_get_bind, h.located, hq.located]
  dsimp only
  rcases h.cases with hentry | ⟨content, kept, hentry⟩
  · rw [hentry] at hfile
    cases hfile
  · refine ⟨(d.erase names).store goal (.file content kept), ?_, ?_⟩
    · rw [hentry]
      rcases hq.cases with hgoal | ⟨old, mode, hgoal⟩
      · rw [hgoal]
        dsimp only
        rw [if_neg hne]
        rfl
      · rw [hgoal]
        dsimp only
        rw [if_neg hne]
        rfl
    · rw [lookup_store, h.lookup_erase, hentry]

theorem touch (h : Reaches d p names) (hfree : d.lookup names = none) (mode : Nat) :
    ∃ e kept, Disk.touch p mode d = (.ok (), e) ∧
      e.lookup = Function.update d.lookup names (some (.file [] kept)) := by
  unfold Disk.touch
  rw [run_get_bind, h.entry_eq, hfree]
  have hupdate := h.update mode id
  rwa [held, hfree] at hupdate

end Reaches

/-! ### Files in a directory -/

/-- There is a regular file under a path, or nothing. -/
structure IsFileOrMissing (d : Disk) (p : Path) : Prop where
  nul : p.hasNul = false
  entry : (∃ content mode, d.entry p = .ok (.file content mode)) ∨ d.entry p = .error .missing

theorem Reaches.isFileOrMissing {d : Disk} {p : Path} {names : List String} (h : Reaches d p names) :
    d.IsFileOrMissing p := by
  refine ⟨h.nul, ?_⟩
  rw [h.entry_eq]
  rcases h.cases with hnone | ⟨content, mode, hfile⟩
  · rw [hnone]
    exact .inr rfl
  · rw [hfile]
    exact .inl ⟨content, mode, rfl⟩

/-- A path that ends in a name of its own, not in a part that leads back to a directory. -/
structure IsNamed (p : Path) : Prop extends Path.IsClean p where
  nonempty : p.parts ≠ []
  name : p.name ≠ ".."

theorem IsNamed.parts_eq {p : Path} (h : IsNamed p) : p.parts = p.parent.parts ++ [p.name] := by
  have hsplit := List.dropLast_concat_getLast h.nonempty
  rw [Path.parent, Path.name, List.getLast?_eq_some_getLast h.nonempty, Option.getD_some, hsplit]

theorem IsNamed.name_mem {p : Path} (h : IsNamed p) : p.name ∈ p.parts := by
  rw [h.parts_eq]
  exact List.mem_append_right _ (List.mem_singleton_self _)

theorem IsNamed.not_isGiven {p : Path} (h : IsNamed p) (names : List String) : ¬IsGiven (names ++ [p.name]) := by
  rintro (hall | hroot)
  · have := List.all_eq_true.mp hall p.name (List.mem_append_right _ (List.mem_singleton_self _))
    exact h.name (by simpa using this)
  · have hname : p.name = "/" := by
      have hlast := congrArg List.getLast? hroot
      simpa using hlast
    exact (h.parts p.name h.name_mem).2.2 (by rw [hname]; decide)

/-- A path leads to the place of its name in its directory, unless the name or the path is too long. -/
theorem IsHome.locate {d : Disk} {p : Path} {names : List String} (h : IsHome d p.parent names)
    (hp : IsNamed p) : d.locate p = .ok (names ++ [p.name]) ∨ d.locate p = .error .nameTooLong := by
  by_cases hlong : pathLimit < p.text.utf8ByteSize
  · exact .inr (if_pos hlong)
  · have hfollow : d.locate p = d.follow names [p.name] := by
      have hparent := h.located
      unfold Disk.locate at hparent ⊢
      split at hparent
      · cases hparent
      · change d.follow (if p.slashes = 0 then [] else ["/"]) p.parent.parts = .ok names at hparent
        rw [if_neg hlong, hp.parts_eq, follow_append, hparent]
        rfl
    rw [hfollow, follow, h.directory]
    dsimp only
    rw [if_neg hp.name]
    split
    · exact .inr rfl
    · exact .inl rfl

theorem IsHome.reaches {d : Disk} {p : Path} {names : List String} (h : IsHome d p.parent names)
    (hp : IsNamed p) (hfile : d.IsFileOrMissing p) : Reaches d p (names ++ [p.name]) := by
  obtain ⟨hnul, hentry⟩ := hfile
  rcases h.locate hp with hlocated | hlong
  · rw [entry_of_locate hlocated] at hentry
    refine ⟨hnul, hlocated, hp.not_isGiven names, fun hdirectory => ?_⟩
    rw [hdirectory] at hentry
    rcases hentry with ⟨content, mode, hentry⟩ | hentry <;> cases hentry
  · rw [entry, hlong] at hentry
    rcases hentry with ⟨content, mode, hentry⟩ | hentry <;> cases hentry

end Disk

end CatalogSteward
