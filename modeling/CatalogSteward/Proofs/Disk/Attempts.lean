import CatalogSteward.Proofs.Disk

/-!
# Attempts at files

An operation may be attempted on paths that lead nowhere, that are too long, or that lead to one place by
two names. It may fail then, and what follows it is not done. Whatever comes of an attempt at files, no
directory comes or goes, so no path leads elsewhere afterwards; and a file at another place is still read as
before.
-/

namespace CatalogSteward.Disk

variable {d e f : Disk} {p q : Path} {names : List String} {bytes : List UInt8}

/-! ### Reading -/

theorem read_eq_ok_iff : Disk.read p d = .ok bytes ↔
    p.hasNul = false ∧ ∃ names mode, d.locate p = .ok names ∧ d.lookup names = some (.file bytes mode) := by
  unfold Disk.read entry
  cases hnul : p.hasNul with
  | true => simp
  | false =>
      cases d.locate p with
      | error problem => simp
      | ok names =>
          cases hentry : d.lookup names with
          | none => simp [hentry]
          | some entry => cases entry <;> simp [hentry]

theorem lookup_of_read (hread : Disk.read p d = .ok bytes) (hlocate : d.locate p = .ok names) :
    ∃ mode, d.lookup names = some (.file bytes mode) := by
  obtain ⟨-, place, mode, hplace, hfile⟩ := read_eq_ok_iff.mp hread
  rw [hlocate] at hplace
  obtain rfl := Except.ok.inj hplace
  exact ⟨mode, hfile⟩

/-! ### Trees -/

instance (names : List String) : Decidable (IsGiven names) := inferInstanceAs (Decidable (_ ∨ _))

/-- Every stored entry lies in a directory, and the directories that are given are not stored. -/
def IsTree (d : Disk) : Prop := ∀ x ∈ d.entries, ¬IsGiven x.1 ∧ d.lookup (above x.1) = some .directory

instance (d : Disk) : Decidable d.IsTree :=
  inferInstanceAs (Decidable (∀ x ∈ d.entries, ¬IsGiven x.1 ∧ d.lookup (above x.1) = some .directory))

theorem isGiven_above (h : IsGiven names) : IsGiven (above names) := by
  unfold above
  split
  · exact h
  · split
    · next hup => exact .inl (by rw [List.all_append, hup]; rfl)
    · next hroot hup => exact absurd h (not_or.mpr ⟨hup, hroot⟩)

namespace IsTree

theorem lookup_given (h : d.IsTree) (hgiven : IsGiven names) : d.lookup names = some .directory := by
  have hnone : d.entries.find? (fun x => x.1 == names) = none := by
    refine List.find?_eq_none.mpr fun x hx hmatch => (h x hx).1 ?_
    rwa [beq_iff_eq.mp hmatch]
  unfold lookup
  rw [hnone]
  exact if_pos hgiven

theorem lookup_above (h : d.IsTree) (hthere : d.lookup names ≠ none) :
    d.lookup (above names) = some .directory := by
  by_cases hgiven : IsGiven names
  · exact h.lookup_given (isGiven_above hgiven)
  · cases hfound : d.entries.find? fun x => x.1 == names with
    | none =>
        refine absurd ?_ hthere
        unfold lookup
        rw [hfound]
        exact if_neg hgiven
    | some x =>
        have hname : x.1 = names := by simpa using List.find?_some hfound
        exact hname ▸ (h x (List.mem_of_find?_eq_some hfound)).2

end IsTree

/-! ### Files in trees -/

theorem locate_eq_ok_iff : d.locate p = .ok names ↔
    p.text.utf8ByteSize ≤ pathLimit ∧ d.follow (if p.slashes = 0 then [] else ["/"]) p.parts = .ok names := by
  unfold locate
  split
  · next hlong => simp [Nat.not_le.mpr hlong]
  · next hshort => simp [Nat.not_lt.mp hshort]

/-- All but the last part of a path lead to a directory. -/
theorem follow_concat {found : List String} {parts : List String} {part : String}
    (h : d.follow names (parts ++ [part]) = .ok found) :
    ∃ before, d.follow names parts = .ok before ∧ d.lookup before = some .directory ∧
      found = if part = ".." then above before else before ++ [part] := by
  rw [follow_append] at h
  cases hbefore : d.follow names parts with
  | error problem => rw [hbefore] at h; cases h
  | ok before =>
      rw [hbefore] at h
      change d.follow before [part] = .ok found at h
      rw [follow] at h
      split at h
      · cases h
      · cases h
      · next hdirectory =>
          refine ⟨before, rfl, hdirectory, ?_⟩
          split at h
          · next hup => rw [if_pos hup]; exact (Except.ok.inj h).symm
          · next hdown =>
              rw [if_neg hdown]
              split at h
              · cases h
              · exact (Except.ok.inj h).symm

/-- In a tree, a path that leads to a file ends in a name of its own: where there is no name, and after a
parent part, there is a directory. -/
theorem IsTree.isNamed (h : d.IsTree) (hp : p.IsClean) (hread : Disk.read p d = .ok bytes) : IsNamed p := by
  obtain ⟨-, names, mode, hlocate, hfile⟩ := read_eq_ok_iff.mp hread
  obtain ⟨-, hfollow⟩ := locate_eq_ok_iff.mp hlocate
  have hfree : d.lookup names ≠ some .directory := fun hdirectory => by rw [hfile] at hdirectory; cases hdirectory
  have hnonempty : p.parts ≠ [] := by
    intro hempty
    rw [hempty] at hfollow
    obtain rfl := Except.ok.inj hfollow
    refine hfree (h.lookup_given ?_)
    split
    · exact .inl rfl
    · exact .inr rfl
  refine ⟨hp, hnonempty, fun hname => hfree ?_⟩
  have hsplit : p.parts = p.parts.dropLast ++ [".."] := by
    have hlast := List.dropLast_concat_getLast hnonempty
    rw [Path.name, List.getLast?_eq_some_getLast hnonempty, Option.getD_some] at hname
    rw [← hname, hlast]
  rw [hsplit] at hfollow
  obtain ⟨before, -, hdirectory, rfl⟩ := follow_concat hfollow
  rw [if_pos rfl]
  exact h.lookup_above (by rw [hdirectory]; exact Option.some_ne_none _)

/-- A path above another one is the shorter one. -/
theorem IsNamed.utf8ByteSize_parent (h : IsNamed p) (hshort : p.text.utf8ByteSize ≤ pathLimit) :
    p.parent.text.utf8ByteSize ≤ pathLimit := by
  have hslashes : (String.ofList (List.replicate p.slashes '/')).utf8ByteSize ≤ 2 := by
    have hall : ∀ n ≤ 2, (String.ofList (List.replicate n '/')).utf8ByteSize ≤ 2 := by decide
    exact hall p.slashes h.slashes
  by_cases hempty : p.parent.parts = []
  · unfold Path.text
    split
    · decide
    · rw [hempty, String.intercalate_nil, String.append_empty]
      exact Nat.le_trans hslashes (by decide)
  · have htext : p.text = p.parent.text ++ ("/" ++ p.name) := by
      unfold Path.text
      rw [if_neg fun hnone => h.nonempty hnone.2, if_neg fun hnone => hempty hnone.2, h.parts_eq,
        String.intercalate_append_of_ne_nil hempty (List.cons_ne_nil _ _), String.intercalate_singleton]
      simp only [String.append_assoc]
      rfl
    rw [htext, String.utf8ByteSize_append] at hshort
    omega

/-- A file lies in a directory. -/
theorem IsNamed.isHome_parent (h : IsNamed p) (hread : Disk.read p d = .ok bytes) :
    ∃ names, d.IsHome p.parent names := by
  obtain ⟨hnul, place, mode, hlocate, -⟩ := read_eq_ok_iff.mp hread
  obtain ⟨hshort, hfollow⟩ := locate_eq_ok_iff.mp hlocate
  rw [h.parts_eq] at hfollow
  obtain ⟨names, hparent, hdirectory, -⟩ := follow_concat hfollow
  exact ⟨names, Path.hasNul_parent hnul, locate_eq_ok_iff.mpr ⟨h.utf8ByteSize_parent hshort, hparent⟩, hdirectory⟩

/-! ### Attempts -/

theorem SameDirectories.symm (h : SameDirectories d e) : SameDirectories e d := fun names => (h names).symm

theorem SameDirectories.trans (h : SameDirectories d e) (k : SameDirectories e f) : SameDirectories d f :=
  fun names => (h names).trans (k names)

/-- A file is read as before if the place that it is read from is left alone. -/
theorem read_eq_ok (hsame : SameDirectories d e) (hread : Disk.read p d = .ok bytes)
    (hlookup : ∀ names, d.locate p = .ok names → e.lookup names = d.lookup names) :
    Disk.read p e = .ok bytes := by
  obtain ⟨hnul, names, mode, hlocate, hfile⟩ := read_eq_ok_iff.mp hread
  exact read_eq_ok_iff.mpr ⟨hnul, names, mode, locate_eq_ok hsame hlocate, (hlookup names hlocate).trans hfile⟩

/-- Two paths never lead to one place. -/
def Apart (d : Disk) (p q : Path) : Prop := ∀ names, d.locate p = .ok names → d.locate q ≠ .ok names

/-- If a path leads anywhere, then to a file or to a free place. -/
def MayReach (d : Disk) (p : Path) : Prop := ∀ names, d.locate p = .ok names → d.Reaches p names

theorem Apart.symm (h : d.Apart p q) : d.Apart q p := fun names hq hp => h names hp hq

theorem Apart.keep (h : d.Apart p q) (hsame : SameDirectories d e) : e.Apart p q :=
  fun names hp hq => h names (locate_eq_ok hsame.symm hp) (locate_eq_ok hsame.symm hq)

theorem MayReach.keep (h : d.MayReach p) (hsame : SameDirectories d e) : e.MayReach p := by
  intro names hlocate
  have hreach := h names (locate_eq_ok hsame.symm hlocate)
  exact ⟨hreach.nul, hlocate, hreach.stored, fun hdirectory => hreach.free ((hsame names).mpr hdirectory)⟩

/-- No directory comes or goes, and of the files at most those under some paths do. -/
structure Spares (ps : List Path) (d e : Disk) : Prop where
  directories : SameDirectories d e
  files : ∀ q bytes, (∀ p ∈ ps, d.Apart q p) → Disk.read q d = .ok bytes → Disk.read q e = .ok bytes

theorem Spares.refl (ps : List Path) (d : Disk) : Spares ps d d := ⟨fun _ => Iff.rfl, fun _ _ _ h => h⟩

theorem Spares.trans {ps qs : List Path} (h : Spares ps d e) (k : Spares qs e f) : Spares (ps ++ qs) d f := by
  refine ⟨h.directories.trans k.directories, fun q bytes hapart hread => ?_⟩
  obtain ⟨hps, hqs⟩ := List.forall_mem_append.mp hapart
  exact k.files q bytes (fun p hp => (hqs p hp).keep h.directories) (h.files q bytes hps hread)

/-- What is no directory comes or goes in a place without one. -/
theorem sameDirectories_update (hfree : d.lookup names ≠ some .directory) {entry : Option Entry}
    (hentry : entry ≠ some .directory) (he : e.lookup = Function.update d.lookup names entry) :
    SameDirectories d e := by
  intro other
  rw [he]
  by_cases hother : other = names
  · rw [hother, Function.update_self]
    exact ⟨fun hd => absurd hd hfree, fun he => absurd he hentry⟩
  · rw [Function.update_of_ne hother]

theorem Reaches.sameDirectories (h : d.Reaches p names) {entry : Option Entry} (hentry : entry ≠ some .directory)
    (he : e.lookup = Function.update d.lookup names entry) : SameDirectories d e :=
  sameDirectories_update h.free hentry he

/-- A file comes or goes at the place of a path. -/
theorem Reaches.spares (h : d.Reaches p names) {entry : Option Entry} (hentry : entry ≠ some .directory)
    (he : e.lookup = Function.update d.lookup names entry) : Spares [p] d e := by
  refine ⟨h.sameDirectories hentry he, fun q bytes hapart hread => ?_⟩
  refine read_eq_ok (h.sameDirectories hentry he) hread fun other hother => ?_
  have hne : other ≠ names := by
    rintro rfl
    exact hapart p (List.mem_singleton_self p) _ hother h.located
  rw [he, Function.update_of_ne hne]

/-- Whatever comes of an operation on a disk: if it succeeds then it leaves a disk with `Q`, and if it fails
then one with `R`. -/
def Ensures (d : Disk) (a : Action Unit) (Q R : Disk → Prop) : Prop :=
  ((a d).1 = .ok () → Q (a d).2) ∧ ∀ fault, (a d).1 = .error fault → R (a d).2

namespace Ensures

variable {Q Q' R R' S : Disk → Prop} {a b : Action Unit}

theorem pure (h : Q d) : Ensures d (pure ()) Q R := ⟨fun _ => h, fun _ hfault => by cases hfault⟩

theorem throw {fault : Fault} (h : R d) : Ensures d (throw fault) Q R :=
  ⟨fun hdone => (by cases hdone), fun _ _ => h⟩

theorem bind (ha : Ensures d a Q R) (hb : ∀ e, Q e → Ensures e b S R) : Ensures d (a >>= fun _ => b) S R := by
  obtain ⟨hok, herror⟩ := ha
  unfold Ensures
  rcases hrun : a d with ⟨fault | _, e⟩ <;> rw [hrun] at hok herror
  · rw [run_bind_error hrun]
    exact ⟨fun hdone => (by cases hdone), fun _ _ => herror fault rfl⟩
  · rw [run_bind hrun]
    exact hb e (hok rfl)

theorem get_bind {f : Disk → Action Unit} (h : Ensures d (f d) Q R) : Ensures d (get >>= f) Q R := h

theorem imp (h : Ensures d a Q R) (hq : ∀ e, Q e → Q' e) (hr : ∀ e, R e → R' e) : Ensures d a Q' R' :=
  ⟨fun hdone => hq _ (h.1 hdone), fun fault hfault => hr _ (h.2 fault hfault)⟩

theorem of_always (hq : Q (a d).2) (hr : R (a d).2) : Ensures d a Q R := ⟨fun _ => hq, fun _ _ => hr⟩

theorem and_always (h : Ensures d a Q R) (hs : S (a d).2) : Ensures d a (fun e => S e ∧ Q e) R :=
  ⟨fun hdone => ⟨hs, h.1 hdone⟩, h.2⟩

/-- What is left by a success and by a failure alike is left in any case. -/
theorem always (h : Ensures d a Q Q) : Q (a d).2 := by
  obtain ⟨hok, herror⟩ := h
  rcases hrun : a d with ⟨fault | _, e⟩ <;> rw [hrun] at hok herror
  · exact herror fault rfl
  · exact hok rfl

end Ensures

theorem locating_error {problem : Problem} (h : d.locate p = .error problem) :
    ∃ fault, locating p d = (.error fault, d) := by
  unfold locating
  cases p.hasNul with
  | true => exact ⟨_, rfl⟩
  | false =>
      rw [if_neg Bool.false_ne_true]
      dsimp only
      rw [run_get_bind, h]
      exact ⟨_, rfl⟩

namespace MayReach

theorem removeFile (h : d.MayReach p) : Spares [p] d (Disk.removeFile p d).2 := by
  cases hlocate : d.locate p with
  | ok names =>
      obtain ⟨e, hremove, he⟩ := (h names hlocate).removeFile
      rw [hremove]
      exact (h names hlocate).spares (fun hnone => by cases hnone) he
  | error problem =>
      have hsame : (Disk.removeFile p d).2 = d := by
        unfold Disk.removeFile
        cases p.hasNul with
        | true => rfl
        | false =>
            rw [if_neg Bool.false_ne_true]
            dsimp only
            rw [run_get_bind, hlocate]
            cases problem <;> rfl
      rw [hsame]
      exact .refl _ _

/-- A file that is missing is made, and what is there stays as it is. -/
theorem touch (h : d.MayReach p) (mode : Nat) : Spares [] d (Disk.touch p mode d).2 := by
  cases hlocate : d.locate p with
  | error problem =>
      obtain ⟨fault, hlocating⟩ := locating_error hlocate
      have htouch : Disk.touch p mode d = (.error fault, d) := by
        unfold Disk.touch
        rw [run_get_bind, entry, hlocate]
        exact run_bind_error hlocating _
      rw [htouch]
      exact .refl _ _
  | ok names =>
      have hreach := h names hlocate
      cases hentry : d.lookup names with
      | some entry =>
          have htouch : Disk.touch p mode d = (.ok (), d) := by
            unfold Disk.touch
            rw [run_get_bind, hreach.entry_eq, hentry, hreach.nul]
            rfl
          rw [htouch]
          exact .refl _ _
      | none =>
          obtain ⟨e, kept, htouch, he⟩ := hreach.touch hentry mode
          rw [htouch]
          have hdirectories := hreach.sameDirectories (fun hfile => by cases hfile) he
          refine ⟨hdirectories, fun q bytes _ hread => read_eq_ok hdirectories hread fun other hother => ?_⟩
          have hne : other ≠ names := by
            rintro rfl
            obtain ⟨kind, hfile⟩ := lookup_of_read hread hother
            rw [hentry] at hfile
            cases hfile
          rw [he, Function.update_of_ne hne]

/-- What comes of an attempt to give a file another path: it fails, or both paths lead to one place, or the
file moves. -/
theorem rename_cases (hp : d.MayReach p) (hq : d.MayReach q) :
    (∃ fault, Disk.rename p q d = (.error fault, d)) ∨
    (∃ names, d.locate p = .ok names ∧ d.locate q = .ok names ∧ Disk.rename p q d = (.ok (), d)) ∨
    ∃ names goal e, d.Reaches p names ∧ d.Reaches q goal ∧ (d.lookup names).isSome = true ∧
      Disk.rename p q d = (.ok (), e) ∧
      e.lookup = Function.update (Function.update d.lookup names none) goal (d.lookup names) := by
  cases hlocate : d.locate p with
  | error problem =>
      left
      unfold Disk.rename
      dsimp only
      split
      · exact ⟨_, rfl⟩
      · rw [run_get_bind, hlocate]
        exact ⟨_, rfl⟩
  | ok names =>
      cases hgoal : d.locate q with
      | error problem =>
          left
          unfold Disk.rename
          dsimp only
          split
          · exact ⟨_, rfl⟩
          · rw [run_get_bind, hlocate, hgoal]
            exact ⟨_, rfl⟩
      | ok goal =>
          have hreach := hp names hlocate
          have hreachGoal := hq goal hgoal
          have hnul : ¬(p.hasNul = true ∨ q.hasNul = true) := by simp [hreach.nul, hreachGoal.nul]
          rcases hreach.cases with hnone | ⟨content, kept, hfile⟩
          · left
            refine ⟨.refused .missing p (some q), ?_⟩
            unfold Disk.rename
            dsimp only
            rw [if_neg hnul, run_get_bind, hlocate, hgoal]
            dsimp only
            rw [hnone]
            rfl
          · right
            by_cases hsame : names = goal
            · subst hsame
              refine .inl ⟨names, rfl, rfl, ?_⟩
              unfold Disk.rename
              dsimp only
              rw [if_neg hnul, run_get_bind, hlocate, hgoal]
              dsimp only
              rw [hfile]
              dsimp only
              rw [if_pos rfl]
              rfl
            · have hthere : (d.lookup names).isSome = true := by rw [hfile]; rfl
              obtain ⟨e, hrename, he⟩ := hreach.rename hreachGoal hsame hthere
              exact .inr ⟨names, goal, e, hreach, hreachGoal, hthere, hrename, he⟩

/-- An attempt to give a file another path spares all other files, and the file is found under the one path
if it fails, and under the other if it succeeds. -/
theorem rename (hp : d.MayReach p) (hq : d.MayReach q) :
    Spares [p, q] d (Disk.rename p q d).2 ∧
      ∀ bytes, Disk.read p d = .ok bytes →
        Ensures d (Disk.rename p q) (Disk.read q · = .ok bytes) (Disk.read p · = .ok bytes) := by
  unfold Ensures
  rcases rename_cases hp hq with ⟨fault, hrename⟩ | ⟨names, hlocate, hgoal, hrename⟩ |
    ⟨names, goal, e, hreach, hreachGoal, hthere, hrename, he⟩
  · rw [hrename]
    exact ⟨.refl _ _, fun bytes hread => ⟨fun hok => (by cases hok), fun _ _ => hread⟩⟩
  · rw [hrename]
    refine ⟨.refl _ _, fun bytes hread => ⟨fun _ => ?_, fun _ herror => by cases herror⟩⟩
    obtain ⟨mode, hfile⟩ := lookup_of_read hread hlocate
    exact read_eq_ok_iff.mpr ⟨(hq names hgoal).nul, names, mode, hgoal, hfile⟩
  · rw [hrename]
    -- The file is gone from its old place before it is at its new one.
    have herased : Spares [p] d (d.erase names) :=
      hreach.spares (fun hnone => by cases hnone) hreach.lookup_erase
    have hgoalErased : (d.erase names).Reaches q goal :=
      (hq.keep herased.directories) goal (locate_eq_ok herased.directories hreachGoal.located)
    have hmoved : Spares [q] (d.erase names) e :=
      hgoalErased.spares hreach.free (by rw [he, hreach.lookup_erase])
    have hspares : Spares [p, q] d e := herased.trans hmoved
    refine ⟨hspares, fun bytes hread => ⟨fun _ => ?_, fun _ herror => by cases herror⟩⟩
    obtain ⟨mode, hfile⟩ := lookup_of_read hread hreach.located
    refine read_eq_ok_iff.mpr ⟨hreachGoal.nul, goal, mode, locate_eq_ok hspares.directories hreachGoal.located, ?_⟩
    rw [he, Function.update_self, hfile]

end MayReach

end CatalogSteward.Disk
