import CatalogSteward.Proofs.Disk.Growth
import CatalogSteward.Proofs.Settings.File
import CatalogSteward.Proofs.Settings.Loading

/-!
# New configuration files

A new configuration file takes the place of one file or of none, and the directories above it are made: nothing
else changes, also when this fails on the way. The example says what the defaults are: its tokens are those of
the file that the default settings are written to, so it is loaded as these.
-/

namespace CatalogSteward

/-! ### Files in directories that may have to be made -/

namespace Disk

variable {d e : Disk} {p : Path} {names : List String}

/-- A file is written in full, or nothing changes. -/
theorem write_cases (p : Path) (content : List UInt8) (d : Disk) :
    (∃ fault, write p content d = (.error fault, d)) ∨
      ∃ names mode, p.hasNul = false ∧ d.locate p = .ok names ∧ d.lookup names ≠ some .directory ∧
        write p content d = (.ok (), d.store names (.file content mode)) := by
  unfold write update
  rcases locating_cases p d with ⟨fault, hlocating⟩ | ⟨names, hnul, hlocate, hlocating⟩
  · exact .inl ⟨fault, run_bind_error hlocating _⟩
  · rw [run_bind hlocating, run_get_bind]
    cases hentry : d.lookup names with
    | none => exact .inr ⟨names, 0o644, hnul, hlocate, by simp [hentry], rfl⟩
    | some entry =>
        cases entry with
        | directory => exact .inl ⟨_, rfl⟩
        | file old mode => exact .inr ⟨names, mode, hnul, hlocate, by simp [hentry], rfl⟩

theorem setMode_file {content : List UInt8} {old : Nat} (hnul : p.hasNul = false) (hlocate : d.locate p = .ok names)
    (hfile : d.lookup names = some (.file content old)) (mode : Nat) :
    setMode p mode d = (.ok (), d.store names (.file content mode)) := by
  unfold setMode
  rw [run_bind (locating_eq_ok hnul hlocate), run_get_bind, hfile]
  rfl

theorem locate_store_file (hlocate : d.locate p = .ok names) (hfree : d.lookup names ≠ some .directory)
    (content : List UInt8) (mode : Nat) : (d.store names (.file content mode)).locate p = .ok names :=
  locate_eq_ok (sameDirectories_update hfree (fun hfile => by cases hfile) (lookup_store _ _ _)) hlocate

/-- A file of some content and mode, with the directories above it. -/
def makeFile (p : Path) (content : List UInt8) (mode : Nat) : Action Unit := do
  makeDirectories p.parent
  write p content
  setMode p mode

/-- There is a file where a path leads, in place of one or of nothing, and all that is new elsewhere are
directories. -/
structure Placed (d e : Disk) (p : Path) (content : List UInt8) (mode : Nat) (names : List String) : Prop where
  nul : p.hasNul = false
  located : e.locate p = .ok names
  file : e.lookup names = some (.file content mode)
  free : d.lookup names ≠ some .directory
  others : ∀ other, other ≠ names →
    e.lookup other = d.lookup other ∨ (d.lookup other = none ∧ e.lookup other = some .directory)

/-- A file is made as it should be, or at most directories are. -/
theorem makeFile_cases (p : Path) (content : List UInt8) (mode : Nat) (d : Disk) :
    (∃ fault e, makeFile p content mode d = (.error fault, e) ∧ d.Grows e) ∨
      ∃ e names, makeFile p content mode d = (.ok (), e) ∧ Placed d e p content mode names := by
  obtain ⟨hmade, hstopped⟩ := makeDirectories_grows p.parent d
  unfold makeFile
  rcases hrun : makeDirectories p.parent d with ⟨fault | _, g⟩ <;> rw [hrun] at hmade hstopped
  · exact .inl ⟨fault, g, run_bind_error hrun _, hstopped fault rfl⟩
  · have hgrows : d.Grows g := hmade rfl
    rw [run_bind hrun]
    rcases write_cases p content g with ⟨fault, hwrite⟩ | ⟨names, old, hnul, hlocate, hfree, hwrite⟩
    · exact .inl ⟨fault, g, run_bind_error hwrite _, hgrows⟩
    · have hlocated := locate_store_file hlocate hfree content old
      have hfile := lookup_store_self g names (.file content old)
      have hlast := locate_store_file hlocated (by simp [hfile]) content mode
      rw [run_bind hwrite]
      refine .inr ⟨_, names, setMode_file hnul hlocated hfile mode, hnul, hlast, lookup_store_self _ _ _, ?_, ?_⟩
      · exact fun hthere => hfree (hgrows.lookup_eq_some hthere)
      · intro other hother
        rw [lookup_store_of_ne hother, lookup_store_of_ne hother]
        exact hgrows other

/-- Down a tree, where a path leads is known before. -/
theorem LeadsDown.follow_eq (h : LeadsDown p) {front : List String} (hfront : front <+: p.parts)
    (hfollow : d.follow p.start front = .ok names) :
    names = p.start ++ front ∧ ∀ before, before <+: front → before ≠ front →
      d.lookup (p.start ++ before) = some .directory := by
  induction front using List.reverseRecOn generalizing names with
  | nil =>
      obtain rfl := Except.ok.inj hfollow
      exact ⟨(List.append_nil _).symm, fun before hbefore hne => absurd (List.prefix_nil.mp hbefore) hne⟩
  | append_singleton front part ih =>
      obtain ⟨found, hfound, hdirectory, rfl⟩ := follow_concat hfollow
      have hpart : part ∈ p.parts := hfront.subset (List.mem_append_right _ (List.mem_singleton_self _))
      obtain ⟨rfl, habove⟩ := ih ((List.prefix_append _ _).trans hfront) hfound
      rw [if_neg (h.down part hpart).1]
      refine ⟨List.append_assoc _ _ _, fun before hbefore hne => ?_⟩
      rcases List.prefix_concat_iff.mp hbefore with hall | hshorter
      · exact absurd hall hne
      · by_cases hsame : before = front
        · rw [hsame, hdirectory]
        · exact habove before hshorter hsame

theorem IsTree.parts_ne_nil (hd : d.IsTree) (hfree : d.lookup p.place ≠ some .directory) : p.parts ≠ [] := by
  intro hempty
  have hplace : p.place = p.start := by rw [Path.place, hempty, List.append_nil]
  exact hfree (hplace ▸ hd.lookup_given p.isGiven_start)

/-- Down a tree, there is something under a path if there is something in its place. -/
theorem LeadsDown.pathExists (h : LeadsDown p) (hd : d.IsTree) (hway : d.Unblocked p.parent)
    (hfree : d.lookup p.place ≠ some .directory) : Disk.pathExists p d = .ok (d.lookup p.place).isSome := by
  have hne := hd.parts_ne_nil hfree
  unfold Disk.pathExists
  rw [h.nul, if_neg Bool.false_ne_true]
  by_cases hparent : d.lookup p.parent.place = some .directory
  · rw [entry_of_locate (h.locate_eq_ok hne hd hparent)]
    cases d.lookup p.place <;> rfl
  · have hnone : d.lookup p.place = none := by
      by_contra hthere
      exact hparent (h.above_place hne ▸ hd.lookup_above hthere)
    rw [entry, h.locate_missing hne hd hway hparent, hnone]
    rfl

/-- What is on the way to a file is a directory in the end, so it was one or was missing. -/
theorem Placed.unblocked {content : List UInt8} {mode : Nat} (hplaced : Placed d e p content mode names)
    (h : LeadsDown p) (hne : p.parts ≠ []) : names = p.place ∧ d.Unblocked p.parent := by
  have hfollow := hplaced.located
  rw [h.locate_eq] at hfollow
  obtain ⟨rfl, hway⟩ := h.follow_eq (List.prefix_refl _) hfollow
  refine ⟨rfl, fun front hfront => ?_⟩
  have hshorter : front ≠ p.parts := by
    rintro rfl
    have hlength := hfront.length_le
    have hsome := List.length_pos_iff.mpr hne
    rw [Path.parent, List.length_dropLast] at hlength
    omega
  have hlast := hway front (hfront.trans (List.dropLast_prefix _)) hshorter
  rcases hplaced.others (p.start ++ front) (fun hsame => hshorter (List.append_cancel_left hsame)) with
    hkept | ⟨hnone, -⟩
  · exact .inr (hkept.symm.trans hlast)
  · exact .inl hnone

theorem LeadsDown.makeFile (h : LeadsDown p) (hd : d.IsTree) (hway : d.Unblocked p.parent)
    (hfree : d.lookup p.place ≠ some .directory) (content : List UInt8) (mode : Nat) :
    ∃ e, Disk.makeFile p content mode d = (.ok (), e) := by
  have hne := hd.parts_ne_nil hfree
  obtain ⟨e, hmade, hopened⟩ := (h.parent hne).makeDirectories hd hway
  have hlonger : p.parent.place.length < p.place.length := by
    rw [h.place_eq hne, List.length_append]
    exact Nat.lt_succ_self _
  have hreach : e.Reaches p p.place :=
    { nul := h.nul
      located := h.locate_eq_ok hne hopened.tree hopened.home.directory
      stored := h.not_isGiven hne
      free := by rwa [hopened.below _ hlonger] }
  obtain ⟨f, old, hwrite, hf⟩ := hreach.update 0o644 fun _ => content
  have hlocated := Disk.locate_eq_ok (hreach.sameDirectories (by simp) hf) hreach.located
  have hfile : f.lookup p.place = some (.file content old) := by rw [hf, Function.update_self]
  refine ⟨f.store p.place (.file content mode), ?_⟩
  unfold Disk.makeFile write
  rw [run_bind hmade, run_bind hwrite]
  exact setMode_file h.nul hlocated hfile mode

/-- Down a tree, a file is made exactly if there is no file on its way and no directory in its place. -/
theorem LeadsDown.makeFile_iff (h : LeadsDown p) (hd : d.IsTree) (content : List UInt8) (mode : Nat) :
    (∃ e, Disk.makeFile p content mode d = (.ok (), e)) ↔
      d.Unblocked p.parent ∧ d.lookup p.place ≠ some .directory := by
  constructor
  · rintro ⟨e, hrun⟩
    rcases makeFile_cases p content mode d with ⟨fault, g, hfailed, -⟩ | ⟨g, names, -, hplaced⟩
    · cases hrun.symm.trans hfailed
    · have hne : p.parts ≠ [] := by
        intro hempty
        have hfollow := hplaced.located
        rw [h.locate_eq, hempty] at hfollow
        obtain rfl := Except.ok.inj hfollow
        exact hplaced.free (hd.lookup_given p.isGiven_start)
      obtain ⟨rfl, hway⟩ := hplaced.unblocked h hne
      exact ⟨hway, hplaced.free⟩
  · rintro ⟨hway, hfree⟩
    exact h.makeFile hd hway hfree content mode

end Disk

namespace Settings

variable {path : Path} {force : Bool} {d e : Disk}

/-! ### The example -/

theorem isWritable_default : Settings.default.isWritable = true := by
  simp only [isWritable, Bool.and_eq_true]
  exact ⟨⟨isWritable_of_port (by decide), isWritable_of_port (by decide)⟩, isWritable_of_port (by decide)⟩

theorem toList_toYaml (s : Settings) :
    s.toYaml.toList = Yaml.Tree.writeEntries 0 [] (s.sections.map Yaml.Section.tree) := by
  have hsome : ¬(s.sections.map Yaml.Section.tree).isEmpty = true := Bool.false_ne_true
  rw [toYaml_eq, Yaml.write, if_neg hsome, String.toList_ofList]

/-- The example differs from the file of the default settings in its comments and blanks alone. -/
theorem tokens_exampleText : '\r' ∉ exampleText.toList ∧
    Yaml.Token.ofText exampleText.toList = Yaml.Token.ofText Settings.default.toYaml.toList := by
  -- compared as lists of characters, since the kernel is slow to take a long text apart
  have hlists : ∃ cs, exampleText = String.ofList cs ∧ '\r' ∉ cs ∧
      Yaml.Token.ofText cs =
        Yaml.Token.ofText (Yaml.Tree.writeEntries 0 [] (Settings.default.sections.map Yaml.Section.tree)) := by
    set_option maxRecDepth 4000 in
    exact ⟨_, rfl, by decide +kernel, by decide +kernel⟩
  obtain ⟨cs, hexample, hreturn, htokens⟩ := hlists
  rw [toList_toYaml, hexample, String.toList_ofList]
  exact ⟨hreturn, htokens⟩

/-- Texts of the same tokens hold the same settings. -/
theorem ofText_congr {s t : String} (h : Yaml.Token.ofText s.toList = Yaml.Token.ofText t.toList) (path : Path) :
    ofText path s = ofText path t := by
  unfold ofText Yaml.read
  rw [h]

theorem ofText_exampleText (path : Path) : ofText path exampleText = .ok .default := by
  rw [ofText_congr tokens_exampleText.2, ofText_toYaml isAccepted_default isWritable_default]

/-! ### Making a file from the example -/

theorem initFile_present (hthere : d.pathExists path = .ok true) (hforce : force = false) :
    initFile path force d = (.error (.error (.configPresent path)), d) := by
  have hasked := DiskAct.ask_eq (Disk.pathExists path) d
  rw [hthere] at hasked
  unfold initFile
  rw [run_bind hasked, hforce]
  rfl

theorem initFile_eq {found : Bool} (hthere : d.pathExists path = .ok found) (hmay : (found && !force) = false) :
    initFile path force d =
      DiskAct.ofAction (Disk.makeFile path (Text.encodeUtf8 exampleText) fileMode) d := by
  have hasked := DiskAct.ask_eq (Disk.pathExists path) d
  rw [hthere] at hasked
  unfold initFile
  rw [run_bind hasked, hmay]
  rfl

theorem initFile_cases (path : Path) (force : Bool) (d : Disk) :
    (∃ f, initFile path force d = (.error f, d)) ∨
      ∃ found, d.pathExists path = .ok found ∧ (found && !force) = false := by
  cases hthere : d.pathExists path with
  | error fault =>
      have hasked := DiskAct.ask_eq (Disk.pathExists path) d
      rw [hthere] at hasked
      exact .inl ⟨_, run_bind_error hasked _⟩
  | ok found =>
      cases hrefused : found && !force with
      | false => exact .inr ⟨found, rfl, hrefused⟩
      | true =>
          obtain ⟨rfl, hforce⟩ := (Bool.and_eq_true _ _).mp hrefused
          exact .inl ⟨_, initFile_present hthere (by simpa using hforce)⟩

theorem initFile_ok_iff : initFile path force d = (.ok (), e) ↔
    (∃ found, d.pathExists path = .ok found ∧ (found && !force) = false) ∧
      Disk.makeFile path (Text.encodeUtf8 exampleText) fileMode d = (.ok (), e) := by
  have hmade := DiskAct.ofAction_eq (Disk.makeFile path (Text.encodeUtf8 exampleText) fileMode) d
  constructor
  · intro hdone
    rcases initFile_cases path force d with ⟨f, hrefused⟩ | ⟨found, hthere, hmay⟩
    · cases hrefused.symm.trans hdone
    · rw [initFile_eq hthere hmay, hmade] at hdone
      rcases hrun : Disk.makeFile path (Text.encodeUtf8 exampleText) fileMode d with ⟨fault | _, g⟩
      · rw [hrun] at hdone
        cases hdone
      · rw [hrun] at hdone
        exact ⟨⟨found, hthere, hmay⟩, congrArg (Prod.mk _) (congrArg Prod.snd hdone)⟩
  · rintro ⟨⟨found, hthere, hmay⟩, hrun⟩
    rw [initFile_eq hthere hmay, hmade, hrun]
    rfl

/-- If no file is made then at most directories are. -/
theorem grows_of_initFile {f : Failure} (hfailed : initFile path force d = (.error f, e)) : d.Grows e := by
  rcases initFile_cases path force d with ⟨g, hrefused⟩ | ⟨found, hthere, hmay⟩
  · cases hrefused.symm.trans hfailed
    exact .refl d
  · rw [initFile_eq hthere hmay, DiskAct.ofAction_eq] at hfailed
    rcases Disk.makeFile_cases path (Text.encodeUtf8 exampleText) fileMode d with
      ⟨fault, g, hrun, hgrows⟩ | ⟨g, names, hrun, -⟩
    · rw [hrun] at hfailed
      cases hfailed
      exact hgrows
    · rw [hrun] at hfailed
      cases hfailed

/-- Making a configuration file harms nothing that is there. If there is something under the path and it is not to
be replaced, this is an error about it, and nothing changes. In whatever way it fails, all that is there stays, and
what is new are directories. If it succeeds then the path leads to a file that only its owner may read and that is
loaded as the defaults; it stands in the place of a file or of nothing, and elsewhere nothing but directories has
come. Down a tree, it succeeds exactly if no file is in the way and no directory in the place, and the place is free
unless a file there is to be replaced. -/
theorem new_files_spare_others (path : Path) (force : Bool) (d : Disk) :
    (∀ entry, path.hasNul = false → d.entry path = .ok entry → force = false →
      initFile path force d = (.error (.error (.configPresent path)), d) ∧
        (Error.configPresent path).Concerns path) ∧
    (∀ f e, initFile path force d = (.error f, e) → d.Grows e) ∧
    (∀ e, initFile path force d = (.ok (), e) → ∃ names,
      d.Placed e path (Text.encodeUtf8 exampleText) 0o600 names ∧ load path e = (.ok .default, e)) ∧
    (d.IsTree → Disk.LeadsDown path →
      ((∃ e, initFile path force d = (.ok (), e)) ↔
        d.Unblocked path.parent ∧ d.lookup path.place ≠ some .directory ∧
          (force = true ∨ d.lookup path.place = none))) := by
  refine ⟨fun entry hnul hentry hforce => ⟨?_, rfl, _, rfl⟩, fun f e => grows_of_initFile, fun e hdone => ?_,
    fun hd hdown => ?_⟩
  · have hthere : d.pathExists path = .ok true := by
      rw [Disk.pathExists, hnul, if_neg Bool.false_ne_true, hentry]
    exact initFile_present hthere hforce
  · obtain ⟨-, hrun⟩ := initFile_ok_iff.mp hdone
    rcases Disk.makeFile_cases path (Text.encodeUtf8 exampleText) fileMode d with
      ⟨fault, g, hfailed, -⟩ | ⟨g, names, hmade, hplaced⟩
    · cases hfailed.symm.trans hrun
    · obtain rfl : g = e := congrArg Prod.snd (hmade.symm.trans hrun)
      have hread : Disk.read path g = .ok (Text.encodeUtf8 exampleText) :=
        Disk.read_eq_ok_iff.mpr ⟨hplaced.nul, names, fileMode, hplaced.located, hplaced.file⟩
      exact ⟨names, hplaced, by rw [load_ofText tokens_exampleText.1 hread, ofText_exampleText]⟩
  · have hway := hdown.makeFile_iff hd (Text.encodeUtf8 exampleText) fileMode
    have hthere := hdown.pathExists hd
    constructor
    · rintro ⟨e, hdone⟩
      obtain ⟨⟨found, hfound, hmay⟩, hrun⟩ := initFile_ok_iff.mp hdone
      obtain ⟨hunblocked, hfree⟩ := hway.mp ⟨e, hrun⟩
      refine ⟨hunblocked, hfree, ?_⟩
      obtain rfl := Except.ok.inj ((hthere hunblocked hfree).symm.trans hfound)
      cases hforce : force with
      | true => exact .inl rfl
      | false =>
          rw [hforce, Bool.not_false, Bool.and_true] at hmay
          exact .inr (Option.isNone_iff_eq_none.mp (Option.isSome_eq_false_iff.mp hmay))
    · rintro ⟨hunblocked, hfree, hmay⟩
      obtain ⟨e, hrun⟩ := hway.mpr ⟨hunblocked, hfree⟩
      refine ⟨e, initFile_ok_iff.mpr ⟨⟨_, hthere hunblocked hfree, ?_⟩, hrun⟩⟩
      rcases hmay with hforce | hnone
      · rw [hforce, Bool.not_true, Bool.and_false]
      · rw [hnone, Option.isSome_none, Bool.false_and]

/-- A disk with one file, in a directory. -/
def furnished : Disk := ⟨[(["etc"], .directory), (["etc", "config.yaml"], .file [35, 10] 0o644)]⟩

/-- The file of `furnished` is kept, or replaced when that is forced, and it stays as it is when a file is made in
directories that are missing. -/
theorem new_files_spare_others_furnished :
    initFile ⟨0, ["etc", "config.yaml"]⟩ false furnished =
        (.error (.error (.configPresent ⟨0, ["etc", "config.yaml"]⟩)), furnished) ∧
      (∃ e, initFile ⟨0, ["etc", "config.yaml"]⟩ true furnished = (.ok (), e) ∧
        load ⟨0, ["etc", "config.yaml"]⟩ e = (.ok .default, e)) ∧
      ∃ e, initFile ⟨0, ["a", "b", "config.yaml"]⟩ false furnished = (.ok (), e) ∧
        load ⟨0, ["a", "b", "config.yaml"]⟩ e = (.ok .default, e) ∧
        e.lookup ["etc", "config.yaml"] = some (.file [35, 10] 0o644) := by
  have hd : furnished.IsTree := by decide
  refine ⟨?_, ?_, ?_⟩
  · exact ((new_files_spare_others _ _ _).1 (.file [35, 10] 0o644) rfl rfl rfl).1
  · obtain ⟨-, -, hmade, hdone⟩ := new_files_spare_others ⟨0, ["etc", "config.yaml"]⟩ true furnished
    obtain ⟨e, hrun⟩ := (hdone hd (by decide)).mpr (by decide)
    obtain ⟨names, -, hload⟩ := hmade e hrun
    exact ⟨e, hrun, hload⟩
  · obtain ⟨-, -, hmade, hdone⟩ := new_files_spare_others ⟨0, ["a", "b", "config.yaml"]⟩ false furnished
    have hnew : Disk.LeadsDown ⟨0, ["a", "b", "config.yaml"]⟩ := by decide
    obtain ⟨e, hrun⟩ := (hdone hd hnew).mpr (by decide)
    obtain ⟨names, hplaced, hload⟩ := hmade e hrun
    obtain ⟨rfl, -⟩ := hplaced.unblocked hnew (by decide)
    refine ⟨e, hrun, hload, ?_⟩
    rcases hplaced.others ["etc", "config.yaml"] (by decide) with hkept | ⟨hnone, -⟩
    · exact hkept
    · cases hnone

end Settings

end CatalogSteward
