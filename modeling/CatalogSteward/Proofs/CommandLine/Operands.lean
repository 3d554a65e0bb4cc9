import CatalogSteward.CommandLine.Command
import CatalogSteward.Proofs.Act

/-!
# What arguments name

A command names an extension by an argument as it stands. The other texts that a command is given are values
of options, and these are arguments or ends of arguments: no command is given a character that no argument has.
-/

namespace CatalogSteward.CommandLine

/-- A text made of characters of the arguments. -/
def Drawn (args : List String) (text : String) : Prop := ∀ c ∈ text.toList, ∃ arg ∈ args, c ∈ arg.toList

namespace Drawn

variable {args more : List String} {arg text : String}

theorem of_mem (h : text ∈ args) : Drawn args text := fun _ hc => ⟨text, h, hc⟩

theorem mono (h : Drawn args text) (hsub : args ⊆ more) : Drawn more text := by
  intro c hc
  obtain ⟨arg, harg, hmem⟩ := h c hc
  exact ⟨arg, hsub harg, hmem⟩

/-- What none of the arguments has, the text does not have. -/
theorem notMem {c : Char} (h : Drawn args text) (hargs : ∀ arg ∈ args, c ∉ arg.toList) : c ∉ text.toList := by
  intro hc
  obtain ⟨arg, harg, hmem⟩ := h c hc
  exact hargs arg harg hmem

end Drawn

/-! ### Options -/

/-- An argument that gives options gives them no other characters than its own. -/
def Reading.Within (r : Reading) (arg : List Char) : Prop := ∀ g ∈ r.given, ∀ c ∈ g.2.toList, c ∈ arg

theorem readLong_within {accepted : List Switch} {arg : List Char} {r : Reading}
    (h : readLong accepted arg = some r) : r.Within arg := by
  obtain ⟨s, -, hread⟩ := Option.bind_eq_some_iff.mp h
  have hvalue {value : List Char} {c : Char} (hrest : arg.dropWhile (· ≠ '=') = c :: value) :
      ∀ c ∈ value, c ∈ arg := by
    intro c hc
    exact (List.dropWhile_suffix _).subset (hrest ▸ List.mem_cons_of_mem _ hc)
  split at hread
  · obtain rfl := Option.some.inj hread
    simp [Reading.Within]
  · cases hread
  · obtain rfl := Option.some.inj hread
    simp [Reading.Within]
  · next hrest =>
      obtain rfl := Option.some.inj hread
      simpa [Reading.Within] using hvalue hrest

theorem readLetters_within {accepted : List Switch} {letters : List Char} {r : Reading}
    (h : readLetters accepted letters = some r) : r.Within letters := by
  induction letters generalizing r with
  | nil =>
      obtain rfl := Option.some.inj h
      simp [Reading.Within]
  | cons letter letters ih =>
      obtain ⟨s, -, hread⟩ := Option.bind_eq_some_iff.mp h
      split at hread
      · split at hread
        · obtain rfl := Option.some.inj hread
          simp [Reading.Within]
        · obtain rfl := Option.some.inj hread
          simp only [Reading.Within, List.forall_mem_singleton, String.toList_ofList]
          exact fun c hc => List.mem_cons_of_mem _ hc
      · obtain ⟨rest, hrest, hr⟩ := Option.bind_eq_some_iff.mp hread
        obtain rfl := Option.some.inj hr
        simp only [Reading.Within, List.forall_mem_cons]
        constructor
        · simp
        · exact fun g hg c hc => List.mem_cons_of_mem _ (ih hrest g hg c hc)

theorem readOption_within {accepted : List Switch} {arg : List Char} {r : Reading}
    (h : readOption accepted arg = some r) : r.Within arg := by
  unfold readOption at h
  split at h
  · exact readLong_within h
  · exact fun g hg c hc => List.mem_cons_of_mem _ (readLetters_within h g hg c hc)
  · cases h

/-! ### Arguments -/

namespace Arguments

/-- Arguments that were taken apart: the operands are arguments, and the options have no other characters. -/
structure Apart (args : List String) (a : Arguments) : Prop where
  operands : a.operands ⊆ args
  given : ∀ g ∈ a.given, Drawn args g.2

theorem apart_read {accepted : List Switch} {mixed : Bool} {args : List String} {a : Arguments}
    (h : read accepted mixed args = some a) : Apart args a := by
  -- along the arguments, as they are read: each gives an operand, some options, or an option with the next one
  fun_induction read accepted mixed args generalizing a with
  | case1 =>
      obtain rfl := Option.some.inj h
      exact ⟨List.nil_subset _, by simp⟩
  | case2 args =>
      obtain rfl := Option.some.inj h
      exact ⟨List.subset_cons_self _ _, by simp⟩
  | case3 arg args _ _ _ ih =>
      obtain ⟨b, hb, rfl⟩ := Option.map_eq_some_iff.mp h
      obtain ⟨hoperands, hgiven⟩ := ih hb
      exact ⟨List.cons_subset_cons _ hoperands, fun g hg => (hgiven g hg).mono (List.subset_cons_self _ _)⟩
  | case4 arg args =>
      obtain rfl := Option.some.inj h
      exact ⟨List.Subset.refl _, by simp⟩
  | case5 => cases h
  | case6 arg args _ _ given hread ih =>
      obtain ⟨b, hb, rfl⟩ := Option.map_eq_some_iff.mp h
      obtain ⟨hoperands, hgiven⟩ := ih hb
      refine ⟨List.Subset.trans hoperands (List.subset_cons_self _ _), ?_⟩
      intro g hg
      obtain hg | hg := List.mem_append.mp hg
      · exact fun c hc => ⟨arg, List.mem_cons_self, readOption_within hread g hg c hc⟩
      · exact (hgiven g hg).mono (List.subset_cons_self _ _)
  | case7 => cases h
  | case8 arg _ _ given s hread value args ih =>
      obtain ⟨b, hb, rfl⟩ := Option.map_eq_some_iff.mp h
      obtain ⟨hoperands, hgiven⟩ := ih hb
      have hsub : args ⊆ arg :: value :: args :=
        List.Subset.trans (List.subset_cons_self _ _) (List.subset_cons_self _ _)
      refine ⟨List.Subset.trans hoperands hsub, ?_⟩
      intro g hg
      obtain hg | hg := List.mem_append.mp hg
      · exact fun c hc => ⟨arg, List.mem_cons_self, readOption_within hread g hg c hc⟩
      · obtain rfl | hg := List.mem_cons.mp hg
        · exact .of_mem (List.mem_cons_of_mem _ List.mem_cons_self)
        · exact (hgiven g hg).mono hsub

theorem Apart.value {args : List String} {a : Arguments} (h : Apart args a) {s : Switch} {text : String}
    (hvalue : a.value? s = some text) : Drawn args text := by
  obtain ⟨g, hg, rfl⟩ := Option.map_eq_some_iff.mp hvalue
  exact h.given g (List.mem_reverse.mp (List.mem_of_find?_eq_some hg))

theorem early_ok {a : Arguments} {command : Command} (h : a.early? = some (.ok command)) :
    command = .version := by
  obtain ⟨g, -, houtcome⟩ := Option.map_eq_some_iff.mp h
  split at houtcome
  · exact (Except.ok.inj houtcome).symm
  · cases houtcome

end Arguments

/-! ### Commands -/

/-- A command of a group is made by the form that belongs to a word among the arguments, from what follows. -/
theorem readGroup_ok {switches : List Switch} {next : String → Option (List String → Except Failure Command)}
    {args : List String} {command : Command} (h : readGroup switches next args = .ok command) :
    command = .version ∨
      ∃ word read rest, next word = some read ∧ rest ⊆ args ∧ read rest = .ok command := by
  unfold readGroup at h
  dsimp only at h
  split at h
  · cases h
  · next a ha =>
      have hoperands := (Arguments.apart_read ha).operands
      split at h
      · next hearly => exact .inl (Arguments.early_ok (h ▸ hearly))
      · cases h
      · next word rest _ hwords =>
          split at h
          · next read hread =>
              exact .inr ⟨word, read, rest, hread,
                List.Subset.trans (List.subset_cons_self _ _) (hwords ▸ hoperands), h⟩
          · cases hearly : (Arguments.read switches false (word :: rest)).bind Arguments.early? with
            | none => rw [hearly] at h; cases h
            | some outcome =>
                rw [hearly] at h
                obtain ⟨b, -, hb⟩ := Option.bind_eq_some_iff.mp hearly
                obtain rfl : outcome = .ok command := h
                exact .inl (Arguments.early_ok hb)

theorem Form.read_ok {f : Form} {d : Disk} {args : List String} {command : Command}
    (h : f.read d args = .ok command) :
    command = .version ∨ ∃ a name, Arguments.Apart args a ∧ (f.isNamed = true → name ∈ args) ∧
      command = f.command a name := by
  unfold Form.read at h
  split at h
  · cases h
  · next a ha =>
      have hapart := Arguments.apart_read ha
      split at h
      · next hearly => exact .inl (Arguments.early_ok (h ▸ hearly))
      · right
        obtain ⟨-, -, hoperands⟩ := except_bind_eq_ok_iff.mp h
        split at hoperands
        · next name _ hname =>
            exact ⟨a, name, hapart, fun _ => hapart.operands (by simp [hname]), (Except.ok.inj hoperands).symm⟩
        · next hnamed _ => exact ⟨a, "", hapart, by simp [hnamed], (Except.ok.inj hoperands).symm⟩
        · cases hoperands

/-- The extension that a task is about. -/
def Task.name? : Task → Option String
  | .create desired => some desired.name
  | .display name => some name
  | .probe name => some name
  | .update wanted _ => some wanted.name
  | .delete name => some name
  | .adopt name => some name
  | _ => none

/-- What a task was given besides a name. -/
def Task.values : Task → List String
  | .create desired => desired.schema.toList ++ desired.version.toList
  | .update wanted _ => wanted.schema.toList ++ wanted.version.toList
  | _ => []

/-- A form that takes the name of its task from the operand, if it has one, and all else from options. -/
def Form.Takes (f : Form) : Prop := ∀ a name i task, f.command a name = .task i task →
  (∀ n ∈ task.name?, f.isNamed = true ∧ n = name) ∧ ∀ text ∈ task.values, ∃ s, a.value? s = some text

theorem takes_forms : ∀ f ∈ extensionForms ++ configForms, f.Takes := by
  simp only [extensionForms, configForms, List.cons_append, List.nil_append, List.forall_mem_cons,
    Form.ofTask, Form.Takes, Command.task.injEq]
  simp only [reduceCtorEq, false_implies, implies_true, List.not_mem_nil, and_imp,
    and_true]
  refine ⟨?_, ?_, ?_, ?_, ?_, ?_, ?_, ?_, ?_, ?_⟩
  all_goals
    rintro a name _ _ - rfl
    simp only [Task.name?, Task.values, Arguments.declared, List.mem_append, Option.mem_toList]
    grind

/-- Whatever a task is about is named by the arguments. -/
theorem ofArguments_task {d : Disk} {args : List String} {i : Invocation} {task : Task}
    (h : Command.ofArguments d args = .ok (.task i task)) :
    (∀ name ∈ task.name?, name ∈ args) ∧ ∀ text ∈ task.values, Drawn args text := by
  have hforms (forms : List Form) (hsub : forms ⊆ extensionForms ++ configForms) {rest : List String}
      (hrest : rest ⊆ args) (hread : readForms forms d rest = .ok (.task i task)) :
      (∀ name ∈ task.name?, name ∈ args) ∧ ∀ text ∈ task.values, Drawn args text := by
    obtain hversion | ⟨word, read, operands, hword, hoperands, hcommand⟩ := readGroup_ok hread
    · cases hversion
    · obtain ⟨f, hf, rfl⟩ := Option.map_eq_some_iff.mp hword
      have htakes := takes_forms f (hsub (List.mem_of_find?_eq_some hf))
      obtain hversion | ⟨a, name, hapart, hnamed, hmade⟩ := f.read_ok hcommand
      · cases hversion
      · obtain ⟨hname, hvalues⟩ := htakes a name i task hmade.symm
        constructor
        · intro n hn
          obtain ⟨hnamed', rfl⟩ := hname n hn
          exact hrest (hoperands (hnamed hnamed'))
        · intro text htext
          obtain ⟨s, hs⟩ := hvalues text htext
          exact ((hapart.value hs).mono hoperands).mono hrest
  obtain hversion | ⟨word, read, rest, hword, hrest, hcommand⟩ := readGroup_ok h
  · cases hversion
  · split at hword
    · cases hword
      exact hforms extensionForms (List.subset_append_left _ _) hrest hcommand
    · split at hword
      · cases hword
        exact hforms configForms (List.subset_append_right _ _) hrest hcommand
      · cases hword

end CatalogSteward.CommandLine
