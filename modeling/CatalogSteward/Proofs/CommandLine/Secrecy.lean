import CatalogSteward.Proofs.Agreement
import CatalogSteward.Proofs.Client
import CatalogSteward.Proofs.CommandLine.Coupling
import CatalogSteward.Proofs.Disk

/-!
# The password does not leak

The password is read from the environment, or else from a file of variables. What a program prints, writes,
sends and returns is the same for any two passwords of the environment, unless one of them is empty. All
that the password ever reaches is the parameters of a connection.
-/

namespace CatalogSteward
open Act

namespace Access

variable {environment other : List (String × String)} {name s : String}

/-! ### Reading the password -/

/-- The last of the spellings of a name, in the order in which they appear first. -/
def spelling? (names : List String) (name : String) : Option String :=
  ((names.filter fun s => Text.lower s == name).foldl
    (fun seen s => if seen.contains s then seen else seen ++ [s]) []).getLast?

theorem valueOf_eq (bindings : List (String × Option String)) (name : String) :
    valueOf bindings name =
      match spelling? (bindings.map (·.1)) name with
      | none => none
      | some s => (bindings.reverse.find? fun b => b.1 == s).bind (·.2) := rfl

theorem mem_foldl_seen {names seen : List String} :
    s ∈ names.foldl (fun seen s => if seen.contains s then seen else seen ++ [s]) seen ↔
      s ∈ seen ∨ s ∈ names := by
  induction names generalizing seen with
  | nil => simp
  | cons x xs ih =>
      rw [List.foldl_cons, ih, List.mem_cons]
      split
      · next hseen =>
          have hx : x ∈ seen := List.contains_iff_mem.mp hseen
          refine ⟨Or.imp_right .inr, ?_⟩
          rintro (h | rfl | h)
          · exact .inl h
          · exact .inl hx
          · exact .inr h
      · rw [List.mem_append, List.mem_singleton, or_assoc]

theorem spelling?_some {names : List String} (h : spelling? names name = some s) :
    s ∈ names ∧ Text.lower s = name := by
  obtain hnone | hmem := mem_foldl_seen.mp (List.mem_of_getLast? h)
  · cases hnone
  · obtain ⟨hmem, hlower⟩ := List.mem_filter.mp hmem
    exact ⟨hmem, beq_iff_eq.mp hlower⟩

theorem spelling?_none {names : List String} (h : spelling? names name = none) :
    ∀ s ∈ names, Text.lower s ≠ name := by
  intro s hs hlower
  have hmem : s ∈ names.filter fun s => Text.lower s == name :=
    List.mem_filter.mpr ⟨hs, beq_iff_eq.mpr hlower⟩
  have hseen : s ∈ [] := List.getLast?_eq_none_iff.mp h ▸ mem_foldl_seen.mpr (.inr hmem)
  cases hseen

theorem names_alike (h : List.Forall₂ AlikeBindings environment other) :
    environment.map (·.1) = other.map (·.1) := by
  induction h with
  | nil => rfl
  | cons h _ ih => rw [List.map_cons, List.map_cons, h.1, ih]

/-- Environments without a password are alike only if they are the same. -/
theorem eq_of_alike (h : List.Forall₂ AlikeBindings environment other)
    (hnone : ∀ s ∈ environment.map (·.1), Text.lower s ≠ passwordVariable) : environment = other := by
  induction h with
  | nil => rfl
  | cons hb _ ih =>
      obtain ⟨hfirst, hrest⟩ := List.forall_mem_cons.mp hnone
      obtain ⟨hname, hvalue | ⟨hpassword, -⟩⟩ := hb
      · rw [Prod.ext hname hvalue, ih hrest]
      · exact absurd hpassword hfirst

theorem find?_alike (h : List.Forall₂ AlikeBindings environment other) (hs : s ∈ environment.map (·.1)) :
    ∃ b c, environment.find? (fun b => b.1 == s) = some b ∧ other.find? (fun b => b.1 == s) = some c ∧
      AlikeBindings b c := by
  induction h with
  | nil => cases hs
  | @cons b c _ _ hb _ ih =>
      rw [List.find?_cons, List.find?_cons, ← hb.1]
      cases hfound : b.1 == s with
      | true => exact ⟨b, c, rfl, rfl, hb⟩
      | false =>
          refine ih ((List.mem_cons.mp hs).resolve_left fun heq => ?_)
          exact Bool.false_ne_true (hfound.symm.trans (beq_iff_eq.mpr heq.symm))

/-- The same password or two that are not empty, unless there is none at all and the environments are the
same. -/
theorem valueOf_alike (h : List.Forall₂ AlikeBindings environment other) :
    environment = other ∨ ∃ p q,
      valueOf (environment.map fun b => (b.1, some b.2)) passwordVariable = some p ∧
      valueOf (other.map fun b => (b.1, some b.2)) passwordVariable = some q ∧
      (p = q ∨ p ≠ "" ∧ q ≠ "") := by
  have hnames (bindings : List (String × String)) :
      (bindings.map fun b => (b.1, some b.2)).map (·.1) = bindings.map (·.1) := by
    rw [List.map_map]
    rfl
  have hfind (bindings : List (String × String)) (s : String) :
      ((bindings.map fun b => (b.1, some b.2)).reverse.find? fun b => b.1 == s).bind (·.2) =
        (bindings.reverse.find? fun b => b.1 == s).map (·.2) := by
    rw [← List.map_reverse, List.find?_map]
    change (Option.map _ (bindings.reverse.find? fun b => b.1 == s)).bind _ = _
    cases bindings.reverse.find? fun b => b.1 == s <;> rfl
  simp only [valueOf_eq, hnames, hfind, names_alike h]
  cases hspelling : spelling? (other.map (·.1)) passwordVariable with
  | none =>
      rw [← names_alike h] at hspelling
      exact .inl (eq_of_alike h (spelling?_none hspelling))
  | some s =>
      have hs : s ∈ environment.reverse.map (·.1) := by
        rw [List.map_reverse, List.mem_reverse, names_alike h]
        exact (spelling?_some hspelling).1
      obtain ⟨b, c, hb, hc, -, halike⟩ := find?_alike (List.forall₂_reverse_iff.mpr h) hs
      dsimp only
      rw [hb, hc]
      exact .inr ⟨b.2, c.2, rfl, rfl, halike.imp_right And.right⟩

/-- The text of the file of variables, if there is one. -/
def variableText (d : Disk) : Except Failure (Option String) :=
  if d.isFile variableFile then
    match d.read variableFile with
    | .error f => .error (.fault (.disk f))
    | .ok bytes =>
      match Text.readText? bytes with
      | none => .error (.fault .unreadableText)
      | some text => .ok (some text)
  else .ok none

theorem readPassword_apply (environment : List (String × String)) (d : Disk) :
    readPassword environment d =
      ((variableText d).map fun text? =>
        (valueOf (environment.map fun b => (b.1, some b.2)) passwordVariable).orElse fun _ =>
          valueOf (text?.elim [] (DotEnv.read environment)) passwordVariable, d) := by
  rw [readPassword, run_get_bind, variableText]
  dsimp only
  split
  · cases d.read variableFile with
    | error f => rfl
    | ok bytes =>
        dsimp only
        cases Text.readText? bytes <;> rfl
  · rfl

/-- The access that is found with two passwords of the environment. -/
theorem load_alike (h : List.Forall₂ AlikeBindings environment other) (path : Path) (d : Disk) :
    Agreed Access.Alike (load path environment d).1 (load path other d).1 ∧
      (load path environment d).2 = (load path other d).2 := by
  obtain rfl | ⟨p, q, hp, hq, hpassword⟩ := valueOf_alike h
  · exact ⟨.refl (fun _ => ⟨rfl, .inl rfl⟩) _, rfl⟩
  · rw [load, load]
    rcases hsettings : Settings.loadOrDefault path d with ⟨f | settings, e⟩
    · rw [run_bind_error hsettings, run_bind_error hsettings]
      exact ⟨.error f, rfl⟩
    · rw [run_bind hsettings, run_bind hsettings]
      have hfirst := readPassword_apply environment e
      have hsecond := readPassword_apply other e
      cases hvariables : variableText e with
      | error f =>
          rw [hvariables] at hfirst hsecond
          rw [run_bind_error hfirst, run_bind_error hsecond]
          exact ⟨.error f, rfl⟩
      | ok text? =>
          rw [hvariables, hp] at hfirst
          rw [hvariables, hq] at hsecond
          rw [run_bind hfirst, run_bind hsecond]
          refine ⟨.ok ⟨rfl, ?_⟩, rfl⟩
          obtain rfl | ⟨hne, hne'⟩ := hpassword
          · exact .inl rfl
          · exact .inr ⟨by simpa [hasPassword] using hne, by simpa [hasPassword] using hne'⟩

end Access

namespace CommandLine

theorem loadAccess_agrees (i : Invocation) : Agree Access.Alike (loadAccess i) (loadAccess i) := by
  intro w v h
  have hload := Access.load_alike h.environment i.configPath
  rw [loadAccess, Act.get_bind, Act.get_bind]
  exact Agree.onDisk hload w v h

/-- Configurations are loaded side by side, whatever the password is. -/
theorem alike_loading : Loading World.Alike Access.Alike where
  toSharing := World.Alike.sharing
  loadAccess := loadAccess_agrees
  couples h := h.couples
  settings h := h.1
  hasPassword h := by
    obtain hpassword | ⟨hfirst, hsecond⟩ := h.2
    · rw [Access.hasPassword, Access.hasPassword, hpassword]
    · rw [hfirst, hsecond]

/-! ### Runs -/

theorem perform_blind (i : Invocation) (task : Task) : Blind (perform i task) := by
  by_cases htask : task = .validateSettings
  · rw [htask, perform, validateSettings_eq]
    refine .bind (alike_loading.checkedSettings i) fun access other h => ?_
    rw [h.1]
    split
    · exact alike_loading.showSettings _
    · exact .pure rfl
  · exact alike_loading.perform i htask

theorem run_blind (args : List String) : Blind (run args) := by
  refine .ask (fun _ _ _ => rfl) fun w => ?_
  cases Command.ofArguments w.disk args with
  | error failure => exact .throw _
  | ok command =>
      cases command with
      | version => exact .happen rfl
      | sampleSettings => exact .happen rfl
      | task i task => exact .next (.modify fun _ _ _ => rfl) fun _ => perform_blind i task

/-- Two runs of the program in worlds that differ in the password of the environment, which neither of them
lacks, come to the same result, and so to the same exit code, and leave worlds that differ in the password
alone: the same files, the same server, and the same trace, but for the password among the parameters of
connections. -/
theorem passwords_do_not_leak (args : List String) {w v : World} (h : w.Alike v) :
    (run args w).1 = (run args v).1 ∧ (run args w).2.Alike (run args v).2 := by
  obtain ⟨hresult, hafter⟩ := run_blind args w v h
  exact ⟨hresult.eq, hafter⟩

/-- A working directory without files, with a password in the environment. -/
def withPassword (password : String) : World :=
  { World.ofServer ⟨.fresh, 160002, [], []⟩ with environment := [("PGSTATE_PASSWORD", password)] }

theorem passwords_do_not_leak_list :
    (withPassword "horse").Alike (withPassword "battery") ∧
      (run ["extension", "list"] (withPassword "horse")).1 =
        (run ["extension", "list"] (withPassword "battery")).1 ∧
      (run ["extension", "list"] (withPassword "horse")).2.Alike
        (run ["extension", "list"] (withPassword "battery")).2 := by
  have hname : Text.lower "PGSTATE_PASSWORD" = Access.passwordVariable := by decide +kernel
  have halike : (withPassword "horse").Alike (withPassword "battery") :=
    ⟨.cons ⟨rfl, .inr ⟨hname, by decide, by decide⟩⟩ .nil, rfl, rfl⟩
  exact ⟨halike, passwords_do_not_leak ["extension", "list"] halike⟩

end CommandLine

end CatalogSteward
