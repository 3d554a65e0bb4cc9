import CatalogSteward.Proofs.CommandLine.Works

/-!
# The discipline of commands

Whatever the arguments, the configuration and the server are, the trace of a command is in good order: its
sections under the lock are bracketed and its connection is opened and closed once. What a command does
besides its session touches neither the server nor the lock, so it is enough to follow the operations that
are carried out within the session.
-/

namespace CatalogSteward
open Act

/-! ### What commands do besides -/

/-- What fails, if it fails, for no reason that has to do with a lock. -/
def DiskAct.Unlocked (_ : Disk) (o : Option Failure) (_ : Disk) : Prop := ∀ f ∈ o, f.isOfLock = false

namespace DiskAct

theorem unlocked_composes : Composes Unlocked where
  refl _ _ h := by cases h
  trans _ k := k

theorem unlocked_throw {α : Type} {f : Failure} (h : f.isOfLock = false) :
    Leads Unlocked (throw f : DiskAct α) :=
  .throw fun _ _ hg => Option.some.inj hg ▸ h

theorem unlocked_ofAction {α : Type} (a : Disk.Action α) : Leads Unlocked (ofAction a) := by
  intro d f hf
  change f ∈ failure? ((a.run d).1.mapError fun f => .fault (.disk f)) at hf
  cases hresult : (a.run d).1 with
  | ok x => rw [hresult] at hf; cases hf
  | error g => rw [hresult] at hf; cases hf; rfl

theorem unlocked_ask {α : Type} (question : Disk → Except Disk.Fault α) :
    Leads Unlocked (ask question) := by
  exact (looks_ask question).mono fun _ _ _ h => h.2

end DiskAct

theorem Settings.initFile_unlocked (path : Path) (force : Bool) :
    Leads DiskAct.Unlocked (initFile path force) := by
  apply DiskAct.unlocked_composes.bind (DiskAct.unlocked_ask _)
  intro isThere
  dsimp only
  split
  · exact DiskAct.unlocked_composes.bind (DiskAct.unlocked_throw rfl) fun _ => DiskAct.unlocked_ofAction _
  · exact DiskAct.unlocked_ofAction _

namespace Trail

theorem mentioning_unlocked (words : String) (a : Disk.Action Unit) :
    Leads DiskAct.Unlocked (mentioning words a) := by
  apply Leads.get_bind
  intro d
  have hset (e : Disk) : Leads DiskAct.Unlocked (set e : DiskAct Unit) := fun _ _ h => by cases h
  split
  · exact DiskAct.unlocked_composes.bind (hset _) fun _ => DiskAct.unlocked_composes.pure _
  · apply DiskAct.unlocked_composes.bind (hset _)
    intro _
    split
    · exact DiskAct.unlocked_composes.pure _
    · exact DiskAct.unlocked_throw rfl

theorem rotateIfLarge_unlocked (t : Trail) : Leads DiskAct.Unlocked t.rotateIfLarge := by
  apply Leads.get_bind
  intro d
  apply Leads.ite
  · exact DiskAct.unlocked_throw rfl
  · exact mentioning_unlocked _ _

theorem record_unlocked (t : Trail) (actor : Actor) (e : AuditEvent) :
    Leads DiskAct.Unlocked (t.record actor e) := by
  unfold record
  split
  · apply DiskAct.unlocked_composes.bind (mentioning_unlocked _ _)
    intro words
    cases words with
    | some words => exact DiskAct.unlocked_composes.pure _
    | none => exact rotateIfLarge_unlocked t
  · exact DiskAct.unlocked_composes.pure _

end Trail

namespace Aside

variable {α β : Type}

theorem onDisk_unlocked {a : DiskAct α} (h : Leads DiskAct.Unlocked a) : Leads Aside (Act.onDisk a) := by
  apply onDisk
  intro d f hf
  apply h d f
  change f ∈ failure? (a.run d).1
  rw [hf]
  rfl

theorem ticket : Leads Aside Act.ticket := by
  apply Leads.get_bind
  intro w
  apply composes.bind
  · exact modify (fun _ => rfl) (fun _ => rfl) (fun _ => rfl) fun _ => rfl
  · exact fun _ => composes.pure _

theorem record (e : AuditEvent) : Leads Aside (Act.record e) := by
  apply Leads.get_bind
  intro w
  split
  · exact composes.pure _
  · apply Leads.get_bind
    intro v
    apply composes.bind (onDisk_unlocked (Trail.record_unlocked _ _ _))
    intro words
    cases words with
    | some words => exact (Tells.say _ _).aside
    | none => exact composes.pure _

end Aside

namespace CommandLine

variable {α : Type}

theorem attempt_record_aside (a : Attempt) (failure : Option Error) : Leads Aside (a.record failure) := by
  apply Leads.get_bind
  intro w
  exact Aside.record _

theorem audited_aside (i : Invocation) : Leads Aside (audited i) := by
  intro w
  cases haccess : i.access w with
  | error f =>
      rw [audited_error haccess]
      exact .unseen rfl rfl rfl rfl fun g hg => Option.some.inj hg ▸ i.access_isOfLock haccess
  | ok access =>
      rw [audited_apply haccess]
      exact .unseen rfl rfl rfl rfl (by simp [failure?])

theorem loadAccess_aside (i : Invocation) : Leads Aside (loadAccess i) := by
  intro w
  rw [loadAccess_apply]
  apply Aside.unseen rfl rfl rfl rfl
  intro f hf
  cases haccess : i.access w with
  | error g => rw [haccess] at hf; cases hf; exact i.access_isOfLock haccess
  | ok access => rw [haccess] at hf; cases hf

/-! ### Commands -/

/-- What a command does: its trace is in good order, and it leaves all locks as free as they were. -/
structure Orderly (target : Option String) (w : World) (o : Option Failure) (u : World)
    (added : List Happening) : Prop where
  trace : u.trace = w.trace ++ added
  bracketed : Bracketed target added
  linked : Linked w.server.connectReplies added
  unlocked : u.Unlocked
  failure : ∀ f ∈ o, f.isOfLock = false

def Abides (target : Option String) (w : World) (o : Option Failure) (u : World) : Prop :=
  w.Unlocked → w.server.StaysOpen → ∃ added, Orderly target w o u added

section
variable {target : Option String} {w u v : World} {o : Option Failure}

theorem bracketed_idle {added : List Happening}
    (h : ∀ x ∈ added, x.isTraffic = false ∧ x.isLocking = false) : Bracketed target added := by
  apply Bracketed.of_outside
  intro x hx
  obtain ⟨htraffic, hlocking⟩ := h x hx
  exact ⟨hlocking, by cases x <;> first | rfl | cases htraffic⟩

theorem Abides.after_aside (h : Aside w none u) (k : Abides target u o v) : Abides target w o v := by
  intro hunlocked hstays
  obtain ⟨⟨added, htrace, hidle⟩, hserver, -, hlocks, -⟩ := h
  have hfree : u.Unlocked := by
    unfold World.Unlocked
    rwa [hlocks]
  obtain ⟨more, hmore⟩ := k hfree (by rwa [hserver])
  refine ⟨added ++ more, ?_, ?_, ?_, hmore.unlocked, hmore.failure⟩
  · rw [hmore.trace, htrace, List.append_assoc]
  · apply (bracketed_idle hidle).append hmore.bracketed
    rintro ⟨x, hx, hchange⟩
    have hkind := (hidle x hx).1
    cases x <;> first | cases hchange | cases hkind
  · rw [← hserver]
    exact hmore.linked.after_idle fun x hx => (hidle x hx).1

theorem Abides.allowsAside : Allows Aside (Abides target) := by
  intro w o u p v q h k hq hunlocked hstays
  obtain ⟨added, hadded⟩ := h hunlocked hstays
  obtain ⟨⟨more, htrace, hidle⟩, hserver, -, hlocks, hfailure⟩ := k
  refine ⟨added ++ more, ?_, ?_, ?_, ?_, fun f hf => (hq f hf).elim (hadded.failure f) (hfailure f)⟩
  · rw [htrace, hadded.trace, List.append_assoc]
  · apply hadded.bracketed.append (bracketed_idle hidle)
    intro _ x hx
    have hkind := (hidle x hx).1
    cases x <;> first | rfl | cases hkind
  · exact hadded.linked.then_idle fun x hx => (hidle x hx).1
  · unfold World.Unlocked
    rw [hlocks]
    exact hadded.unlocked

theorem abides_of_aside (h : Aside w o u) : Abides target w o u := by
  have hnone : Abides target w none w := by
    intro hunlocked _
    exact ⟨[], (List.append_nil _).symm, .nil, .idle (by simp), hunlocked, by simp⟩
  exact Abides.allowsAside hnone h fun f hf => .inr hf

end

/-- A session opens at most one connection and closes it. -/
theorem session_abides {target : Option String} {reads : Bool} {op : Act α}
    (h : Leads (Obeys target reads) op) : Leads (Abides target) (session op) := by
  intro w hunlocked hstays
  rw [session_apply]
  generalize hstart : ({ w with client := .start } : World) = s
  obtain ⟨added, hadded, -⟩ := h s (by rw [← hstart]; exact hunlocked) (by rw [← hstart]; exact hstays)
  have hline : s.line = ⟨false, w.server.connectReplies⟩ := by rw [← hstart]; rfl
  have htrace : s.trace = w.trace := by rw [← hstart]
  have hlinked := Line.linked (hline ▸ hadded.line)
  refine ⟨added ++ if (op s).2.client.isJoined then [.disconnect] else [], ?_, ?_, hlinked,
    hadded.unlocked, hadded.failure⟩
  · unfold closed
    rw [← List.append_assoc, ← htrace, ← hadded.trace]
    split
    · rfl
    · exact (List.append_nil _).symm
  · apply hadded.bracketed.append
    · apply Bracketed.of_outside
      intro x hx
      split at hx
      · rw [List.mem_singleton.mp hx]
        exact ⟨rfl, rfl⟩
      · cases hx
    · intro _ x hx
      split at hx
      · rw [List.mem_singleton.mp hx]
        rfl
      · cases hx

/-! ### What surrounds a session -/

section
variable {R : World → Option Failure → World → Prop} {w : World} {op : Act α}

/-- Something is done about a failure before the operation fails with it. -/
theorem raising_allows (hR : Allows Aside R) {f : Failure} {u : World} (h : R w (some f) u)
    {note : Act Unit} (hnote : Leads Aside note) :
    R w (failure? ((note >>= fun _ => (throw f : Act α)) u).1)
      ((note >>= fun _ => (throw f : Act α)) u).2 := by
  have haside := hnote u
  rcases hu : note u with ⟨e | x, v⟩ <;> rw [hu] at haside
  · rw [bind_error hu]
    exact hR h haside fun g hg => .inr hg
  · rw [bind_ok hu]
    exact hR h haside fun g hg => .inl hg

theorem recordingErrors_allows (hR : Allows Aside R) (a : Attempt) (h : LeadsFrom R w op) :
    LeadsFrom R w (a.recordingErrors op) := by
  unfold LeadsFrom at *
  rw [Attempt.recordingErrors, bind_ok (outcome_apply op w)]
  cases hresult : (op w).1 with
  | ok x =>
      rw [hresult] at h
      exact h
  | error f =>
      rw [hresult] at h
      cases f with
      | error e => exact raising_allows hR h (attempt_record_aside a (some e))
      | fault f => exact raising_allows hR h (Aside.composes.pure ())
      | exit code => exact raising_allows hR h (Aside.composes.pure ())

theorem carriedOut_allows (hR : Allows Aside R) (a : Attempt) (h : LeadsFrom R w op) :
    LeadsFrom R w (a.carriedOut op) := by
  apply bind_allows hR (recordingErrors_allows hR a h)
  intro x
  exact Aside.composes.bind (attempt_record_aside a none) fun _ => Aside.composes.pure x

theorem correlated_obeys {target : Option String} {reads : Bool} (operation : String)
    (h : Leads (Obeys target reads) op) : Leads (Obeys target reads) (correlated operation op) := by
  have htrail (f : List String → List String) : Leads Aside (modify fun w =>
      { w with trail := w.trail.map fun t => { t with correlations := f t.correlations } } : Act Unit) :=
    Aside.modify (fun _ => rfl) (fun _ => rfl) (fun _ => rfl) fun _ => rfl
  have hprepares {γ : Type} {a : Act γ} (ha : Leads Aside a) : Leads (Obeys target true) a :=
    fun w => (ha w).prepares.obeys
  apply Obeys.bind (hprepares Aside.ticket)
  intro n
  apply Obeys.bind (hprepares (htrail _))
  intro _ w
  rw [always_apply]
  exact Obeys.allowsAside (h w) (htrail (·.drop 1) (op w).2) fun f hf => .inl hf

theorem carriedOutUpdate_allows {op : Act Lifecycle.Updated} (hR : Allows Aside R) (a : Attempt)
    (previous : Observed) (h : LeadsFrom R w op) : LeadsFrom R w (a.carriedOutUpdate previous op) := by
  apply bind_allows hR (recordingErrors_allows hR a h)
  intro updated
  cases updated with
  | unchanged => exact Aside.composes.pure (previous, _)
  | readBack o =>
      exact Aside.composes.bind (attempt_record_aside a none) fun _ => Aside.composes.pure (previous, _)

end

/-! ### The commands -/

/-- A command that loads the configuration and goes on with what it has found. -/
theorem abides_access {i : Invocation} {load : Act Access} {f : Access → Act α}
    (hload : Leads Aside load) (hresult : ∀ w, (load w).1 = i.access w)
    (hf : ∀ access, Leads (Abides (some access.target)) (f access)) (w : World) :
    LeadsFrom (Abides (i.target? w)) w (load >>= f) := by
  have haside := hload w
  have haccess := hresult w
  unfold LeadsFrom Invocation.target?
  rcases hw : load w with ⟨e | access, u⟩ <;> rw [hw] at haside haccess <;> rw [← haccess]
  · rw [bind_error hw]
    exact abides_of_aside haside
  · rw [bind_ok hw]
    exact Abides.after_aside haside (hf access u)

theorem loadAccess_result (i : Invocation) (w : World) : (loadAccess i w).1 = i.access w := by
  rw [loadAccess_apply]

theorem audited_result (i : Invocation) (w : World) : (audited i w).1 = i.access w := by
  cases haccess : i.access w with
  | error f => rw [audited_error haccess]
  | ok access => rw [audited_apply haccess]

theorem create_abides (i : Invocation) (desired : Declared) (w : World) :
    LeadsFrom (Abides (i.target? w)) w (create i desired) := by
  apply (create_works i desired).allows Abides.allowsAside.tells
  apply abides_access (audited_aside i) (audited_result i)
  intro access u
  apply carriedOut_allows Abides.allowsAside
  exact session_abides (.of_map (Lifecycle.Call.run_obeys access (.create desired))) u

theorem display_abides (i : Invocation) (name : String) (w : World) :
    LeadsFrom (Abides (i.target? w)) w (display i name) := by
  apply (display_works i name).allows Abides.allowsAside.tells
  apply abides_access (loadAccess_aside i) (loadAccess_result i)
  intro access
  exact session_abides (.of_map (Lifecycle.Call.run_obeys access (.read name)))

theorem probe_abides (i : Invocation) (name : String) (w : World) :
    LeadsFrom (Abides (i.target? w)) w (probe i name) := by
  apply (probe_works i name).allows Abides.allowsAside.tells
  apply abides_access (loadAccess_aside i) (loadAccess_result i)
  intro access
  exact session_abides (.of_map (Lifecycle.Call.run_obeys access (.installed name)))

theorem updateInstalled_obeys (access : Access) (desired : Declared) :
    Leads (Obeys (some access.target) false) (updateInstalled access desired) := by
  have hread : Leads (Obeys (some access.target) true) (Lifecycle.read access desired.name) :=
    .of_map (Lifecycle.Call.run_obeys access (.read desired.name))
  apply Obeys.bind hread
  intro found
  cases found with
  | none => exact fun w => ((Tells.throw (α := _) rfl).aside w).prepares.obeys
  | some previous =>
      apply correlated_obeys
      intro w
      apply carriedOutUpdate_allows Obeys.allowsAside (updating access desired previous) previous
      exact Leads.of_map (Lifecycle.Call.run_obeys access (.update desired.name previous desired)) w

theorem update_abides (i : Invocation) (wanted : Declared) (latest : Bool) (w : World) :
    LeadsFrom (Abides (i.target? w)) w (update i wanted latest) := by
  cases hconflicting : conflicting wanted latest with
  | true => exact abides_of_aside ((update_tells i hconflicting).aside w)
  | false =>
      apply (update_works i hconflicting).allows Abides.allowsAside.tells
      apply abides_access (audited_aside i) (audited_result i)
      intro access
      exact session_abides (updateInstalled_obeys access _)

theorem delete_abides (i : Invocation) (name : String) (w : World) :
    LeadsFrom (Abides (i.target? w)) w (delete i name) := by
  have haside := questioned_aside i name w
  have htarget : i.target? (questioned i name w) = i.target? w := by
    unfold questioned
    split <;> rfl
  unfold LeadsFrom
  cases hproceeds : proceeds i w with
  | false =>
      rw [delete_cancelled hproceeds]
      have htold := (Tells.say .warn "Operation cancelled").aside (questioned i name w)
      rw [say_apply] at htold
      apply abides_of_aside
      exact (Aside.composes.trans haside htold).failing rfl
  | true =>
      rw [delete_proceeds hproceeds, ← htarget]
      apply Abides.after_aside haside
      apply (deleteConfirmed_works i name).allows Abides.allowsAside.tells
      apply abides_access (audited_aside i) (audited_result i)
      intro access u
      apply carriedOut_allows Abides.allowsAside
      have hrun : Leads (Obeys (some access.target) false) (do
          let _ ← Lifecycle.delete access name
          return Lifecycle.Answer.deleted) :=
        Lifecycle.Call.run_obeys access (.delete name)
      exact session_abides (.of_map hrun) u

theorem adopt_abides (i : Invocation) (name : String) (w : World) :
    LeadsFrom (Abides (i.target? w)) w (adopt i name) := by
  apply (adopt_works i name).allows Abides.allowsAside.tells
  apply abides_access (audited_aside i) (audited_result i)
  intro access u
  apply bind_allows Abides.allowsAside
  · exact session_abides (.of_map (Lifecycle.Call.run_obeys access (.adopt name))) u
  · intro observed
    exact Aside.composes.bind (attempt_record_aside _ _) fun _ => Aside.composes.pure _

theorem list_abides (i : Invocation) (w : World) :
    LeadsFrom (Abides (i.target? w)) w (list i) := by
  apply (list_works i).allows Abides.allowsAside.tells
  apply abides_access (loadAccess_aside i) (loadAccess_result i)
  intro access u
  apply bind_allows Abides.allowsAside
  · exact session_abides (Converses.locked (Gateway.list_converses access) fun _ => Gateway.list_queries access) u
  · exact fun extensions => Aside.composes.pure _

/-! ### The program -/

theorem showSettings_aside (s : Settings) : Leads Aside (showSettings s) := by
  unfold showSettings
  exact Leads.ite ((Tells.happen rfl rfl).aside) (fault_tells rfl).aside

theorem configExists_aside (i : Invocation) : Leads Aside (configExists i) :=
  Aside.onDisk_unlocked (DiskAct.unlocked_ask _)

theorem reported_aside {op : Act α} (h : Leads Aside op) : Leads Aside (reported op) := by
  have hallows : Allows Aside Aside := by
    intro w o u p v q hw hu hq
    have hnone : Aside w none u := ⟨hw.trace, hw.server, hw.client, hw.locks, by simp⟩
    obtain ⟨htrace, hserver, hclient, hlocks, -⟩ := Aside.composes.trans hnone hu
    exact ⟨htrace, hserver, hclient, hlocks, fun f hf => (hq f hf).elim (hw.failure f) (hu.failure f)⟩
  exact fun w => reported_allows hallows.tells (h w)

theorem displaySettings_aside (i : Invocation) : Leads Aside (displaySettings i) := by
  apply reported_aside
  apply Aside.composes.bind (loadAccess_aside i)
  intro access
  apply Aside.composes.bind (configExists_aside i)
  intro isThere
  apply Aside.composes.bind (Tells.summary _ _).aside
  exact fun _ => showSettings_aside _

theorem initSettings_aside (i : Invocation) (force : Bool) : Leads Aside (initSettings i force) := by
  apply Aside.composes.bind
  · exact reported_aside (Aside.onDisk_unlocked (Settings.initFile_unlocked _ _))
  · intro _
    exact Aside.composes.bind (Tells.say _ _).aside fun _ => (Tells.say _ _).aside

theorem validateSettings_aside (i : Invocation) : Leads Aside (validateSettings i) := by
  apply Aside.composes.bind (configExists_aside i)
  intro isThere
  dsimp only
  split
  · apply Aside.composes.bind (Tells.say _ _).aside
    intro _
    apply Aside.composes.bind (Tells.say _ _).aside
    exact fun _ => (exit_tells 2).aside
  · apply Aside.composes.bind (reported_aside (loadAccess_aside i))
    intro access
    apply Aside.composes.bind (Tells.say _ _).aside
    intro _
    apply Aside.composes.bind (Tells.say _ _).aside
    intro _
    split <;> split
    · exact Aside.composes.bind (Tells.say _ _).aside fun _ => showSettings_aside _
    · exact Aside.composes.bind (Tells.say _ _).aside fun _ => Aside.composes.pure ()
    · exact showSettings_aside _
    · exact Aside.composes.pure ()

theorem perform_abides (i : Invocation) (t : Task) (w : World) :
    LeadsFrom (Abides (i.target? w)) w (perform i t) := by
  cases t with
  | create desired => exact create_abides i desired w
  | display name => exact display_abides i name w
  | probe name => exact probe_abides i name w
  | update desired latest => exact update_abides i desired latest w
  | delete name => exact delete_abides i name w
  | adopt name => exact adopt_abides i name w
  | list => exact list_abides i w
  | displaySettings => exact abides_of_aside (displaySettings_aside i w)
  | initSettings force => exact abides_of_aside (initSettings_aside i force w)
  | validateSettings => exact abides_of_aside (validateSettings_aside i w)

/-! ### Arguments -/

theorem early_fails {a : Arguments} {outcome : Except Failure Command} (h : a.early? = some outcome) :
    OnlyFails (·.isOfLock = false) outcome := by
  unfold Arguments.early? at h
  obtain ⟨given, -, rfl⟩ := Option.map_eq_some_iff.mp h
  split
  · exact .ok _
  · exact .error rfl

theorem readGroup_fails {switches : List Switch}
    {next : String → Option (List String → Except Failure Command)}
    (h : ∀ word read, next word = some read → ∀ args, OnlyFails (·.isOfLock = false) (read args))
    (args : List String) : OnlyFails (·.isOfLock = false) (readGroup switches next args) := by
  unfold readGroup
  dsimp only
  split
  · exact .error rfl
  · split
    · next hearly => exact early_fails hearly
    · exact .error rfl
    · next word rest _ _ =>
        split
        · next read hread => exact h word read hread rest
        · cases hearly : (Arguments.read switches false (word :: rest)).bind Arguments.early? with
          | none => exact .error rfl
          | some outcome =>
              obtain ⟨b, -, hb⟩ := Option.bind_eq_some_iff.mp hearly
              exact early_fails hb

theorem checkConfig_fails (a : Arguments) (d : Disk) :
    OnlyFails (·.isOfLock = false) (a.checkConfig d) := by
  unfold Arguments.checkConfig
  split
  · exact .ok ()
  · dsimp only
    split
    · exact .error rfl
    · split
      · exact .error rfl
      · exact .ok ()

theorem readForm_fails (f : Form) (d : Disk) (args : List String) :
    OnlyFails (·.isOfLock = false) (f.read d args) := by
  unfold Form.read
  split
  · exact .error rfl
  · split
    · next hearly => exact early_fails hearly
    · apply OnlyFails.bind (checkConfig_fails _ d)
      intro _
      split
      · exact .ok _
      · exact .ok _
      · exact .error rfl

theorem ofArguments_fails (d : Disk) (args : List String) :
    OnlyFails (·.isOfLock = false) (Command.ofArguments d args) := by
  have hforms (forms : List Form) (args : List String) :
      OnlyFails (·.isOfLock = false) (readForms forms d args) := by
    apply readGroup_fails
    intro word read hread args
    obtain ⟨f, -, rfl⟩ := Option.map_eq_some_iff.mp hread
    exact readForm_fails f d args
  apply readGroup_fails
  intro word read hread args
  split at hread
  · cases hread
    exact hforms extensionForms args
  · split at hread
    · cases hread
      exact hforms configForms args
    · cases hread

/-! ### Runs -/

/-- The database that a command is about. -/
def targetOf (args : List String) (w : World) : Option String :=
  match Command.ofArguments w.disk args with
  | .ok (.task i _) => i.target? w
  | _ => none

theorem run_abides (args : List String) (w : World) : LeadsFrom (Abides (targetOf args w)) w (run args) := by
  unfold LeadsFrom targetOf
  rw [run, get_bind]
  cases hcommand : Command.ofArguments w.disk args with
  | error f => exact abides_of_aside ((Tells.throw (ofArguments_fails w.disk args f hcommand)).aside w)
  | ok command =>
      cases command with
      | version => exact abides_of_aside ((Tells.happen rfl rfl).aside w)
      | sampleSettings => exact abides_of_aside ((Tells.happen rfl rfl).aside w)
      | task i t =>
          have hconsole : Aside w none { w with console := i.console } :=
            .unseen rfl rfl rfl rfl (by simp)
          exact Abides.after_aside hconsole (perform_abides i t { w with console := i.console })

/-- The trace of every command is in good order, whatever its arguments, the configuration and the server
are, if no lock is held at first and only the program closes the connection. The lock is that of the
database in the configuration. It is taken and given back in turn, never twice at a time, and every
statement is sent in between. What is changed is changed in one exclusive section, in which it is also read
back. A connection that is opened is closed once, and nothing is sent afterwards. In the end no lock is
held, and the command has not been held up by one. -/
theorem commands_are_disciplined (args : List String) {w : World} (hunlocked : w.Unlocked)
    (hstays : w.server.StaysOpen) :
    ∃ added, (run args w).2.trace = w.trace ++ added ∧ Bracketed (targetOf args w) added ∧
      Linked w.server.connectReplies added ∧ (run args w).2.Unlocked ∧
      ∀ f, (run args w).1 = .error f → f.isOfLock = false := by
  obtain ⟨added, h⟩ := run_abides args w hunlocked hstays
  refine ⟨added, h.trace, h.bracketed, h.linked, h.unlocked, fun f hf => h.failure f ?_⟩
  rw [hf]
  rfl

/-- A creation whose reading back is refused. -/
theorem commands_are_disciplined_create :
    let w := World.ofServer ⟨.fresh, 160002, [.regular, .refused (.disruption .warning)], []⟩
    let args := ["extension", "create", "hstore"]
    w.Unlocked ∧ w.server.StaysOpen ∧ targetOf args w = some "127.0.0.1:5432/postgres" ∧
      (run args w).2.statements.length = 2 ∧
      ∃ added, (run args w).2.trace = added ∧ Bracketed (targetOf args w) added ∧ Linked [] added := by
  intro w args
  have hunlocked : w.Unlocked := fun key => ⟨rfl, rfl, rfl⟩
  have hstays : w.server.StaysOpen := by
    intro rows hrows
    simp [w, World.ofServer] at hrows
  obtain ⟨added, htrace, hbracketed, hlinked, -⟩ := commands_are_disciplined args hunlocked hstays
  exact ⟨hunlocked, hstays, by decide +kernel, by decide +kernel, added, htrace, hbracketed, hlinked⟩

end CommandLine

end CatalogSteward
