import CatalogSteward.Proofs.Lifecycle.Sound

/-!
# Every event keeps to the replay

The invariant is kept by each of the events: by what comes before the lock, since it does nothing to the
catalog; by entering the lock, which adds an operation to those that are replayed; by a request, since it
takes an operation to its prospect; and by a release, with which the prospect becomes the result.
-/

namespace CatalogSteward.Lifecycle.System
open Act Client

section
variable {P : Program} {version : Int} {gate : Nat → Except Failure Unit} {c : Catalog}
  {s u : System} {t v : Nat}

theorem changedBy_setStage {shared : Shared} (stage : Stage)
    (h : ∀ n, (s.shared.clients n).Cleared → (shared.clients n).Cleared) :
    s.ChangedBy t ((s.advance t shared).setStage t stage) := by
  refine ⟨fun v hv => Function.update_of_ne hv .., ?_, h, fun o ho => ho, fun v _ => .inl rfl⟩
  rw [workers_setStage]
  exact List.prefix_rfl

theorem changedBy_finish {shared : Shared} (result : Result)
    (h : ∀ n, (s.shared.clients n).Cleared → (shared.clients n).Cleared) :
    s.ChangedBy t ((s.advance t shared).finish t result) := by
  refine ⟨fun v hv => Function.update_of_ne hv .., ?_, h, fun o ho => ho, fun v _ => .inl rfl⟩
  rw [workers_finish]
  exact List.prefix_append ..

/-- A thread that has ended an operation has one more result, that of the operation. -/
theorem result?_finish {o : Op} {shared : Shared} {result result' : Result} (hthread : o.thread = t)
    (ho : ((s.advance t shared).finish t result).result? o = some result') :
    s.result? o = some result' ∨ o = s.current t ∧ result = result' := by
  subst hthread
  rw [result?, workers_finish, workers_advance] at ho
  rcases Nat.lt_trichotomy o.index (s.workers o.thread).finished.length with hlt | heq | hgt
  · rw [List.getElem?_append_left hlt] at ho
    exact .inl ho
  · rw [heq, List.getElem?_concat_length] at ho
    refine .inr ⟨?_, Option.some.inj ho⟩
    rw [current, ← heq]
  · rw [List.getElem?_eq_none (by rw [List.length_append]; exact hgt)] at ho
    cases ho

theorem result?_finish_current (s : System) (t : Nat) (shared : Shared) (result : Result) :
    ((s.advance t shared).finish t result).result? (s.current t) = some result := by
  rw [result?, current, workers_finish, workers_advance]
  exact List.getElem?_concat_length ..

/-! ### Entering the lock -/

def admitted (s : System) (t : Nat) (job : Job) (qs : List Request) (threads : Threads) : System :=
  { s.setStage t (.inside job (.ok .nothing) qs) with
    threads := threads
    order := s.order ++ [s.current t] }

section
variable (s : System) (t : Nat) (job : Job) (qs : List Request) (threads : Threads)

theorem workers_admitted : (s.admitted t job qs threads).workers t =
    ⟨(s.workers t).finished, .inside job (.ok .nothing) qs⟩ := workers_setStage ..

theorem current_admitted : (s.admitted t job qs threads).current t = s.current t := by
  rw [current, workers_admitted, current]

theorem prospect_admitted : (s.admitted t job qs threads).prospect t =
    some (job.call.resume (.ok .nothing) qs s.catalog).1 :=
  prospect_inside (by rw [workers_admitted])

theorem result?_admitted (o : Op) : (s.admitted t job qs threads).result? o = s.result? o := by
  by_cases hthread : o.thread = t
  · rw [result?, result?, hthread, workers_admitted]
  · exact congrArg (fun worker : Worker => worker.finished[o.index]?) (Function.update_of_ne hthread ..)

end

theorem changedBy_admitted (job : Job) (qs : List Request) {threads : Threads}
    (h : ∀ v, v ≠ t → threads.phase? v = s.threads.phase? v ∨
      threads.phase? v = (s.threads.phase? v).map Phase.notify) :
    s.ChangedBy t (s.admitted t job qs threads) := by
  refine ⟨fun v hv => Function.update_of_ne hv .., ?_, fun n hn => hn,
    fun o ho => List.mem_append_left _ ho, h⟩
  rw [workers_admitted]

namespace Sound

theorem start (key : String) {shared : Shared} (h : shared.Steady P version gate) :
    (System.start key shared).Sound P version gate shared.world.server.catalog := by
  refine ⟨h, Threads.balanced_start key, fun t => Threads.phase?_start key t, fun o ho => ?_,
    List.nodup_nil, fun o result ho => ?_, rfl, fun _ => rfl, fun t job reply qs hstage => ?_⟩
  · exact absurd ho List.not_mem_nil
  · cases ho
  · cases hstage

/-- An operation that ends before the lock has a result that the catalog has no part in. -/
theorem ends (hs : s.Sound P version gate c) (hstage : (s.workers t).stage = .resting) {shared : Shared}
    (hsteady : shared.Steady P version gate) (hcatalog : shared.world.server.catalog = s.catalog)
    (hclients : ∀ n, (s.shared.clients n).Cleared → (shared.clients n).Cleared) {result : Result}
    (hidle : P.Idle gate (s.current t) result) :
    ((s.advance t shared).finish t result).Sound P version gate c := by
  have hbefore := prospect_resting hstage
  refine hs.carry (changedBy_finish result hclients) rfl hsteady hs.balanced (.inl hcatalog)
    ?_ ?_ ?_ ?_ ?_
  · rw [workers_finish]
    exact hs.rests hstage
  · intro result' hresult
    cases hbefore.symm.trans hresult
  · intro o result' hthread ho
    rcases result?_finish hthread ho with hbefore | ⟨rfl, rfl⟩
    · exact .inl hbefore
    · exact .inr (.inr hidle)
  · intro hnone
    exact hcatalog.trans (hs.outside hnone)
  · intro job reply qs hinside
    rw [workers_finish] at hinside
    cases hinside

theorem prepares (hs : s.Sound P version gate c) (hstage : (s.workers t).stage = .resting)
    {shared : Shared} (hsteady : shared.Steady P version gate)
    (hcatalog : shared.world.server.catalog = s.catalog)
    (hclients : ∀ n, (s.shared.clients n).Cleared → (shared.clients n).Cleared) {job : Job}
    {qs : List Request} (hjob : P.job? (s.current t) = some job) (hgate : gate job.client = .ok ())
    (hplan : job.call.plan = .ok qs) (hqs : qs ≠ []) (hcleared : (shared.clients job.client).Cleared) :
    ((s.advance t shared).setStage t (.waiting job qs)).Sound P version gate c := by
  have hbefore := prospect_resting hstage
  refine hs.carry (changedBy_setStage _ hclients) rfl hsteady hs.balanced (.inl hcatalog) ?_ ?_ ?_ ?_ ?_
  · rw [workers_setStage]
    refine ⟨?_, hgate, hplan, hqs, hcleared, .inl (hs.rests hstage)⟩
    rw [current, workers_setStage]
    exact hjob
  · intro result hresult
    cases hbefore.symm.trans hresult
  · intro o result hthread ho
    rw [result?, hthread, workers_setStage] at ho
    exact .inl (by rw [result?, hthread]; exact ho)
  · intro hnone
    exact hcatalog.trans (hs.outside hnone)
  · intro job reply qs hinside
    rw [workers_setStage] at hinside
    cases hinside

theorem begin_step (hs : s.Sound P version gate c) (h : s.begin? P t = some u) :
    u.Sound P version gate c := by
  rw [begin?] at h
  split at h
  case h_2 => cases h
  next job hstage hjob =>
  obtain ⟨htalk, hbegan⟩ := job.call.begin_apply (P.access job.client)
    (w := s.shared.view job.client) hs.steady.unscripted
  obtain ⟨shared, hrun, hsteady, -, hclient, hcatalog, hclients⟩ :=
    hs.steady.run (n := job.client) Prod.mk.eta.symm (Call.Ran.of_talk htalk).talk
  rw [hrun] at h
  rw [← hclient] at hbegan
  rw [Shared.server_view, Shared.client_view, hs.steady.sameVersion, hs.steady.sameGate] at hbegan
  generalize (job.call.begin (P.access job.client) (s.shared.view job.client)).1 = result at h hbegan
  rcases result with f | answer | qs
  · obtain rfl := Option.some.inj h
    exact hs.ends hstage hsteady hcatalog hclients ⟨job, hjob, hbegan⟩
  · obtain rfl := Option.some.inj h
    exact hs.ends hstage hsteady hcatalog hclients ⟨job, hjob, hbegan⟩
  · obtain rfl := Option.some.inj h
    obtain ⟨hgate, hplan, hqs, hcleared⟩ := hbegan
    exact hs.prepares hstage hsteady hcatalog hclients hjob hgate hplan hqs hcleared

theorem not_holding (hs : s.Sound P version gate c) {job : Job} {qs : List Request}
    (hstage : (s.workers t).stage = .waiting job qs) (mode : LockMode) :
    s.threads.phase? t ≠ some (.holding mode) := by
  intro hholding
  rcases (hs.waits hstage).phase with hnone | ⟨notified, hasleep⟩
  · cases hnone.symm.trans hholding
  · cases hasleep.symm.trans hholding

theorem sleep_step (hs : s.Sound P version gate c) {job : Job} {qs : List Request}
    (hstage : (s.workers t).stage = .waiting job qs) {e : Threads.Event} {threads : Threads}
    (hstep : Threads.Step s.threads e threads) (he : e.thread = t)
    (hphase : threads.phase? t = some (.asleep job.call.mode false)) :
    Sound P version gate c { s with threads := threads } := by
  subst he
  have hchanged : s.ChangedBy e.thread { s with threads := threads } :=
    ⟨fun v _ => rfl, List.prefix_rfl, fun n h => h, fun o ho => ho, fun v hv => hstep.phase?_others hv⟩
  have hbefore := prospect_waiting hstage
  refine hs.carry hchanged rfl hs.steady (hs.balanced.step hstep) (.inl rfl) ?_ ?_ ?_ ?_ ?_
  · have hwaits := hs.waits hstage
    dsimp only
    rw [hstage]
    exact ⟨hwaits.isJob, hwaits.passed, hwaits.plan, hwaits.needs, hwaits.cleared, .inr ⟨false, hphase⟩⟩
  · intro result hresult
    cases hbefore.symm.trans hresult
  · intro o result _ ho
    exact .inl ho
  · intro hnone
    refine hs.outside (Set.eq_empty_iff_forall_notMem.mpr fun v hv => ?_)
    by_cases hve : v = e.thread
    · exact hs.not_holding hstage .exclusive (hve ▸ hv)
    · have hholding : v ∈ threads.holding .exclusive := (hstep.holding_others hve .exclusive).mpr hv
      rw [hnone] at hholding
      exact hholding
  · intro job' reply qs' hinside
    cases hstage.symm.trans hinside

/-- While a thread is let in, no writer is inside, or else the lock would not have admitted it. -/
theorem no_writer (hs : s.Sound P version gate c) {job : Job} {qs : List Request}
    (hstage : (s.workers t).stage = .waiting job qs) {e : Threads.Event} {threads : Threads}
    (hstep : Threads.Step s.threads e threads) (he : e.thread = t)
    (hphase : threads.phase? t = some (.holding job.call.mode)) : s.threads.holding .exclusive = ∅ := by
  subst he
  refine Set.eq_empty_iff_forall_notMem.mpr fun v hv => ?_
  by_cases hve : v = e.thread
  · exact hs.not_holding hstage .exclusive (hve ▸ hv)
  · have hholding := (hstep.holding_others hve .exclusive).mpr hv
    exact hve ((hs.balanced.step hstep).only_writer hholding hphase).symm

/-- A thread that enters the lock comes next in the order. Its prospect is the result that it has in the
replay, since the catalog is that of the replay when nobody writes. -/
theorem enter_step (hs : s.Sound P version gate c) {job : Job} {qs : List Request}
    (hstage : (s.workers t).stage = .waiting job qs) {e : Threads.Event} {threads : Threads}
    (hstep : Threads.Step s.threads e threads) (he : e.thread = t)
    (hphase : threads.phase? t = some (.holding job.call.mode)) :
    (s.admitted t job qs threads).Sound P version gate c := by
  have hcatalog := hs.outside (hs.no_writer hstage hstep he hphase)
  subst he
  have hwaits := hs.waits hstage
  have hbefore := prospect_waiting hstage
  have hbalanced := hs.balanced.step hstep
  have hchanged := changedBy_admitted job qs fun v hv => hstep.phase?_others hv
  have hreplay : P.replay gate (s.order ++ [s.current e.thread]) c =
      ((P.replay gate s.order c).1 ++ [some (job.call.resume (.ok .nothing) qs s.catalog).1],
        (job.call.resume (.ok .nothing) qs s.catalog).2) := by
    rw [replay_append, Program.replay, hwaits.isJob]
    simp only [hwaits.passed, Call.onCatalog_eq_resume hwaits.plan hwaits.needs, ← hcatalog,
      Program.replay]
  have hreads (hmode : job.call.mode = .shared) :
      (job.call.resume (.ok .nothing) qs s.catalog).2 = s.catalog :=
    Call.resume_reads (Call.plan_shared hwaits.plan hmode) _ _
  have hnothing (result : Result) (h : s.prospect e.thread = some result) :
      (s.admitted e.thread job qs threads).foreseen (s.current e.thread) = some result := by
    cases hbefore.symm.trans h
  refine ⟨hs.steady, hbalanced, fun v => ?_, fun o ho => ?_, ?_, fun o result ho => ?_, ?_,
    fun hnone => ?_, fun v job' reply qs' hinside => ?_⟩
  · by_cases hv : v = e.thread
    · subst hv
      rw [workers_admitted]
      have hcurrent := current_admitted s e.thread job qs threads
      refine ⟨hcurrent ▸ hwaits.isJob, hwaits.cleared, ?_, hphase, Call.plan_shared hwaits.plan⟩
      rw [hcurrent]
      exact List.mem_append_right _ List.mem_cons_self
    · rw [hchanged.others v hv]
      exact hchanged.fits hv (hs.fits v)
  · rcases List.mem_append.mp ho with ho | ho
    · exact hs.entered_kept hchanged (.inl rfl) hnothing ho
    · obtain rfl := List.mem_singleton.mp ho
      exact .inr ⟨(current_admitted ..).symm, by rw [current, prospect_admitted]; rfl⟩
  · exact List.nodup_append_comm.mp (List.nodup_cons.mpr ⟨hs.current_not_entered hbefore, hs.nodup⟩)
  · rw [result?_admitted] at ho
    exact (hs.idle o result ho).imp_left (List.mem_append_left _)
  · have hkept : s.order.map (s.admitted e.thread job qs threads).foreseen = s.order.map s.foreseen :=
      List.map_congr_left fun o ho => hs.foreseen_kept hchanged (.inl rfl) hnothing ho
    have hnew : (s.admitted e.thread job qs threads).foreseen (s.current e.thread) =
        some (job.call.resume (.ok .nothing) qs s.catalog).1 := by
      rw [foreseen, result?_admitted, result?_current]
      exact prospect_admitted ..
    change (P.replay gate (s.order ++ [s.current e.thread]) c).1 =
      (s.order ++ [s.current e.thread]).map (s.admitted e.thread job qs threads).foreseen
    rw [hreplay, List.map_append, hkept, List.map_singleton, hnew, hs.results]
  · change s.catalog = (P.replay gate (s.order ++ [s.current e.thread]) c).2
    rw [hreplay]
    -- a reader leaves the catalog alone, and with a writer inside there is nothing to show
    cases hmode : job.call.mode with
    | shared => exact (hreads hmode).symm
    | exclusive =>
        have hholding : e.thread ∈ threads.holding .exclusive := hmode ▸ hphase
        have hnone : threads.holding .exclusive = ∅ := hnone
        rw [hnone] at hholding
        exact absurd hholding (Set.notMem_empty _)
  · change (job'.call.resume reply qs' s.catalog).2 =
      (P.replay gate (s.order ++ [s.current e.thread]) c).2
    rw [hreplay]
    by_cases hv : v = e.thread
    · subst hv
      rw [workers_admitted] at hinside
      cases hinside
      rfl
    · rw [hchanged.others v hv] at hinside
      cases hmode : job.call.mode with
      | shared =>
          rw [hreads hmode, hs.within v job' reply qs' hinside]
          exact hcatalog.symm
      | exclusive =>
          rw [hmode] at hphase
          have hholding := (hstep.holding_others hv _).mpr (hs.works hinside).holds
          exact absurd (hbalanced.only_writer hphase hholding) hv

theorem acquire_step (hs : s.Sound P version gate c) (h : s.acquire? t = some u) :
    u.Sound P version gate c := by
  rw [acquire?] at h
  split at h
  case h_2 => cases h
  next job qs hstage =>
  obtain ⟨threads, hstep, rfl⟩ := Option.map_eq_some_iff.mp h
  have hstep := Threads.step?_sound hstep
  rw [enter]
  split_ifs with hholding
  · exact hs.enter_step hstage hstep rfl hholding
  · exact hs.sleep_step hstage hstep rfl (hstep.phase?_acquire.resolve_left hholding)

theorem wake_step (hs : s.Sound P version gate c) (h : s.wake? t = some u) :
    u.Sound P version gate c := by
  rw [wake?] at h
  split at h
  case h_2 => cases h
  next job qs hstage =>
  obtain ⟨threads, hstep, rfl⟩ := Option.map_eq_some_iff.mp h
  have hstep := Threads.step?_sound hstep
  obtain ⟨mode, notified, hasleep, hphase⟩ := hstep.phase?_wake
  -- a thread sleeps in the mode of its call
  have hmode : mode = job.call.mode := by
    rcases (hs.waits hstage).phase with hnone | ⟨notified', hasleep'⟩
    · cases hnone.symm.trans hasleep
    · cases hasleep.symm.trans hasleep'
      rfl
  subst hmode
  rw [enter]
  split_ifs with hholding
  · exact hs.enter_step hstage hstep rfl hholding
  · exact hs.sleep_step hstage hstep rfl (hphase.resolve_left hholding)

/-- An operation inside that goes on and keeps its prospect. Only a writer may change the catalog on the
way. -/
theorem proceeds (hs : s.Sound P version gate c) {job : Job} {reply reply' : Except Failure Reply}
    {qs qs' : List Request} (hstage : (s.workers t).stage = .inside job reply qs) (hsub : qs' ⊆ qs)
    {shared : Shared} (hsteady : shared.Steady P version gate)
    (hcatalog : shared.world.server.catalog = s.catalog ∨ s.threads.phase? t = some (.holding .exclusive))
    (hclients : ∀ n, (s.shared.clients n).Cleared → (shared.clients n).Cleared)
    (hresume : job.call.resume reply' qs' shared.world.server.catalog =
      job.call.resume reply qs s.catalog) :
    ((s.advance t shared).setStage t (.inside job reply' qs')).Sound P version gate c := by
  have hworks := hs.works hstage
  have hself := workers_setStage (s.advance t shared) t (.inside job reply' qs')
  have hcurrent : ((s.advance t shared).setStage t (.inside job reply' qs')).current t = s.current t := by
    rw [current, hself, workers_advance, current]
  refine hs.carry (changedBy_setStage _ hclients) rfl hsteady hs.balanced hcatalog ?_ ?_ ?_ ?_ ?_
  · rw [hself]
    refine ⟨hcurrent ▸ hworks.isJob, hclients _ hworks.cleared, hcurrent ▸ hworks.entered,
      hworks.holds, ?_⟩
    intro hmode q hq
    exact hworks.reads hmode q (hsub hq)
  · intro result hresult
    rw [prospect_inside hstage, ← hresume] at hresult
    rw [← hcurrent, foreseen, result?_current, Option.none_or, ← hresult]
    exact prospect_inside (t := t) (by rw [hself])
  · intro o result hthread ho
    rw [result?, hthread, hself] at ho
    exact .inl (by rw [result?, hthread]; exact ho)
  · intro hnone
    have hnone : s.threads.holding .exclusive = ∅ := hnone
    rcases hcatalog with hreads | hwrites
    · exact hreads.trans (hs.outside hnone)
    · have hholding : t ∈ s.threads.holding .exclusive := hwrites
      rw [hnone] at hholding
      exact absurd hholding (Set.notMem_empty t)
  · intro job' reply'' qs'' hinside
    rw [hself] at hinside
    cases hinside
    exact (congrArg Prod.snd hresume).trans (hs.within t job _ _ hstage)

/-- A request brings an operation nearer to its prospect. -/
theorem request_step (hs : s.Sound P version gate c) (h : s.request? P t = some u) :
    u.Sound P version gate c := by
  rw [request?] at h
  split at h
  case h_2 => cases h
  next job reply q qs hstage =>
  have hworks := hs.works hstage
  obtain ⟨after, hperform, htalk⟩ := q.perform_apply (P.access job.client)
    (w := s.shared.view job.client) hs.steady.unscripted hworks.cleared
  obtain ⟨shared, hrun, hsteady, -, -, hcatalog, hclients⟩ :=
    hs.steady.run hperform (Call.Ran.of_talk htalk).talk
  have hcatalog : shared.world.server.catalog = (q.onCatalog s.catalog).2 := hcatalog
  have hrun : s.shared.run job.client (q.perform (P.access job.client)) =
      ((q.onCatalog s.catalog).1, shared) := hrun
  have honly : shared.world.server.catalog = s.catalog ∨
      s.threads.phase? t = some (.holding .exclusive) := by
    cases hmode : job.call.mode with
    | shared =>
        obtain ⟨name, rfl⟩ := hworks.reads hmode q List.mem_cons_self
        rw [hcatalog, Request.onCatalog_find]
        exact .inl rfl
    | exclusive => exact .inr (hmode ▸ hworks.holds)
  have hresume := job.call.resume_cons reply q qs s.catalog
  rw [← hcatalog] at hresume
  rw [hrun] at h
  -- a request that fails is the last, and what is left to be made makes no difference
  cases hreply : (q.onCatalog s.catalog).1 with
  | error f =>
      rw [hreply] at h hresume
      obtain rfl := Option.some.inj h
      exact hs.proceeds hstage (List.nil_subset _) hsteady honly hclients hresume.symm
  | ok reply' =>
      rw [hreply] at h hresume
      obtain rfl := Option.some.inj h
      exact hs.proceeds hstage (List.subset_cons_self q qs) hsteady honly hclients hresume.symm

/-- The prospect of an operation that releases the lock is its result. -/
theorem release_step (hs : s.Sound P version gate c) (h : s.release? t = some u) :
    u.Sound P version gate c := by
  rw [release?] at h
  split at h
  case h_2 => cases h
  next job reply hstage =>
  have hworks := hs.works hstage
  obtain ⟨threads, hstep, h⟩ := Option.map_eq_some_iff.mp h
  have hstep := Threads.step?_sound hstep
  obtain ⟨hresult, htalk⟩ := job.call.close_apply (P.access job.client) reply (s.shared.view job.client)
  obtain ⟨shared, hrun, hsteady, -, -, hcatalog, hclients⟩ :=
    hs.steady.run (n := job.client) Prod.mk.eta.symm (Call.Ran.of_talk htalk).talk
  rw [hrun] at h
  obtain rfl := h
  generalize (job.call.close reply (s.shared.view job.client)).1 = result at hresult
  have hresult : result = (job.call.resume reply [] s.catalog).1 := hresult
  have hchanged := changedBy_finish (s := s) (t := t) result hclients
  refine hs.carry ⟨hchanged.others, hchanged.grows, hchanged.clients, hchanged.order,
    fun v hv => hstep.phase?_others hv⟩ rfl hsteady (hs.balanced.step hstep) (.inl hcatalog)
    ?_ ?_ ?_ ?_ ?_
  · have hself := workers_finish (s.advance t shared) t result
    dsimp only
    rw [hself]
    exact hstep.phase?_release.2
  · intro result' hprospect
    have hended := result?_finish_current s t shared result
    rw [prospect_inside hstage, ← hresult] at hprospect
    obtain rfl := Option.some.inj hprospect
    change (Option.or (((s.advance t shared).finish t result).result? (s.current t)) _) = _
    rw [hended]
    rfl
  · intro o result' hthread ho
    rcases result?_finish hthread ho with hbefore | ⟨rfl, -⟩
    · exact .inl hbefore
    · exact .inr (.inl hworks.entered)
  · intro _
    have hwithin := hs.within t job reply [] hstage
    rw [Call.resume_nil] at hwithin
    exact hcatalog.trans hwithin
  · intro job' reply' qs' hinside
    have hself := workers_finish (s.advance t shared) t result
    dsimp only at hinside
    rw [hself] at hinside
    cases hinside

theorem step (hs : s.Sound P version gate c) {e : Event} (h : s.step? P e = some u) :
    u.Sound P version gate c := by
  cases e with
  | «begin» t => exact hs.begin_step h
  | acquire t => exact hs.acquire_step h
  | wake t => exact hs.wake_step h
  | request t => exact hs.request_step h
  | release t => exact hs.release_step h

end Sound

end

end CatalogSteward.Lifecycle.System
