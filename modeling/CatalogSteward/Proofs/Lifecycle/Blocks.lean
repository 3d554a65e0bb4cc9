import CatalogSteward.Proofs.Lifecycle.Serial
import CatalogSteward.Proofs.Lifecycle.Visible

/-!
# The statements of an operation stand together

Statements are sent only from inside the lock. A writer is alone there, so between the first and the last
statement of its operation no other operation sends any. The invariant says of each thread that holds the
lock as a writer that the statements of its operation are the last ones so far.
-/

namespace CatalogSteward.Lifecycle.System
open Act Client

/-- For each statement that was sent, in order, the operation that sent it. -/
def sent (s : System) : List Op := (s.log.filter fun entry => entry.2.isStatement).map Prod.fst

/-- The statements of an operation follow each other without a break. -/
def Unbroken (s : System) (o : Op) : Prop :=
  ∃ before n after, s.sent = before ++ List.replicate n o ++ after ∧ o ∉ before ∧ o ∉ after

structure Logged (P : Program) (trace : List Happening) (s : System) : Prop where
  whole : s.shared.world.trace = trace ++ s.log.map Prod.snd
  entered : ∀ o ∈ s.sent, o ∈ s.order
  last : ∀ t, s.threads.phase? t = some (.holding .exclusive) →
    ∃ before n, s.sent = before ++ List.replicate n (s.current t) ∧ s.current t ∉ before
  unbroken : ∀ o job, P.job? o = some job → job.call.mode = .exclusive → s.Unbroken o

/-- What an event adds to the trace stands in the log too, as that of the operation of its thread. -/
structure Adds (s : System) (t : Nat) (added : List Happening) (u : System) : Prop where
  trace : u.shared.world.trace = s.shared.world.trace ++ added
  log : u.log = s.log ++ added.map fun h => (s.current t, h)

section
variable {P : Program} {version : Int} {gate : Nat → Except Failure Unit} {c : Catalog}
  {trace added : List Happening} {s u : System} {t : Nat}

theorem adds_advance {α : Type} {kind : Happening → Prop} {a : Act α} (ha : Emits kind a) (s : System)
    (t client : Nat) : ∃ added, s.Adds t added (s.advance t (s.shared.run client a).2) ∧
      ∀ h ∈ added, kind h := by
  obtain ⟨added, htrace, hkind⟩ := ha (s.shared.view client)
  have htrace : (s.shared.run client a).2.world.trace = s.shared.world.trace ++ added := htrace
  refine ⟨added, ⟨htrace, ?_⟩, hkind⟩
  rw [advance, news, htrace, List.drop_left]

theorem Adds.sent (h : s.Adds t added u) :
    u.sent = s.sent ++ List.replicate (added.countP Happening.isStatement) (s.current t) := by
  rw [System.sent, System.sent, h.log, List.filter_append, List.map_append]
  congr 1
  rw [List.filter_map, List.map_map, List.countP_eq_length_filter]
  exact List.map_const' ..

theorem Adds.sent_silent (h : s.Adds t added u) (hsilent : ∀ x ∈ added, x.isStatement = false) :
    u.sent = s.sent := by
  have hnone : added.countP Happening.isStatement = 0 :=
    List.countP_eq_zero.mpr fun x hx => by simp [hsilent x hx]
  rw [h.sent, hnone, List.replicate_zero, List.append_nil]

theorem Adds.whole (h : s.Adds t added u) (hs : s.shared.world.trace = trace ++ s.log.map Prod.snd) :
    u.shared.world.trace = trace ++ u.log.map Prod.snd := by
  rw [h.trace, h.log, hs, List.map_append, List.map_map, List.append_assoc]
  congr 2
  exact (List.map_id added).symm

namespace Logged

theorem start (P : Program) (key : String) (shared : Shared) :
    (System.start key shared).Logged P shared.world.trace := by
  refine ⟨(List.append_nil _).symm, fun o ho => ?_, fun t ht => ?_, fun o job _ _ => ?_⟩
  · exact absurd ho List.not_mem_nil
  · cases ht
  · exact ⟨[], 0, [], rfl, List.not_mem_nil, List.not_mem_nil⟩

/-- An event with which no statement is sent. A writer that it lets in has not sent any yet. -/
theorem quiet (hl : s.Logged P trace) (hadds : s.Adds t added u)
    (hsilent : ∀ x ∈ added, x.isStatement = false) (hothers : ∀ v, v ≠ t → u.workers v = s.workers v)
    (horder : ∀ o ∈ s.order, o ∈ u.order)
    (hlast : ∀ v, u.threads.phase? v = some (.holding .exclusive) →
      v ≠ t ∧ s.threads.phase? v = some (.holding .exclusive) ∨ u.current v ∉ s.order) :
    u.Logged P trace := by
  have hsent := hadds.sent_silent hsilent
  refine ⟨hadds.whole hl.whole, fun o ho => ?_, fun v hv => ?_, fun o job hjob hmode => ?_⟩
  · rw [hsent] at ho
    exact horder o (hl.entered o ho)
  · rw [hsent]
    rcases hlast v hv with ⟨hvt, hholding⟩ | hnew
    · rw [current, hothers v hvt]
      exact hl.last v hholding
    · exact ⟨s.sent, 0, (List.append_nil _).symm, fun h => hnew (hl.entered _ h)⟩
  · rw [Unbroken, hsent]
    exact hl.unbroken o job hjob hmode

theorem begin_step (hs : s.Sound P version gate c) (hl : s.Logged P trace) (h : s.begin? P t = some u) :
    u.Logged P trace := by
  rw [begin?] at h
  split at h
  case h_2 => cases h
  next job hstage hjob =>
  obtain ⟨added, hadds, hsilent⟩ :=
    adds_advance (job.call.begin_silent (P.access job.client)) s t job.client
  have hwriter (v : Nat) (hv : s.threads.phase? v = some (.holding .exclusive)) : v ≠ t := by
    rintro rfl
    cases (hs.rests hstage).symm.trans hv
  have hquiet (worker : Worker) : Logged P trace
      { s.advance t (s.shared.run job.client (job.call.begin (P.access job.client))).2 with
        workers := Function.update s.workers t worker } :=
    hl.quiet ⟨hadds.trace, hadds.log⟩ hsilent (fun v hv => Function.update_of_ne hv ..) (fun o ho => ho)
      fun v hv => .inl ⟨hwriter v hv, hv⟩
  split at h <;> next hrun =>
    obtain rfl := Option.some.inj h
    rw [hrun] at hquiet
    exact hquiet _

/-- A thread that comes to the lock or wakes sends nothing, and has sent nothing before. -/
theorem lock_step (hs : s.Sound P version gate c) (hl : s.Logged P trace) {job : Job} {qs : List Request}
    (hstage : (s.workers t).stage = .waiting job qs) {e : Threads.Event} {threads : Threads}
    (hstep : Threads.Step s.threads e threads) (he : e.thread = t) :
    (enter { s with threads := threads } t job qs).Logged P trace := by
  subst he
  have hbefore := prospect_waiting hstage
  have hlast {u : System} (hcurrent : u.current e.thread = s.current e.thread) (v : Nat)
      (hv : threads.phase? v = some (.holding .exclusive)) :
      v ≠ e.thread ∧ s.threads.phase? v = some (.holding .exclusive) ∨ u.current v ∉ s.order := by
    by_cases hve : v = e.thread
    · rw [hve, hcurrent]
      exact .inr (hs.current_not_entered hbefore)
    · exact .inl ⟨hve, (hstep.holding_others hve _).mp hv⟩
  have hnothing {u : System} (hshared : u.shared = s.shared) (hlog : u.log = s.log) :
      s.Adds e.thread [] u := ⟨by rw [hshared, List.append_nil], by rw [hlog]; simp⟩
  rw [enter]
  split_ifs
  · refine hl.quiet (hnothing rfl rfl) (by simp) (fun v hv => Function.update_of_ne hv ..)
      (fun o ho => List.mem_append_left _ ho) (hlast ?_)
    have hself := workers_setStage { s with threads := threads } e.thread (.inside job (.ok .nothing) qs)
    rw [current]
    dsimp only
    rw [hself, current]
  · exact hl.quiet (hnothing rfl rfl) (by simp) (fun v _ => rfl) (fun o ho => ho) (hlast rfl)

/-- What an operation sends from inside stands after all that was sent before. If it writes, or if any
operation that writes is inside, the last that was sent before is its own. -/
theorem sends (hl : s.Logged P trace) (hs : s.Sound P version gate c) {job : Job} {qs : List Request}
    (hworks : s.Works P t job qs) (hadds : s.Adds t added u) (hcurrent : u.current t = s.current t)
    (horder : u.order = s.order) (hthreads : u.threads = s.threads) : u.Logged P trace := by
  obtain ⟨k, hsent⟩ : ∃ k, u.sent = s.sent ++ List.replicate k (s.current t) := ⟨_, hadds.sent⟩
  refine ⟨hadds.whole hl.whole, fun o ho => ?_, fun v hv => ?_, fun o job' hjob hmode => ?_⟩
  · rw [hsent] at ho
    rw [horder]
    rcases List.mem_append.mp ho with ho | ho
    · exact hl.entered o ho
    · rw [List.eq_of_mem_replicate ho]
      exact hworks.entered
  · rw [hthreads] at hv
    obtain rfl := hs.balanced.only_writer hv hworks.holds
    obtain ⟨before, n, hbefore, hnot⟩ := hl.last t hv
    rw [hcurrent, hsent, hbefore, List.append_assoc, List.replicate_append_replicate]
    exact ⟨before, _, rfl, hnot⟩
  · by_cases ho : o = s.current t
    · subst ho
      obtain rfl := Option.some.inj (hjob.symm.trans hworks.isJob)
      obtain ⟨before, n, hbefore, hnot⟩ := hl.last t (hmode ▸ hworks.holds)
      refine ⟨before, n + k, [], ?_, hnot, List.not_mem_nil⟩
      rw [hsent, hbefore, List.append_assoc, List.replicate_append_replicate, List.append_nil]
    · obtain ⟨before, n, after, hblock, hnot, hnot'⟩ := hl.unbroken o job' hjob hmode
      refine ⟨before, n, after ++ List.replicate k (s.current t), ?_, hnot, fun hmem => ?_⟩
      · rw [hsent, hblock, List.append_assoc]
      · rcases List.mem_append.mp hmem with hmem | hmem
        · exact hnot' hmem
        · exact ho (List.eq_of_mem_replicate hmem)

theorem request_step (hs : s.Sound P version gate c) (hl : s.Logged P trace)
    (h : s.request? P t = some u) : u.Logged P trace := by
  rw [request?] at h
  split at h
  case h_2 => cases h
  next job reply q qs hstage =>
  have hemits : Emits (fun _ => True) (q.perform (P.access job.client)) :=
    q.perform_emits (fun _ _ => trivial) (fun _ => trivial) (fun _ _ => trivial) _
  obtain ⟨added, hadds, -⟩ := adds_advance hemits s t job.client
  have hsends (stage : Stage) : Logged P trace
      ((s.advance t (s.shared.run job.client (q.perform (P.access job.client))).2).setStage t stage) := by
    refine hl.sends hs (hs.works hstage) ⟨hadds.trace, hadds.log⟩ ?_ rfl rfl
    rw [current, workers_setStage, workers_advance, current]
  split at h <;> next hrun =>
    obtain rfl := Option.some.inj h
    rw [hrun] at hsends
    exact hsends _

theorem release_step (hl : s.Logged P trace) (h : s.release? t = some u) :
    u.Logged P trace := by
  rw [release?] at h
  split at h
  case h_2 => cases h
  next job reply hstage =>
  obtain ⟨threads, hstep, rfl⟩ := Option.map_eq_some_iff.mp h
  have hstep := Threads.step?_sound hstep
  obtain ⟨added, hadds, hsilent⟩ := adds_advance (job.call.close_silent reply) s t job.client
  refine hl.quiet ⟨hadds.trace, hadds.log⟩ hsilent (fun v hv => Function.update_of_ne hv ..)
    (fun o ho => ho) fun v hv => ?_
  have hvt : v ≠ t := by
    rintro rfl
    cases hstep.phase?_release.2.symm.trans hv
  exact .inl ⟨hvt, (hstep.holding_others hvt _).mp hv⟩

theorem step (hs : s.Sound P version gate c) (hl : s.Logged P trace) {e : Event}
    (h : s.step? P e = some u) : u.Logged P trace := by
  cases e with
  | «begin» t => exact hl.begin_step hs h
  | acquire t =>
      simp only [step?, acquire?] at h
      split at h
      case h_2 => cases h
      next job qs hstage =>
      obtain ⟨threads, hstep, rfl⟩ := Option.map_eq_some_iff.mp h
      exact hl.lock_step hs hstage (Threads.step?_sound hstep) rfl
  | wake t =>
      simp only [step?, wake?] at h
      split at h
      case h_2 => cases h
      next job qs hstage =>
      obtain ⟨threads, hstep, rfl⟩ := Option.map_eq_some_iff.mp h
      exact hl.lock_step hs hstage (Threads.step?_sound hstep) rfl
  | request t => exact hl.request_step hs h
  | release t => exact hl.release_step h

end Logged

end

end CatalogSteward.Lifecycle.System
