import CatalogSteward.Proofs.Lifecycle.Blocks

/-!
# Operations are serialisable

Threads that carry out operations of the lifecycle on one catalog, under one lock, leave behind the
catalog and the results that the operations have when they are carried out one after another, in the order
in which they entered the lock. The statements of a writing operation stand together in the trace.
-/

namespace CatalogSteward.Lifecycle.System
open Act Client

section
variable {P : Program} {version : Int} {gate : Nat → Except Failure Unit} {c : Catalog} {s : System}

theorem Quiet.prospect (hq : s.Quiet) (t : Nat) : s.prospect t = none :=
  prospect_resting (hq t)

theorem Quiet.foreseen (hq : s.Quiet) (o : Op) : s.foreseen o = s.result? o := by
  rw [System.foreseen, hq.prospect, Option.or_none]

/-- When no thread is in the middle of an operation, catalog and results are those of the replay. -/
theorem Sound.replay_of_quiet (hs : s.Sound P version gate c) (hq : s.Quiet) :
    P.replay gate s.order c = (s.order.map s.result?, s.catalog) := by
  have hnobody : s.threads.holding .exclusive = ∅ := by
    refine Set.eq_empty_iff_forall_notMem.mpr fun t ht => ?_
    cases (hs.rests (hq t)).symm.trans ht
  have hresults := hs.results
  rw [List.map_congr_left fun o _ => hq.foreseen o] at hresults
  exact Prod.ext hresults (hs.outside hnobody).symm

theorem Sound.ended_of_quiet (hs : s.Sound P version gate c) (hq : s.Quiet) :
    ∀ o ∈ s.order, (s.result? o).isSome := by
  intro o ho
  rcases hs.entered o ho with hlt | ⟨-, hinside⟩
  · rw [result?, List.getElem?_eq_getElem hlt]
    rfl
  · rw [hq.prospect] at hinside
    cases hinside

theorem run_sound {key : String} {shared : Shared} {es : List Event}
    (hsteady : shared.Steady P version gate) (h : (start key shared).run? P es = some s) :
    s.Sound P version gate shared.world.server.catalog ∧ s.Logged P shared.world.trace := by
  refine run?_induction (motive := fun s => s.Sound P version gate shared.world.server.catalog ∧
    s.Logged P shared.world.trace) ?_ ⟨Sound.start key hsteady, Logged.start P key shared⟩ h
  rintro s e u hstep ⟨hs, hl⟩
  exact ⟨hs.step hstep, hl.step hs hstep⟩

/-- In every state that a run reaches, all that has become visible is in the log, and the statements of
each writing operation stand together there. In a state in which no operation is under way, let there be
some operations that have ended, among them those that entered the lock, in the order in which they did:
carried out one after another, they have the same results and lead to the same catalog. An operation that
has ended without entering the lock has the same result on every catalog. -/
theorem interleavings_serialise {key : String} {shared : Shared} {es : List Event}
    (hkey : ∀ n, (P.access n).target = key) (hserver : shared.world.server.Unscripted)
    (hlock : (shared.world.locks.lock key).IsFree) (h : (start key shared).run? P es = some s) :
    s.shared.world.trace = shared.world.trace ++ s.log.map Prod.snd ∧
    (∀ o job, P.job? o = some job → job.call.mode = .exclusive → s.Unbroken o) ∧
    s.order.Nodup ∧
    (s.Quiet →
      (∀ o ∈ s.order, (s.result? o).isSome) ∧
      ∀ os : List Op, os.filter (· ∈ s.order) = s.order → (∀ o ∈ os, (s.result? o).isSome) →
        (serially P os shared).1 = os.map s.result? ∧
        (serially P os shared).2.world.server.catalog = s.shared.world.server.catalog) ∧
    ∀ o job result, P.job? o = some job → s.result? o = some result → o ∉ s.order → ∀ d,
      (Shared.run { shared with world := shared.world.withCatalog d } job.client
        (job.call.run (P.access job.client))).1 = result := by
  obtain ⟨gate, hgate⟩ : ∃ gate : Nat → Except Failure Unit, ∀ n,
      (shared.clients n).verdict (P.access n) Gateway.resourceName shared.world.server.version = gate n :=
    ⟨_, fun _ => rfl⟩
  have hsteady : shared.Steady P shared.world.server.version gate := ⟨hserver, rfl, hgate⟩
  obtain ⟨hs, hl⟩ := run_sound hsteady h
  refine ⟨hl.whole, hl.unbroken, hs.nodup, fun hq => ⟨hs.ended_of_quiet hq, fun os horder hended => ?_⟩,
    fun o job result hjob hresult hout d => ?_⟩
  · -- what has ended without the lock is idle, so the replay may pass it over
    have hreplay := hs.replay_of_quiet hq
    obtain ⟨hserial, hcatalog⟩ := serially_replay hkey os hsteady hlock
    have hidle (o : Op) (ho : o ∈ os) (hout : decide (o ∈ s.order) = false) :
        ∃ result, s.result? o = some result ∧ P.Idle gate o result := by
      obtain ⟨result, hresult⟩ := Option.isSome_iff_exists.mp (hended o ho)
      exact ⟨result, hresult, (hs.idle o result hresult).resolve_left (of_decide_eq_false hout)⟩
    have hfilter := replay_filter (by rw [horder, hreplay]) hidle
    rw [hfilter] at hserial hcatalog
    rw [horder, hreplay] at hcatalog
    exact ⟨hserial, hcatalog⟩
  · obtain ⟨job', hjob', hidle⟩ := (hs.idle o result hresult).resolve_left hout
    obtain rfl := Option.some.inj (hjob.symm.trans hjob')
    have hsteady' : Shared.Steady { shared with world := shared.world.withCatalog d } P
        shared.world.server.version gate := ⟨⟨hserver.replies, hserver.connectReplies⟩, rfl, hgate⟩
    -- a run of this operation alone is a serial run too
    have hserial := (serially_replay hkey [o] hsteady' hlock).1
    simp only [serially, Program.replay, hjob, hidle] at hserial
    exact Option.some.inj (List.cons.inj hserial).1

end

/-- One thread installs an extension, one reads and drops it, and one reads with an empty name. -/
def threeThreads : Program where
  access := fun _ => ⟨.default, none⟩
  jobs
    | 0 => [⟨.create ⟨"hstore", some "app", none⟩, 0⟩]
    | 1 => [⟨.read "hstore", 1⟩, ⟨.delete "hstore", 1⟩]
    | 2 => [⟨.read "", 0⟩]
    | _ => []

def newServer : Shared where
  world := .ofServer ⟨.fresh, 160002, [], []⟩
  clients := fun _ => .start

/-- The reader comes while the writer is inside, wakes too early, and enters when the writer has left. -/
def earlyWake : List Event :=
  [.begin 0, .begin 1, .acquire 0, .acquire 1, .begin 2, .request 0, .wake 1, .request 0,
    .release 0, .wake 1, .request 1, .release 1, .begin 1, .acquire 1, .request 1, .release 1]

theorem interleavings_serialise_three :
    ∃ s, (start (Access.target ⟨.default, none⟩) newServer).run? threeThreads earlyWake = some s ∧ s.Quiet ∧
      s.order = [⟨0, 0⟩, ⟨1, 0⟩, ⟨1, 1⟩] ∧ s.Unbroken ⟨0, 0⟩ ∧
      (serially threeThreads [⟨2, 0⟩, ⟨0, 0⟩, ⟨1, 0⟩, ⟨1, 1⟩] newServer).1 =
        [⟨2, 0⟩, ⟨0, 0⟩, ⟨1, 0⟩, ⟨1, 1⟩].map s.result? := by
  have horder : ((start (Access.target ⟨.default, none⟩) newServer).run? threeThreads earlyWake).map order =
      some [⟨0, 0⟩, ⟨1, 0⟩, ⟨1, 1⟩] := by decide +kernel
  have hrests : ((start (Access.target ⟨.default, none⟩) newServer).run? threeThreads earlyWake).map
      (fun s => [0, 1, 2].all fun t => (s.workers t).stage.isResting) = some true := by decide +kernel
  have hended : ((start (Access.target ⟨.default, none⟩) newServer).run? threeThreads earlyWake).map
      (fun s => (s.result? ⟨2, 0⟩).isSome) = some true := by decide +kernel
  obtain ⟨s, hs, horder⟩ := Option.map_eq_some_iff.mp horder
  rw [hs] at hrests hended
  have hquiet : s.Quiet := by
    intro t
    by_cases ht : t ∈ [0, 1, 2]
    · exact Stage.isResting_iff.mp (List.all_eq_true.mp (Option.some.inj hrests) t ht)
    · have hothers : ∀ e ∈ earlyWake, e.thread ∈ [0, 1, 2] := by decide
      have hne (e : Event) (he : e ∈ earlyWake) : t ≠ e.thread := by
        rintro rfl
        exact ht (hothers e he)
      rw [run?_others hs hne]
      rfl
  obtain ⟨-, hunbroken, -, hserial, -⟩ := interleavings_serialise (fun _ => rfl) ⟨rfl, rfl⟩
    ⟨rfl, rfl, rfl⟩ hs
  obtain ⟨hentered, hserial⟩ := hserial hquiet
  refine ⟨s, hs, hquiet, horder, hunbroken _ _ rfl rfl, (hserial _ ?_ ?_).1⟩
  · rw [horder]
    decide
  · rw [horder] at hentered
    intro o ho
    rcases List.mem_cons.mp ho with rfl | ho
    · exact Option.some.inj hended
    · exact hentered o ho

end CatalogSteward.Lifecycle.System
